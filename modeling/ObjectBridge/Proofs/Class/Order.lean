import Mathlib.Logic.Relation
import ObjectBridge.Proofs.Class.Inheritance

/-!
# The order of the classes

However many attempts are made to add a class, with or without success, the classes stand under their numbers, behind
their bases, and each under a name of its own.  So a chain of classes comes to its end, and to be derived from a class is
a partial order.

* `Definition.attempt` and `attempts` — definitions that may fail.
* `ClassTable.HasBase` — the bases of the classes, which `isSubclassOf` follows (`Numbered.isSubclassOf_iff`).
* `ClassTable.Walk` — what the chain of a class is like.
* `ClassTable.Ordered` — what holds of a table; `ordered_attempts` says that it always does.
-/

namespace ObjectBridge

namespace ClassTable

variable {t t' : ClassTable} {id ancestor : ClassId} {c : ClassInfo} {name : String}

/-! ## Bases -/

/-- A class has another one as its base. -/
def HasBase (t : ClassTable) (id b : ClassId) : Prop :=
  ∃ c, t.get? id = some c ∧ c.base = some b

theorem exists_get?_of_lt (h : id < t.nextId) : ∃ c, t.get? id = some c :=
  ⟨t.classes[id], List.getElem?_eq_getElem h⟩

theorem get?_eq_none_of_le (h : t.nextId ≤ id) : t.get? id = none :=
  List.getElem?_eq_none h

theorem ancestors_eq_nil_of_le (h : t.nextId ≤ id) : t.ancestors id = [] := by
  rw [ancestors, get?_eq_none_of_le h]
  cases t.classes.length <;> rfl

/-- A class derives from another one exactly if its bases lead there. -/
theorem Numbered.isSubclassOf_iff (hnum : t.Numbered) :
    t.isSubclassOf id ancestor = true ↔ id < t.nextId ∧ Relation.ReflTransGen t.HasBase id ancestor := by
  -- The induction is on the number of the class, as a base has a smaller one.
  induction id using Nat.strongRecOn with
  | ind id ih =>
      rcases Nat.lt_or_ge id t.nextId with hlt | hge
      · obtain ⟨c, hc⟩ := exists_get?_of_lt hlt
        rw [isSubclassOf, hnum.ancestors_eq hc, List.any_cons, hnum.id_eq hc, Bool.or_eq_true, beq_iff_eq,
          Relation.ReflTransGen.cases_head_iff]
        cases hb : c.base with
        | none =>
            have hnone (b : ClassId) : ¬t.HasBase id b := by
              rintro ⟨d, hd, hbase⟩
              obtain rfl := Option.some.inj (hc.symm.trans hd)
              rw [hb] at hbase
              cases hbase
            simp [hlt, hnone]
        | some b =>
            have hbelow := ih b (hnum.base_lt hc hb)
            rw [isSubclassOf] at hbelow
            have hblt : b < t.nextId := Nat.lt_trans (hnum.base_lt hc hb) hlt
            have hone (b' : ClassId) : t.HasBase id b' ↔ b' = b := by
              constructor
              · rintro ⟨d, hd, hbase⟩
                obtain rfl := Option.some.inj (hc.symm.trans hd)
                exact Option.some.inj (hbase.symm.trans hb)
              · rintro rfl
                exact ⟨c, hc, hb⟩
            simp only [Option.map_some, Option.getD_some, hbelow, hlt, hblt, true_and, hone, exists_eq_left]
      · rw [isSubclassOf, ancestors_eq_nil_of_le hge]
        simp [Nat.not_lt.mpr hge]

theorem Numbered.le_of_derives (hnum : t.Numbered) (h : Relation.ReflTransGen t.HasBase id ancestor) :
    ancestor ≤ id := by
  induction h with
  | refl => exact Nat.le_refl _
  | tail _ hlast ih =>
      obtain ⟨c, hc, hb⟩ := hlast
      exact (Nat.le_of_lt (hnum.base_lt hc hb)).trans ih

/-! ## Chains -/

/-- A chain starts with a class, goes on with the base of each class, by which the numbers decrease, and ends with a class
that has no base. -/
structure Walk (c : ClassInfo) (chain : List ClassInfo) : Prop where
  head : chain.head? = some c
  next : chain.IsChain fun d e => d.base = some e.id
  last : ∀ d ∈ chain.getLast?, d.base = none
  decreasing : (chain.map ClassInfo.id).Pairwise (· > ·)

theorem Walk.singleton (h : c.base = none) : Walk c [c] :=
  ⟨rfl, .singleton c, by simp [h], List.pairwise_singleton _ _⟩

/-- A class goes before the chain of its base. -/
theorem Walk.cons {b : ClassInfo} {chain : List ClassInfo} (h : Walk b chain) (hbase : c.base = some b.id)
    (hlt : b.id < c.id) : Walk c (c :: chain) := by
  obtain ⟨rest, rfl⟩ : ∃ rest, chain = b :: rest := by
    have hhead := h.head
    cases chain with
    | nil => cases hhead
    | cons d rest => exact ⟨rest, by rw [Option.some.inj hhead]⟩
  refine ⟨rfl, .cons_cons hbase h.next, ?_, ?_⟩
  · rw [List.getLast?_cons_cons]
    exact h.last
  · have hbelow := h.decreasing
    rw [List.map_cons, List.pairwise_cons] at hbelow ⊢
    refine ⟨?_, h.decreasing⟩
    rintro id (_ | ⟨_, hid⟩)
    · exact hlt
    · exact Nat.lt_trans (hbelow.1 id hid) hlt

theorem Numbered.walk (hnum : t.Numbered) (hc : t.get? id = some c) : Walk c (t.ancestors id) := by
  induction id using Nat.strongRecOn generalizing c with
  | ind id ih =>
      rw [hnum.ancestors_eq hc]
      cases hb : c.base with
      | none => exact .singleton hb
      | some b =>
          have hlt : b < id := hnum.base_lt hc hb
          obtain ⟨d, hd⟩ := exists_get?_of_lt (Nat.lt_trans hlt (lt_nextId_of_get? hc))
          have hid := hnum.id_eq hd
          exact (ih b hlt hd).cons (hb.trans (congrArg some hid.symm)) (by rwa [hid, hnum.id_eq hc])

/-- A walk along the bases is not cut off. -/
theorem Numbered.chainFrom_eq_ancestors (hnum : t.Numbered) {n : Nat} (hn : t.nextId ≤ n) (id : ClassId) :
    t.chainFrom n (t.get? id) = t.ancestors id := by
  rcases Nat.lt_or_ge id t.nextId with hlt | hge
  · exact hnum.chainFrom_eq (Nat.lt_of_lt_of_le hlt hn) hlt
  · rw [ancestors_eq_nil_of_le hge, get?_eq_none_of_le hge]
    cases n <;> rfl

/-! ## Names -/

/-- No two classes have one name. -/
def Named (t : ClassTable) : Prop :=
  (t.classes.map ClassInfo.name).Nodup

theorem named_empty : Named {} :=
  List.nodup_nil

/-- A class is added under a name that no class has. -/
theorem Named.snoc (h : t.Named) (hnew : t.lookup? c.name = none) : (t.snoc c).Named := by
  rw [lookup?_eq_find?, Option.map_eq_none_iff, List.find?_eq_none] at hnew
  rw [Named, ClassTable.snoc, ofClasses, List.map_append, List.nodup_append]
  refine ⟨h, List.nodup_singleton _, ?_⟩
  rintro name hname other hother rfl
  obtain ⟨d, hd, hsame⟩ := List.mem_map.mp hname
  refine hnew d hd (beq_iff_eq.mpr ?_)
  rw [hsame]
  exact List.mem_singleton.mp hother

theorem nameOf_eq (hc : t.get? id = some c) : t.nameOf id = c.name := by
  rw [nameOf, hc]

theorem Named.inj (h : t.Named) {id' : ClassId} (hid : id < t.nextId) (hid' : id' < t.nextId)
    (hname : t.nameOf id = t.nameOf id') : id = id' := by
  obtain ⟨c, hc⟩ := exists_get?_of_lt hid
  obtain ⟨c', hc'⟩ := exists_get?_of_lt hid'
  rw [nameOf_eq hc, nameOf_eq hc'] at hname
  have hone : (t.classes.map ClassInfo.name)[id]? = some c.name := by
    rw [List.getElem?_map]
    exact congrArg (Option.map ClassInfo.name) hc
  have hother : (t.classes.map ClassInfo.name)[id']? = some c.name := by
    rw [List.getElem?_map, hname]
    exact congrArg (Option.map ClassInfo.name) hc'
  exact (List.getElem?_inj (List.getElem?_eq_some_iff.mp hone).1 h).mp (hone.trans hother.symm)

/-- To look a class up by its name is the inverse of telling its name. -/
theorem Named.lookup?_eq_some_iff (h : t.Named) (hnum : t.Numbered) :
    t.lookup? name = some id ↔ id < t.nextId ∧ t.nameOf id = name := by
  rw [lookup?_eq_find?]
  constructor
  · intro hfound
    obtain ⟨c, hc, rfl⟩ := Option.map_eq_some_iff.mp hfound
    have hname := List.find?_some hc
    obtain ⟨n, hn⟩ := List.getElem?_of_mem (List.mem_of_find?_eq_some hc)
    obtain rfl := hnum.id_eq hn
    exact ⟨lt_nextId_of_get? hn, (nameOf_eq hn).trans (eq_of_beq hname)⟩
  · rintro ⟨hlt, rfl⟩
    obtain ⟨c, hc⟩ := exists_get?_of_lt hlt
    cases hfound : t.classes.find? fun d => d.name == t.nameOf id with
    | none =>
        have hmissed := List.find?_eq_none.mp hfound c (List.mem_of_getElem? hc)
        rw [nameOf_eq hc] at hmissed
        exact absurd (beq_self_eq_true _) hmissed
    | some d =>
        have hname := List.find?_some hfound
        obtain ⟨n, hn⟩ := List.getElem?_of_mem (List.mem_of_find?_eq_some hfound)
        -- The first class with the name is found, and no other class has it.
        obtain rfl := h.inj (lt_nextId_of_get? hn) hlt ((nameOf_eq hn).trans (eq_of_beq hname))
        rw [Option.map_some, hnum.id_eq hn]

/-! ## Tables -/

/-- The classes stand under their numbers, behind their bases, and each under a name of its own.  To be derived from a
class is a partial order, which the chains follow to their ends. -/
structure Ordered (t : ClassTable) : Prop where
  id_eq : ∀ id c, t.get? id = some c → c.id = id
  base_lt : ∀ id c b, t.get? id = some c → c.base = some b → b < c.id
  name_inj : ∀ id id', id < t.nextId → id' < t.nextId → t.nameOf id = t.nameOf id' → id = id'
  lookup?_iff : ∀ name id, t.lookup? name = some id ↔ id < t.nextId ∧ t.nameOf id = name
  walk : ∀ id c, t.get? id = some c → Walk c (t.ancestors id)
  /-- The chain is the same however long a walk may be. -/
  unbounded : ∀ id n, t.nextId ≤ n → t.chainFrom n (t.get? id) = t.ancestors id
  derives_iff : ∀ id ancestor,
    t.isSubclassOf id ancestor = true ↔ id < t.nextId ∧ Relation.ReflTransGen t.HasBase id ancestor
  refl : ∀ id, id < t.nextId → t.isSubclassOf id id = true
  trans : ∀ a b c, t.isSubclassOf a b = true → t.isSubclassOf b c = true → t.isSubclassOf a c = true
  antisymm : ∀ a b, t.isSubclassOf a b = true → t.isSubclassOf b a = true → a = b

theorem Numbered.ordered (hnum : t.Numbered) (hnamed : t.Named) : t.Ordered where
  id_eq _ _ hc := hnum.id_eq hc
  base_lt _ _ _ hc hb := (hnum.id_eq hc).symm ▸ hnum.base_lt hc hb
  name_inj _ _ hid hid' := hnamed.inj hid hid'
  lookup?_iff _ _ := hnamed.lookup?_eq_some_iff hnum
  walk _ _ hc := hnum.walk hc
  unbounded id _ hn := hnum.chainFrom_eq_ancestors hn id
  derives_iff _ _ := hnum.isSubclassOf_iff
  refl _ hid := hnum.isSubclassOf_iff.mpr ⟨hid, .refl⟩
  trans a b c hab hbc := by
    rw [hnum.isSubclassOf_iff] at hab hbc ⊢
    exact ⟨hab.1, hab.2.trans hbc.2⟩
  antisymm a b hab hba := by
    rw [hnum.isSubclassOf_iff] at hab hba
    exact Nat.le_antisymm (hnum.le_of_derives hba.2) (hnum.le_of_derives hab.2)

end ClassTable

open ClassTable

variable {t t' : ClassTable} {ds : List Definition} {id : ClassId}

/-! ## Attempts -/

/-- A definition that succeeds adds one class, under the next number and a new name. -/
theorem Definition.exists_of_apply {d : Definition} (h : d.apply t = .ok (id, t')) :
    ∃ c, id = t.nextId ∧ c.id = t.nextId ∧ t' = t.snoc c ∧ t.lookup? c.name = none := by
  have hregister : ∃ c, t.register c = .ok (id, t') ∧ c.id = t.nextId := by
    cases d with
    | described d =>
        obtain ⟨c, hbuild, h⟩ := bind_eq_ok_iff.mp h
        exact ⟨c, h, (build_cases hbuild).1⟩
    | derived name base overrides =>
        obtain ⟨baseId, -, h⟩ := bind_eq_ok_iff.mp h
        obtain ⟨baseInfo, -, h⟩ := bind_eq_ok_iff.mp h
        obtain ⟨table, -, h⟩ := bind_eq_ok_iff.mp h
        obtain ⟨c, hbuild, h⟩ := bind_eq_ok_iff.mp h
        exact ⟨_, h, (build_cases hbuild).1⟩
  obtain ⟨c, h, hid⟩ := hregister
  obtain ⟨rfl, rfl⟩ := register_cases h
  exact ⟨c, hid, hid, rfl, lookup?_of_register h⟩

theorem Defines.named (h : Defines ds t) : t.Named := by
  induction h with
  | nil => exact named_empty
  | snoc d _ hstep ih =>
      obtain ⟨c, -, -, rfl, hnew⟩ := d.exists_of_apply hstep
      exact ih.snoc hnew

theorem Defines.ordered (h : Defines ds t) : t.Ordered :=
  h.numbered.ordered h.named

/-- Try to add a class.  An attempt that fails adds nothing. -/
def Definition.attempt (t : ClassTable) (d : Definition) : ClassTable :=
  ((d.apply t).toOption.map Prod.snd).getD t

/-- The table after attempts to add classes, one after the other. -/
def attempts (ds : List Definition) : ClassTable :=
  ds.foldl Definition.attempt {}

/-- An attempt fails and leaves the table as it is, or adds one class under the next number. -/
theorem Definition.attempt_cases (t : ClassTable) (d : Definition) :
    (∃ e, d.apply t = .error e ∧ d.attempt t = t) ∨
      ∃ c, d.apply t = .ok (t.nextId, t.snoc c) ∧ d.attempt t = t.snoc c ∧ c.id = t.nextId := by
  rcases happly : d.apply t with e | ⟨id, t'⟩
  · refine Or.inl ⟨e, rfl, ?_⟩
    rw [attempt, happly]
    rfl
  · obtain ⟨c, rfl, hid, rfl, -⟩ := d.exists_of_apply happly
    refine Or.inr ⟨c, rfl, ?_, hid⟩
    rw [attempt, happly]
    rfl

/-- The attempts that succeed make up the table. -/
theorem exists_defines_attempts (ds : List Definition) : ∃ ds', ds'.Sublist ds ∧ Defines ds' (attempts ds) := by
  induction ds using List.reverseRecOn with
  | nil => exact ⟨[], .slnil, .nil⟩
  | append_singleton ds d ih =>
      obtain ⟨ds', hsublist, hdefines⟩ := ih
      rw [attempts, List.foldl_append, List.foldl_cons, List.foldl_nil, ← attempts]
      rcases d.attempt_cases (attempts ds) with ⟨e, -, heq⟩ | ⟨c, happly, heq, -⟩
      · rw [heq]
        exact ⟨ds', hsublist.trans (List.sublist_append_left _ _), hdefines⟩
      · rw [heq]
        exact ⟨ds' ++ [d], hsublist.append (List.Sublist.refl _), .snoc d hdefines happly⟩

theorem Defines.attempts_eq (h : Defines ds t) : attempts ds = t := by
  induction h with
  | nil => rfl
  | snoc d _ hstep ih =>
      rw [attempts, List.foldl_append, List.foldl_cons, List.foldl_nil, ← attempts, ih, Definition.attempt, hstep]
      rfl

/-- Whatever is attempted, the classes stay in order. -/
theorem ordered_attempts (ds : List Definition) : (attempts ds).Ordered := by
  obtain ⟨ds', -, hdefines⟩ := exists_defines_attempts ds
  exact hdefines.ordered

end ObjectBridge
