import ObjectBridge.Proofs.Class.Contents
import ObjectBridge.Proofs.Class.Growth

/-!
# Inherited overrides and methods

A class table is the outcome of definitions: classes that are described, and classes that host code derives from
others with overrides.  A class of the second sort starts from the overrides of its base.  A class of the first sort
has none, whatever its base has, so overrides are inherited up to the nearest such class of the chain and not
beyond.  A class of the second sort declares no methods, so its methods are those of the class that it was derived from.

* `Definition` and `Defines` — the definitions that a table comes from.
* `Numbered.ancestors_eq` — the chain of a class, by its base.
* `inherited` and `nearest` — the override that comes down the chain, and the one of the nearest class that lists the
  method.
* `Defines.overrideOf_eq` — what a class has is what comes down the chain.
* `Defines.inherited_eq_nearest` — both are one unless a class that is described derives from one of host code.
* `ClassTable.HostDerived` — a class comes from another one through classes of host code alone.
* `Defines.findMethod_eq` and `Defines.isSubclassOf_eq` — such a class has the methods of the other one, and derives from
  the same described classes.
-/

namespace ObjectBridge

namespace ClassTable

variable {t t' : ClassTable} {id : ClassId} {c : ClassInfo}

/-- The override that a class carries for a method. -/
def overrideOf (t : ClassTable) (id : ClassId) (method : String) : Option Callable :=
  (t.overrides id).bind fun o => o.get? method

/-! ## The chain of a class -/

/-- Every class stands behind its base, so a chain is as long as the number of its first class at most. -/
theorem Numbered.chainFrom_eq (hnum : t.Numbered) {n m : Nat} (hn : id < n) (hm : id < m) :
    t.chainFrom n (t.get? id) = t.chainFrom m (t.get? id) := by
  induction id using Nat.strongRecOn generalizing n m with
  | ind id ih =>
      -- Whatever is left of either bound is enough for the base, which has a smaller number.
      cases hc : t.get? id with
      | none => cases n <;> cases m <;> simp [chainFrom] at hn hm ⊢
      | some c =>
          obtain ⟨n, rfl⟩ := Nat.exists_eq_add_one_of_ne_zero (Nat.ne_zero_of_lt hn)
          obtain ⟨m, rfl⟩ := Nat.exists_eq_add_one_of_ne_zero (Nat.ne_zero_of_lt hm)
          rw [chainFrom, chainFrom]
          cases hb : c.base with
          | none => cases n <;> cases m <;> rfl
          | some b =>
              have hlt : b < id := hnum.base_lt hc hb
              exact congrArg (c :: ·) (ih b hlt (Nat.lt_of_lt_of_le hlt (Nat.le_of_lt_succ hn))
                (Nat.lt_of_lt_of_le hlt (Nat.le_of_lt_succ hm)))

/-- The chain of a class is the class and the chain of its base. -/
theorem Numbered.ancestors_eq (hnum : t.Numbered) (hc : t.get? id = some c) :
    t.ancestors id = c :: (c.base.map t.ancestors).getD [] := by
  have hid : id < t.classes.length := lt_nextId_of_get? hc
  rw [ancestors, hnum.chainFrom_eq hid (Nat.lt_succ_self id), hc, chainFrom]
  cases hb : c.base with
  | none => cases id <;> rfl
  | some b =>
      have hlt : b < id := hnum.base_lt hc hb
      exact congrArg (c :: ·) (hnum.chainFrom_eq hlt (Nat.lt_trans hlt hid))

end ClassTable

/-! ## Definitions -/

/-- How a class comes into the table. -/
inductive Definition where
  /-- A class is described. -/
  | described (d : ClassDraft)
  /-- Host code derives a class from another one, and overrides virtual methods. -/
  | derived (name base : String) (overrides : List (String × Callable))

namespace Definition

/-- Add the class. -/
def apply (t : ClassTable) : Definition → Except Error (ClassId × ClassTable)
  | described d => t.define d
  | derived name base overrides => t.defineSubclass name base overrides

/-- The override that a definition lists for a method; the last one, if it lists the method more than once. -/
def listed : Definition → String → Option Callable
  | described _, _ => none
  | derived _ _ overrides, method => overrides.reverse.lookup method

end Definition

open ClassTable

/-- The definitions, one after the other, make up a table from one without classes. -/
inductive Defines : List Definition → ClassTable → Prop
  | nil : Defines [] {}
  | snoc {ds : List Definition} {t t' : ClassTable} {id : ClassId} (d : Definition) (h : Defines ds t)
      (hstep : d.apply t = .ok (id, t')) : Defines (ds ++ [d]) t'

/-- The override that the definition of a class lists for a method. -/
def listedFor (ds : List Definition) (method : String) (c : ClassInfo) : Option Callable :=
  (ds[c.id]?).bind fun d => d.listed method

/-- The override of the nearest class on the chain whose definition lists the method. -/
def nearest (ds : List Definition) (t : ClassTable) (id : ClassId) (method : String) : Option Callable :=
  (t.ancestors id).findSome? (listedFor ds method)

/-- The override that comes down the chain, from classes that host code derives one from the other. -/
def inherited (ds : List Definition) (t : ClassTable) (id : ClassId) (method : String) : Option Callable :=
  ((t.ancestors id).takeWhile fun c => c.overrides.isSome).findSome? (listedFor ds method)

/-- What a definition tells of its class: if host code derived the class, it has the overrides that are listed, and
besides them those of its base. -/
inductive Definition.Describes (t : ClassTable) (c : ClassInfo) : Definition → Prop
  | described (d : ClassDraft) (hnone : c.overrides = none) : Describes t c (.described d)
  | derived (name base : String) (overrides : List (String × Callable)) (b : ClassId) (baseInfo : ClassInfo)
      (table : Overrides) (hbase : c.base = some b) (hinfo : t.get? b = some baseInfo)
      (htable : c.overrides = some table)
      (hlisted : ∀ method, table.get? method =
        ((Definition.derived name base overrides).listed method).or (t.overrideOf b method)) :
      Describes t c (.derived name base overrides)

variable {t t' : ClassTable} {ds : List Definition} {id : ClassId} {c : ClassInfo}

/-- The override that is listed last replaces those before and the one that was there. -/
theorem get?_addOverrides {baseId : ClassId} {baseName : String} {table table' : Overrides}
    {overrides : List (String × Callable)}
    (hadd : t.addOverrides baseId baseName table overrides = .ok table') (method : String) :
    table'.get? method = (overrides.reverse.lookup method).or (table.get? method) := by
  induction overrides generalizing table with
  | nil =>
      obtain rfl := Except.ok.inj hadd
      rfl
  | cons entry rest ih =>
      obtain ⟨name, f⟩ := entry
      rw [addOverrides] at hadd
      split at hadd
      · -- The rest of the list is put into the table later, and so it is looked up first.
        rw [ih hadd, List.reverse_cons, List.lookup_append, Option.or_assoc]
        congr 1
        by_cases hname : method = name
        · subst hname
          rw [Overrides.get?, Overrides.insert, lookup_put_self]
          simp
        · rw [Overrides.get?, Overrides.insert, lookup_put_of_ne hname]
          have hmissed : (method == name) = false := beq_false_of_ne hname
          simp [List.lookup_cons, hmissed, Overrides.get?]
      · cases hadd

theorem overrideOf_eq_of_get? (hc : t.get? id = some c) (method : String) :
    t.overrideOf id method = c.overrides.bind fun o => o.get? method := by
  rw [overrideOf, ClassTable.overrides, hc]
  rfl

/-- A later table tells the same of a class. -/
theorem Definition.Describes.extends {d : Definition} (h : d.Describes t c) (hextends : t.Extends t') :
    d.Describes t' c := by
  cases h with
  | described d hnone => exact .described d hnone
  | derived name base overrides b baseInfo table hbase hinfo htable hlisted =>
      refine .derived name base overrides b baseInfo table hbase (hextends.get? hinfo) htable ?_
      intro method
      rw [hlisted method, overrideOf_eq_of_get? hinfo, overrideOf_eq_of_get? (hextends.get? hinfo)]

/-- A definition adds one class at the end, of which it tells. -/
theorem Definition.apply_cases {d : Definition} (hstep : d.apply t = .ok (id, t')) :
    ∃ c, t' = t.snoc c ∧ d.Describes t' c := by
  cases d with
  | described d =>
      obtain ⟨c, rfl, -, -, hnone⟩ := define_cases hstep
      exact ⟨c, rfl, .described d hnone⟩
  | derived name base overrides =>
      obtain ⟨baseId, baseInfo, table, c, hinfo, hadd, rfl, -, hbase, htable⟩ := defineSubclass_cases hstep
      refine ⟨c, rfl, .extends ?_ (extends_snoc t c)⟩
      refine .derived name base overrides baseId baseInfo table hbase hinfo htable ?_
      intro method
      rw [get?_addOverrides hadd, overrideOf_eq_of_get? hinfo]
      congr 1
      cases baseInfo.overrides <;> rfl

namespace Defines

theorem numbered (h : Defines ds t) : t.Numbered := by
  induction h with
  | nil => exact numbered_empty
  | snoc d _ hstep ih =>
      cases d with
      | described d => exact ih.define hstep
      | derived name base overrides => exact ih.defineSubclass hstep

theorem length_eq (h : Defines ds t) : ds.length = t.nextId := by
  induction h with
  | nil => rfl
  | snoc d _ hstep ih =>
      obtain ⟨c, rfl, -⟩ := Definition.apply_cases hstep
      rw [nextId_snoc, ← ih, List.length_append, List.length_singleton]

/-- Every class has its definition, under its number. -/
theorem exists_describes (h : Defines ds t) (hc : t.get? id = some c) :
    ∃ d, ds[id]? = some d ∧ d.Describes t c := by
  induction h with
  | nil => simp [ClassTable.get?] at hc
  | snoc d hbefore hstep ih =>
      obtain ⟨new, rfl, hdescribes⟩ := Definition.apply_cases hstep
      rw [get?_snoc] at hc
      split at hc
      · rename_i hid
        obtain rfl := Option.some.inj hc
        refine ⟨d, ?_, hdescribes⟩
        rw [hid, ← hbefore.length_eq, List.getElem?_concat_length]
      · obtain ⟨d', hd', hdescribes'⟩ := ih hc
        refine ⟨d', ?_, hdescribes'.extends (extends_snoc _ new)⟩
        rw [List.getElem?_append_left (List.getElem?_eq_some_iff.mp hd').1]
        exact hd'

/-- The override of a class is the one that comes down the chain. -/
theorem overrideOf_eq (h : Defines ds t) (id : ClassId) (method : String) :
    t.overrideOf id method = inherited ds t id method := by
  induction id using Nat.strongRecOn with
  | ind id ih =>
      cases hc : t.get? id with
      | none =>
          have hchain : t.ancestors id = [] := by
            rw [ancestors, hc]
            cases t.classes.length <;> rfl
          rw [inherited, hchain, overrideOf, ClassTable.overrides, hc]
          rfl
      | some c =>
          obtain ⟨d, hd, hdescribes⟩ := h.exists_describes hc
          have hlist : listedFor ds method c = d.listed method := by
            rw [listedFor, h.numbered.id_eq hc, hd]
            rfl
          rw [overrideOf_eq_of_get? hc, inherited, h.numbered.ancestors_eq hc]
          cases hdescribes with
          | described d hnone => simp [hnone] -- The chain is cut off here.
          | derived name base overrides b baseInfo table hbase hinfo htable hlisted =>
              have hbelow := ih b (h.numbered.base_lt hc hbase)
              rw [inherited] at hbelow
              rw [htable, hbase, List.takeWhile_cons_of_pos (by rw [htable]; rfl), List.findSome?_cons, hlist,
                Option.bind_some, hlisted method, hbelow]
              cases (Definition.derived name base overrides).listed method <;> rfl

/-- A class lists overrides only if host code derived it. -/
theorem listedFor_eq_none (h : Defines ds t) (hc : t.get? c.id = some c) (hnone : c.overrides = none)
    (method : String) : listedFor ds method c = none := by
  obtain ⟨d, hd, hdescribes⟩ := h.exists_describes hc
  rw [listedFor, hd]
  cases hdescribes with
  | described => rfl
  | derived _ _ _ _ _ _ _ _ htable => rw [hnone] at htable; cases htable

/-- What comes down the chain is listed by the nearest class that lists the method. -/
theorem nearest_of_inherited {method : String} {f : Callable} (hf : inherited ds t id method = some f) :
    nearest ds t id method = some f := by
  rw [nearest, ← List.takeWhile_append_dropWhile (p := fun c => c.overrides.isSome) (l := t.ancestors id),
    List.findSome?_append]
  rw [inherited] at hf
  rw [hf]
  rfl

/-- The override of the nearest class comes down the chain, unless a class that is described derives from one of host
code. -/
theorem inherited_eq_nearest (h : Defines ds t)
    (hchain : ∀ c ∈ (t.ancestors id).dropWhile fun c => c.overrides.isSome, c.overrides = none)
    (method : String) : inherited ds t id method = nearest ds t id method := by
  have hrest : ((t.ancestors id).dropWhile fun c => c.overrides.isSome).findSome? (listedFor ds method) = none := by
    rw [List.findSome?_eq_none_iff]
    intro c hc
    obtain ⟨n, hn⟩ := List.getElem?_of_mem
      (mem_classes_of_mem_ancestors ((List.dropWhile_sublist _).mem hc))
    refine h.listedFor_eq_none ?_ (hchain c hc) method
    rw [h.numbered.id_eq hn]
    exact hn
  rw [nearest, ← List.takeWhile_append_dropWhile (p := fun c => c.overrides.isSome) (l := t.ancestors id),
    List.findSome?_append, hrest, Option.or_none]
  rfl

end Defines

/-! ## Classes of host code -/

namespace ClassTable

variable {base : ClassId} {name : String}

/-- On the chain of a class, there are only classes that host code derived before another class.  The other class may be
the class itself. -/
def HostDerived (t : ClassTable) (id base : ClassId) : Prop :=
  ∃ hosts, t.ancestors id = hosts ++ t.ancestors base ∧ ∀ c ∈ hosts, c.overrides.isSome = true

theorem HostDerived.refl (t : ClassTable) (id : ClassId) : t.HostDerived id id :=
  ⟨[], rfl, fun _ hc => absurd hc List.not_mem_nil⟩

/-- Host code may derive one more class. -/
theorem HostDerived.tail (hnum : t.Numbered) {b : ClassId} (hc : t.get? id = some c) (hbase : c.base = some b)
    (hhost : c.overrides.isSome = true) (hb : t.HostDerived b base) : t.HostDerived id base := by
  obtain ⟨hosts, hchain, hhosts⟩ := hb
  refine ⟨c :: hosts, ?_, List.forall_mem_cons.mpr ⟨hhost, hhosts⟩⟩
  rw [hnum.ancestors_eq hc, hbase]
  exact congrArg (c :: ·) hchain

/-- The class that host code adds declares nothing. -/
theorem methods_of_defineSubclass {overrides : List (String × Callable)} {base : String}
    (h : t.defineSubclass name base overrides = .ok (id, t')) : ∃ c, t' = t.snoc c ∧ c.methods = [] := by
  obtain ⟨baseId, -, h⟩ := bind_eq_ok_iff.mp h
  obtain ⟨baseInfo, -, h⟩ := bind_eq_ok_iff.mp h
  obtain ⟨table, -, h⟩ := bind_eq_ok_iff.mp h
  obtain ⟨c, hbuild, h⟩ := bind_eq_ok_iff.mp h
  refine ⟨_, (register_cases h).2, ?_⟩
  obtain ⟨b, -, hbuild⟩ := bind_eq_ok_iff.mp hbuild
  obtain ⟨methods, hgroup, hbuild⟩ := bind_eq_ok_iff.mp hbuild
  obtain rfl := Except.ok.inj hbuild
  exact (Except.ok.inj hgroup).symm

end ClassTable

namespace Defines

variable {base b : ClassId}

/-- A definition adds a class, which declares methods only if it has no overrides. -/
theorem exists_snoc_of_apply {d : Definition} (hstep : d.apply t = .ok (id, t')) :
    ∃ c, t' = t.snoc c ∧ (c.overrides.isSome = true → c.methods = []) := by
  cases d with
  | described d =>
      obtain ⟨c, hsnoc, -, -, hnone⟩ := define_cases hstep
      refine ⟨c, hsnoc, fun hsome => ?_⟩
      rw [hnone] at hsome
      cases hsome
  | derived name base overrides =>
      obtain ⟨c, hsnoc, hmethods⟩ := methods_of_defineSubclass hstep
      exact ⟨c, hsnoc, fun _ => hmethods⟩

/-- A class of host code declares no methods. -/
theorem methods_eq_nil (h : Defines ds t) (hc : c ∈ t.classes) (hhost : c.overrides.isSome = true) :
    c.methods = [] := by
  -- By induction on the definitions, of which the last one adds one class.
  induction h with
  | nil => cases hc
  | snoc d hbefore hstep ih =>
      obtain ⟨new, rfl, hnew⟩ := exists_snoc_of_apply hstep
      rcases List.mem_append.mp hc with hold | hlast
      · exact ih hold
      · obtain rfl := List.mem_singleton.mp hlast
        exact hnew hhost

/-- The methods of a class that host code derived are those of the class that it comes from. -/
theorem findMethod_eq (h : Defines ds t) (hid : t.HostDerived id base) (name : String) :
    t.findMethod id name = t.findMethod base name := by
  obtain ⟨hosts, hchain, hhosts⟩ := hid
  have hnothing : hosts.filter (fun c => (c.method? name).isSome) = [] := by
    rw [List.filter_eq_nil_iff]
    intro c hc
    have hmem : c ∈ t.ancestors id := by simp [hchain, hc]
    rw [ClassInfo.method?, h.methods_eq_nil (mem_classes_of_mem_ancestors hmem) (hhosts c hc)]
    exact Bool.false_ne_true
  rw [findMethod, findMethod, hchain, List.filter_append, hnothing, List.nil_append]

/-- Host code derives classes from the same described classes. -/
theorem isSubclassOf_eq (h : Defines ds t) (hid : t.HostDerived id base) (hc : t.get? b = some c)
    (hnone : c.overrides = none) : t.isSubclassOf id b = t.isSubclassOf base b := by
  obtain ⟨hosts, hchain, hhosts⟩ := hid
  have hother : hosts.any (fun c => c.id == b) = false := by
    rw [List.any_eq_false]
    intro d hd heq
    -- A described class would stand under the number of a class of host code.
    have hmem : d ∈ t.ancestors id := by simp [hchain, hd]
    obtain ⟨n, hn⟩ := List.getElem?_of_mem (mem_classes_of_mem_ancestors hmem)
    have hsame : d.id = n := h.numbered.id_eq hn
    rw [← hsame, eq_of_beq heq] at hn
    obtain rfl := Option.some.inj (hc.symm.trans hn)
    have hsome := hhosts c hd
    rw [hnone] at hsome
    cases hsome
  rw [isSubclassOf, isSubclassOf, hchain, List.any_append, hother, Bool.false_or]

end Defines

end ObjectBridge
