import ObjectBridge.Proofs.Class.Inheritance
import ObjectBridge.Proofs.Class.Outline

/-!
# A deferred constructor and a constructor

A class with a deferred constructor, and the same class with a constructor that runs the same code at once.  The tables
with one and with the other differ in what the class and the classes that derive from it are constructed by, and in
nothing else.

* `ClassInfo.eager` — the class that constructs at once.
* `Deferral` — the two tables, while the classes that derive from the class have no constructors of their own.
* `deferral_snoc` — the tables in which the class is the latest one.
* `Deferral.snoc` — more classes are added to both.
* `Alternatives` — a class that is added with either constructor.
-/

namespace ObjectBridge

/-- The constructor without parameters that runs the code of a deferred one. -/
def LazyConstructor.overload (l : LazyConstructor) : Overload :=
  ⟨{}, .constructor l.code l.shape⟩

/-- The draft with a constructor instead of the deferred one. -/
def ClassDraft.eager (d : ClassDraft) : ClassDraft :=
  match d.lazyConstructor with
  | none => d
  | some l => { d with lazyConstructor := none }.addConstructor {} l.code l.shape

/-- The class with a constructor instead of the deferred one. -/
def ClassInfo.eager (c : ClassInfo) : ClassInfo :=
  match c.lazyConstructor with
  | none => c
  | some l => { c with lazyConstructor := none, constructors := c.constructors ++ [l.overload] }

namespace ClassTable

variable {t t' : ClassTable} {id : ClassId} {c : ClassInfo}

/-- The class that is described by the draft with a constructor. -/
theorem build_eager (t : ClassTable) (d : ClassDraft) : t.build d.eager = (t.build d).map ClassInfo.eager := by
  unfold ClassDraft.eager
  cases hlazy : d.lazyConstructor with
  | none =>
      dsimp only
      cases hbuild : t.build d with
      | error e => rfl
      | ok c =>
          have hnone := (constructors_of_build hbuild).2
          rw [hlazy] at hnone
          rw [Except.map, ClassInfo.eager, hnone]
  | some l =>
      simp only [build, ClassDraft.addConstructor]
      cases t.baseOf d.base with
      | error e => rfl
      | ok base =>
          cases groupMethods d.name [] d.methods with
          | error e => rfl
          | ok methods =>
              simp only [bind, Except.bind, pure, Except.pure, Except.map, ClassInfo.eager, hlazy]
              rfl

/-! ## Chains in a later table -/

/-- The chain of a class does not change when classes are added. -/
theorem Extends.ancestors_eq (h : t.Extends t') (hnum : t.Numbered) (hnum' : t'.Numbered) (hid : id < t.nextId) :
    t'.ancestors id = t.ancestors id := by
  induction id using Nat.strongRecOn with
  | ind id ih =>
      obtain ⟨d, hd⟩ : ∃ d, t.get? id = some d := ⟨_, List.getElem?_eq_getElem hid⟩
      rw [hnum'.ancestors_eq (h.get? hd), hnum.ancestors_eq hd]
      cases hb : d.base with
      | none => rfl
      | some b =>
          have hlt := hnum.base_lt hd hb
          exact congrArg (d :: ·) (ih b hlt (Nat.lt_trans hlt hid))

/-- Whether a class derives from another one does not change when classes are added. -/
theorem Extends.isSubclassOf_eq (h : t.Extends t') (hnum : t.Numbered) (hnum' : t'.Numbered) (hid : id < t.nextId)
    (ancestor : ClassId) : t'.isSubclassOf id ancestor = t.isSubclassOf id ancestor := by
  rw [isSubclassOf, isSubclassOf, h.ancestors_eq hnum hnum' hid]

/-- The chain of the class that is added. -/
theorem ancestors_snoc_self (hnum : t.Numbered) (hid : c.id = t.nextId)
    (hbase : ∀ b, c.base = some b → b < t.nextId) :
    (t.snoc c).ancestors t.nextId = c :: (c.base.map t.ancestors).getD [] := by
  have hsnoc := hnum.snoc hid hbase
  rw [hsnoc.ancestors_eq (by rw [get?_snoc, if_pos rfl])]
  cases hb : c.base with
  | none => rfl
  | some b => exact congrArg (c :: ·) ((t.extends_snoc c).ancestors_eq hnum hsnoc (hbase b hb))

/-- There is no chain without a class. -/
theorem ancestors_of_le (h : t.nextId ≤ id) : t.ancestors id = [] := by
  have hnone : t.get? id = none := List.getElem?_eq_none_iff.mpr h
  rw [ancestors, hnone]
  cases t.classes.length <;> rfl

/-- A class that is not in the table derives from none of it. -/
theorem isSubclassOf_of_le (h : t.nextId ≤ id) (ancestor : ClassId) : t.isSubclassOf id ancestor = false := by
  rw [isSubclassOf, ancestors_of_le h]
  rfl

/-- No class derives from a class that is not in the table. -/
theorem Numbered.isSubclassOf_of_le (hnum : t.Numbered) {ancestor : ClassId} (h : t.nextId ≤ ancestor) :
    t.isSubclassOf id ancestor = false := by
  rw [isSubclassOf, List.any_eq_false]
  intro d hd hsame
  obtain ⟨n, hn⟩ := List.getElem?_of_mem (mem_classes_of_mem_ancestors hd)
  rw [beq_iff_eq, hnum.id_eq hn] at hsame
  exact absurd (lt_nextId_of_get? hn) (Nat.not_lt_of_le (hsame ▸ h))

/-- Tables that differ in the constructors have the same numbers. -/
theorem Alike.numbered (h : t.Alike t') (hnum : t.Numbered) : t'.Numbered := by
  have hback {n : ClassId} {d : ClassInfo} (hd : t'.get? n = some d) :
      ∃ c, t.get? n = some c ∧ c.id = d.id ∧ c.base = d.base := by
    have hget := h.symm.get?_eq n
    rw [hd] at hget
    obtain ⟨c, hc, houtline⟩ := Option.map_eq_some_iff.mp hget
    exact ⟨c, hc, (congrArg (fun o : ClassInfo => o.id) houtline :), (congrArg (fun o : ClassInfo => o.base) houtline :)⟩
  constructor
  · intro n d hd
    obtain ⟨c, hc, hid, -⟩ := hback hd
    rw [← hid, hnum.id_eq hc]
  · intro n d b hd hb
    obtain ⟨c, hc, -, hbase⟩ := hback hd
    exact hnum.base_lt hc (hbase.trans hb)

theorem Alike.nextId_eq (h : t.Alike t') : t'.nextId = t.nextId :=
  h.eq_of_outline nextId fun t => length_outline t

/-! ## Two tables -/

/-- A class that derives from a certain class is constructed by the deferred constructor in the first table, and by the
constructor in the second one.  Any other class is constructed in the same way in both. -/
structure Defers (id : ClassId) (l : LazyConstructor) (t t' : ClassTable) (cls : ClassId) : Prop where
  deferred : t.isSubclassOf cls id = true → t.findLazy cls = some l
  eager : t.isSubclassOf cls id = true →
    t'.findLazy cls = none ∧ ∃ owner, t'.findConstructors cls = some ⟨owner, [l.overload]⟩
  other : t.isSubclassOf cls id = false →
    t'.findLazy cls = t.findLazy cls ∧ t'.findConstructors cls = t.findConstructors cls

/-- A table with a deferred constructor of a class, and the table with a constructor instead.  Both have the same classes
apart from constructors. -/
structure Deferral (id : ClassId) (l : LazyConstructor) (t t' : ClassTable) : Prop where
  alike : t.Alike t'
  numbered : t.Numbered
  lt : id < t.nextId
  defers : ∀ cls, Defers id l t t' cls

variable {l : LazyConstructor} {cls : ClassId}

/-- The way to construct a class depends on its chain. -/
theorem find_eq_of_ancestors {u : ClassTable} {other : ClassId} (h : t.ancestors cls = u.ancestors other) :
    t.findLazy cls = u.findLazy other ∧ t.findConstructors cls = u.findConstructors other ∧
      ∀ ancestor, t.isSubclassOf cls ancestor = u.isSubclassOf other ancestor := by
  refine ⟨?_, ?_, fun ancestor => ?_⟩
  · rw [findLazy, findLazy, h]
  · rw [findConstructors, findConstructors, h]
  · rw [isSubclassOf, isSubclassOf, h]

/-- The way to construct a class is its own one, and otherwise the one of its base. -/
theorem find_of_ancestors_cons {u : ClassTable} {base : ClassId} (h : t.ancestors cls = c :: u.ancestors base) :
    t.findLazy cls = c.lazyConstructor.or (u.findLazy base) ∧
      t.findConstructors cls =
        if c.constructors.isEmpty then u.findConstructors base else some ⟨c.name, c.constructors⟩ := by
  constructor
  · rw [findLazy, findLazy, h, List.findSome?_cons]
    cases c.lazyConstructor <;> rfl
  · rw [findConstructors, findConstructors, h, List.find?_cons]
    cases c.constructors.isEmpty <;> rfl

/-- A class with the same chains in two other tables. -/
theorem Defers.of_ancestors {u u' : ClassTable} {other : ClassId} (h : Defers id l t t' cls)
    (hchain : u.ancestors other = t.ancestors cls) (hchain' : u'.ancestors other = t'.ancestors cls) :
    Defers id l u u' other := by
  obtain ⟨hlazy, hfind, hsub⟩ := find_eq_of_ancestors hchain
  obtain ⟨hlazy', hfind', -⟩ := find_eq_of_ancestors hchain'
  constructor
  · rw [hsub, hlazy]
    exact h.deferred
  · rw [hsub, hlazy', hfind']
    exact h.eager
  · rw [hsub, hlazy, hlazy', hfind, hfind']
    exact h.other

/-- The same table twice, as long as the class is not in it. -/
theorem defers_of_le (hnum : t.Numbered) (h : t.nextId ≤ id) (cls : ClassId) : Defers id l t t cls := by
  have hsub : t.isSubclassOf cls id = false := hnum.isSubclassOf_of_le h
  constructor
  · rw [hsub]
    exact Bool.noConfusion
  · rw [hsub]
    exact Bool.noConfusion
  · exact fun _ => ⟨rfl, rfl⟩

/-- A class is added to both tables.  A class of the new tables is an old one, the new one, or none at all. -/
theorem deferral_of_snoc {d : ClassInfo} (halike : t.Alike t') (hnum : t.Numbered) (hid : id ≤ t.nextId)
    (hcid : c.id = t.nextId) (hbase : ∀ b, c.base = some b → b < t.nextId) (hnext : (t.snoc c).Alike (t'.snoc d))
    (hold : ∀ cls, Defers id l t t' cls) (hnew : Defers id l (t.snoc c) (t'.snoc d) t.nextId) :
    Deferral id l (t.snoc c) (t'.snoc d) := by
  have hnum' := halike.numbered hnum
  have hsnoc := hnum.snoc hcid hbase
  have hsnoc' := hnext.numbered hsnoc
  have hsize := halike.nextId_eq
  refine ⟨hnext, hsnoc, by rw [nextId_snoc]; exact Nat.lt_succ_of_le hid, fun cls => ?_⟩
  rcases Nat.lt_trichotomy cls t.nextId with hlt | rfl | hgt
  · refine (hold cls).of_ancestors ((t.extends_snoc c).ancestors_eq hnum hsnoc hlt) ?_
    exact (t'.extends_snoc d).ancestors_eq hnum' hsnoc' (hsize.symm ▸ hlt)
  · exact hnew
  · refine (hold cls).of_ancestors ?_ ?_
    · rw [ancestors_of_le (by rw [nextId_snoc]; exact hgt), ancestors_of_le (Nat.le_of_lt hgt)]
    · rw [ancestors_of_le (by rw [nextId_snoc, hsize]; exact hgt),
        ancestors_of_le (hsize.symm ▸ Nat.le_of_lt hgt)]

/-- A class is added that has no constructors of its own if it derives from the class. -/
theorem Deferral.snoc (h : Deferral id l t t') (hid : c.id = t.nextId) (hbase : ∀ b, c.base = some b → b < t.nextId)
    (hnone : ∀ b, c.base = some b → t.isSubclassOf b id = true → c.constructors = [] ∧ c.lazyConstructor = none) :
    Deferral id l (t.snoc c) (t'.snoc c) := by
  have hnext := h.alike.nextId_eq
  refine deferral_of_snoc h.alike h.numbered (Nat.le_of_lt h.lt) hid hbase (h.alike.snoc rfl rfl) h.defers ?_
  have hself : (c.id == id) = false := by
    rw [hid]
    exact beq_eq_false_iff_ne.mpr (Nat.ne_of_gt h.lt)
  have hchain := ancestors_snoc_self h.numbered hid hbase
  have hchain' := ancestors_snoc_self (h.alike.numbered h.numbered) (hid.trans hnext.symm)
    fun b hb => hnext.symm ▸ hbase b hb
  rw [hnext] at hchain'
  -- Without a base the new class is in no family but its own; with one it is in its base's.
  cases hb : c.base with
  | none =>
      rw [hb] at hchain hchain'
      obtain ⟨hlazy, hfind, -⟩ := find_eq_of_ancestors (hchain'.trans hchain.symm)
      have hsub : (t.snoc c).isSubclassOf t.nextId id = false := by
        rw [isSubclassOf, hchain]
        simp [hself]
      refine ⟨?_, ?_, fun _ => ⟨hlazy, hfind⟩⟩
      · rw [hsub]
        exact Bool.noConfusion
      · rw [hsub]
        exact Bool.noConfusion
  | some b =>
      rw [hb] at hchain hchain'
      obtain ⟨hlazy, hfind⟩ := find_of_ancestors_cons hchain
      obtain ⟨hlazy', hfind'⟩ := find_of_ancestors_cons hchain'
      have hsub : (t.snoc c).isSubclassOf t.nextId id = t.isSubclassOf b id := by
        rw [isSubclassOf, hchain, List.any_cons, hself, Bool.false_or]
        rfl
      constructor
      · intro hfamily
        rw [hsub] at hfamily
        rw [hlazy, (hnone b hb hfamily).2]
        exact (h.defers b).deferred hfamily
      · intro hfamily
        rw [hsub] at hfamily
        rw [hlazy', hfind', (hnone b hb hfamily).1, (hnone b hb hfamily).2]
        exact (h.defers b).eager hfamily
      · intro hother
        rw [hsub] at hother
        rw [hlazy, hlazy', hfind, hfind', ((h.defers b).other hother).1, ((h.defers b).other hother).2]
        exact ⟨rfl, rfl⟩

/-- The latest class has a deferred constructor, and none of its bases has one. -/
theorem deferral_snoc (hnum : t.Numbered) (hid : c.id = t.nextId) (hbase : ∀ b, c.base = some b → b < t.nextId)
    (hlazy : c.lazyConstructor = some l) (hnone : c.constructors = [])
    (hbases : ∀ b, c.base = some b → t.findLazy b = none) : Deferral c.id l (t.snoc c) (t.snoc c.eager) := by
  have heager : c.eager = { c with lazyConstructor := none, constructors := [l.overload] } := by
    rw [ClassInfo.eager, hlazy, hnone]
    rfl
  have hsame : c.eager.base = c.base := by rw [heager]
  have halike : (t.snoc c).Alike (t.snoc c.eager) := by
    refine (Alike.refl t).snoc ?_ ?_
    · rw [heager]
      rfl
    · rw [heager, ClassInfo.heldValues, ClassInfo.heldValues, hnone]
      rfl
  refine deferral_of_snoc (.refl t) hnum (Nat.le_of_eq hid) hid hbase halike (defers_of_le hnum (Nat.le_of_eq hid.symm)) ?_
  -- The search of either table starts at the new class, and what is behind it is the same.
  have hchain := ancestors_snoc_self hnum hid hbase
  have hchain' := ancestors_snoc_self (c := c.eager) hnum (by rw [heager]; exact hid) (hsame ▸ hbase)
  have hsub : (t.snoc c).isSubclassOf t.nextId c.id = true := by
    rw [isSubclassOf, hchain, List.any_cons, beq_self_eq_true, Bool.true_or]
  refine ⟨fun _ => ?_, fun _ => ⟨?_, c.name, ?_⟩, fun hother => ?_⟩
  · rw [findLazy, hchain, List.findSome?_cons, hlazy]
  · rw [findLazy, hchain', List.findSome?_cons, hsame, heager]
    cases hb : c.base with
    | none => rfl
    | some b => exact hbases b hb
  · rw [findConstructors, hchain', List.find?_cons, heager]
    rfl
  · rw [hsub] at hother
    cases hother

/-- A class that is added to a table, with its deferred constructor or with a constructor that runs the same code at once.
It has no other constructors, and none of its bases has a deferred one. -/
structure Alternatives (base : ClassTable) (d : ClassDraft) (l : LazyConstructor) (id : ClassId) (t t' : ClassTable) :
    Prop where
  lazy_eq : d.lazyConstructor = some l
  constructors_eq : d.constructors = []
  bases : ∀ b, base.baseOf d.base = .ok (some b) → base.findLazy b = none
  deferred : base.define d = .ok (id, t)
  eager : base.define d.eager = .ok (id, t')

variable {base : ClassTable} {d : ClassDraft}

/-- The class that is added. -/
theorem Alternatives.exists_class (h : base.Alternatives d l id t t') :
    ∃ c, base.build d = .ok c ∧ c.id = id ∧ t = base.snoc c ∧ t' = base.snoc c.eager := by
  obtain ⟨c, hbuild, hregister⟩ := bind_eq_ok_iff.mp h.deferred
  obtain ⟨hid, hnext⟩ := register_cases hregister
  obtain ⟨c', hbuild', hregister'⟩ := bind_eq_ok_iff.mp h.eager
  rw [build_eager, hbuild] at hbuild'
  obtain rfl := Except.ok.inj hbuild'
  exact ⟨c, hbuild, hid.symm, hnext, (register_cases hregister').2⟩

/-- If the class can be added with its deferred constructor, it can be added with the other one. -/
theorem alternatives_of_define (hlazy : d.lazyConstructor = some l) (hnone : d.constructors = [])
    (hbases : ∀ b, base.baseOf d.base = .ok (some b) → base.findLazy b = none) (hdefine : base.define d = .ok (id, t)) :
    ∃ t', base.Alternatives d l id t t' := by
  obtain ⟨c, hbuild, hregister⟩ := bind_eq_ok_iff.mp hdefine
  have hbuild' : base.build d.eager = .ok c.eager := by
    rw [build_eager, hbuild]
    rfl
  have hsame : c.eager.name = c.name ∧ c.eager.id = c.id := by
    unfold ClassInfo.eager
    split <;> exact ⟨rfl, rfl⟩
  refine ⟨base.snoc c.eager, hlazy, hnone, hbases, hdefine, bind_eq_ok_iff.mpr ⟨c.eager, hbuild', ?_⟩⟩
  obtain ⟨hid, -⟩ := register_cases hregister
  rw [register_eq, hsame.1, hsame.2, lookup?_of_register hregister, hid]
  rfl

theorem Alternatives.deferral (h : base.Alternatives d l id t t') (hnum : base.Numbered) : Deferral id l t t' := by
  obtain ⟨c, hbuild, rfl, rfl, rfl⟩ := h.exists_class
  obtain ⟨hid, hbase, -⟩ := build_cases hbuild
  obtain ⟨hconstructors, hlazy⟩ := constructors_of_build hbuild
  exact deferral_snoc hnum hid (fun b hb => hnum.lt_of_baseOf (hb ▸ hbase)) (hlazy.trans h.lazy_eq)
    (hconstructors.trans h.constructors_eq) fun b hb => h.bases b (hb ▸ hbase)

end ClassTable

end ObjectBridge
