import ObjectBridge.Proofs.Class.Order
import ObjectBridge.Proofs.Session.Inherited

/-!
# Classes and the counts of their objects

Whatever happens in a session, its classes are those of the attempts to add one that succeeded, in order.  The objects that
are counted for a class and the classes that derive from it are the objects with a native state on whose chains the
class is.

* `Balanced.foldl_instanceCount` — the counts of several classes, added up.
* `Lifetime.familyCount_eq_tally` — the count of a class with those that derive from it.
* `Session.classes_ordered` — the classes and the counts at every moment of a session.
-/

namespace ObjectBridge

namespace Arena

variable {a : Arena} {p q : Instance → Bool}

theorem tally_congr (h : ∀ i, p i = q i) : a.tally p = a.tally q := by
  rw [show p = q from funext h]

/-- Two tests that agree on the objects of an arena. -/
theorem tally_congr_of_mem (h : ∀ s ∈ a.slots, ∀ i ∈ s.occupant, p i = q i) : a.tally p = a.tally q := by
  refine List.countP_congr fun s hs => ?_
  cases hocc : s.occupant with
  | none => rfl
  | some i => rw [Option.any_some, Option.any_some, h s (Array.mem_toList_iff.mp hs) i hocc]

/-- Objects that satisfy one test or another one, and never both. -/
theorem tally_or (hdisjoint : ∀ i, p i = true → q i = false) :
    a.tally (fun i => p i || q i) = a.tally p + a.tally q := by
  rw [tally, tally, tally]
  induction a.slots.toList with
  | nil => rfl
  | cons s rest ih =>
      simp only [List.countP_cons, ih]
      cases hocc : s.occupant with
      | none => simp
      | some i =>
          have hboth := hdisjoint i
          cases hp : p i <;> cases hq : q i <;> simp_all <;> omega

/-- The counts of different classes add up to the number of objects with a native state of any of them. -/
theorem Balanced.foldl_instanceCount (hbal : a.Balanced) {ids : List ClassId} (hnodup : ids.Nodup) (total : Nat) :
    ids.foldl (fun total id => total + a.instanceCount id) total =
      total + a.tally fun i => ids.contains i.cls && i.isMaterialized := by
  induction ids generalizing total with
  | nil => simp [tally]
  | cons id rest ih =>
      obtain ⟨hnotin, hnodup⟩ := List.nodup_cons.mp hnodup
      have hsplit : (a.tally fun i => (id :: rest).contains i.cls && i.isMaterialized) =
          a.tally (counted id) + a.tally fun i => rest.contains i.cls && i.isMaterialized := by
        rw [← tally_or]
        · refine tally_congr fun i => ?_
          rw [counted, List.contains_cons, Bool.and_or_distrib_right]
        · intro i hi
          obtain rfl := eq_of_beq (Bool.and_eq_true_iff.mp hi).1
          have hother : rest.contains i.cls = false := by
            rw [← Bool.not_eq_true, List.contains_iff_mem]
            exact hnotin
          rw [hother, Bool.false_and]
      rw [List.foldl_cons, ih hnodup, hsplit, hbal.instanceCount_eq]
      omega

end Arena

namespace ClassTable

variable {t : ClassTable} {id cls : ClassId}

/-- The numbers of the classes are their positions. -/
theorem Numbered.map_id_eq (hnum : t.Numbered) : t.classes.map ClassInfo.id = List.range t.nextId := by
  refine List.ext_getElem? fun id => ?_
  rw [List.getElem?_map]
  rcases Nat.lt_or_ge id t.nextId with hlt | hge
  · obtain ⟨c, hc⟩ := exists_get?_of_lt hlt
    rw [List.getElem?_range hlt]
    exact (congrArg (Option.map ClassInfo.id) hc).trans (congrArg some (hnum.id_eq hc))
  · have hnone : (List.range t.nextId)[id]? = none := List.getElem?_eq_none (by rwa [List.length_range])
    rw [hnone]
    exact congrArg (Option.map ClassInfo.id) (get?_eq_none_of_le hge)

theorem Numbered.nodup_descendants (hnum : t.Numbered) (cls : ClassId) : (t.descendants cls).Nodup := by
  have hids : (t.classes.map ClassInfo.id).Nodup := hnum.map_id_eq ▸ List.nodup_range
  exact hids.sublist (List.filter_sublist.map _)

/-- The classes that derive from a class are those on whose chains it is. -/
theorem Numbered.contains_descendants (hnum : t.Numbered) (id cls : ClassId) :
    (t.descendants cls).contains id = t.isSubclassOf id cls := by
  rw [Bool.eq_iff_iff, List.contains_iff_mem, descendants, List.mem_map]
  constructor
  · rintro ⟨c, hc, rfl⟩
    exact (List.mem_filter.mp hc).2
  · intro hderives
    obtain ⟨c, hc⟩ := exists_get?_of_lt (hnum.isSubclassOf_iff.mp hderives).1
    have hid := hnum.id_eq hc
    refine ⟨c, List.mem_filter.mpr ⟨List.mem_of_getElem? hc, ?_⟩, hid⟩
    rwa [hid]

end ClassTable

/-- What is counted for a class and those that derive from it: the objects with a native state on whose chains the class
is. -/
theorem Lifetime.familyCount_eq_tally {s : State} (hnum : s.classes.Numbered) (hbal : s.arena.Balanced) (cls : ClassId) :
    familyCount s cls = s.arena.tally fun i => s.classes.isSubclassOf i.cls cls && i.isMaterialized := by
  rw [familyCount, hbal.foldl_instanceCount (hnum.nodup_descendants cls), Nat.zero_add]
  refine Arena.tally_congr fun i => ?_
  rw [hnum.contains_descendants]

/-! ## Attempts in a run -/

namespace Script.Interpreter

open Run

variable {I : Interpreter} {s u : State} {fault : Fault}

/-- A class is registered as described, or nothing is changed. -/
theorem outcome_setClasses {r : Except Error (ClassId × ClassTable)} {f : ClassId → Value}
    (hrun : (Run.ofExcept r >>= fun x => modify (fun s => { s with classes := x.2 }) >>= fun _ =>
      pure (f x.1) : Run Value).outcome s = (.error fault, u)) : u = s := by
  rw [outcome_bind, outcome_ofExcept] at hrun
  cases r with
  | ok x => cases (Prod.mk.inj hrun).1
  | error e => exact (Prod.mk.inj hrun).2.symm

/-- An attempt to derive a class with overrides that fails leaves everything as it is. -/
theorem eq_of_outcome_defineSubclass {name base : String} {overrides : List (String × String)}
    (hrun : (defineSubclass name base overrides).outcome s = (.error fault, u)) : u = s := by
  rw [defineSubclass, outcome_bind] at hrun
  obtain ⟨r, hr⟩ := reads_resolveCallables overrides s
  rw [hr] at hrun
  cases r with
  | error e => exact (Prod.mk.inj hrun).2.symm
  | ok callables => exact outcome_setClasses hrun

/-- An attempt to register a class that fails leaves everything as it is once the parts of the class are evaluated. -/
theorem eq_of_outcome_defineClass {spec : ClassSpec Expr Stmt}
    (hrun : (I.defineClass spec).outcome s = (.error fault, u)) :
    u = ((spec.resolve I.evalOutside).outcome s).2 := by
  rw [defineClass, outcome_bind] at hrun
  rcases hresolve : (spec.resolve I.evalOutside).outcome s with ⟨e | draft, t⟩
  · rw [hresolve] at hrun
    exact (Prod.mk.inj hrun).2.symm
  · rw [hresolve] at hrun
    exact outcome_setClasses hrun

end Script.Interpreter

/-! ## Sessions -/

namespace State

variable {s t : State} {hand : List Value}

/-- The classes come from attempts and are in order, and of each class and those that derive from it the objects with a
native state are counted. -/
structure Tallied (s : State) : Prop where
  attempted : ∃ ds, s.classes = attempts ds
  ordered : s.classes.Ordered
  instanceCount : ∀ cls, s.arena.instanceCount cls = s.arena.tally fun i => i.cls == cls && i.isMaterialized
  familyCount : ∀ cls, Lifetime.familyCount s cls =
    s.arena.tally fun i => s.classes.isSubclassOf i.cls cls && i.isMaterialized

theorem tallied_of_defines {ds : List Definition} (hds : Defines ds s.classes) (hbal : s.arena.Balanced) :
    s.Tallied where
  attempted := ⟨ds, hds.attempts_eq.symm⟩
  ordered := hds.ordered
  instanceCount := hbal.instanceCount_eq
  familyCount := Lifetime.familyCount_eq_tally hds.numbered hbal

end State

namespace Session

/-- Whatever is attempted, and whatever happens meanwhile, the classes of a session are in order, and its counts are the
numbers of objects with a native state.  An attempt to add a class that fails changes nothing, and one that succeeds adds
one class under the next number. -/
theorem classes_ordered (budget : Nat) :
    (∀ ds, (attempts ds).Ordered) ∧
    (∀ (t : ClassTable) (d : Definition), (∃ e, d.apply t = .error e ∧ d.attempt t = t) ∨
      ∃ c, d.apply t = .ok (t.nextId, t.snoc c) ∧ d.attempt t = t.snoc c ∧ c.id = t.nextId) ∧
    (∀ spec s fault u, ((Script.interpreter budget).defineClass spec).outcome s = (.error fault, u) →
      u = ((spec.resolve (Script.interpreter budget).evalOutside).outcome s).2) ∧
    (∀ name base overrides s fault u,
      (Script.Interpreter.defineSubclass name base overrides).outcome s = (.error fault, u) → u = s) ∧
    (∀ s, Reachable s → s.Tallied) ∧
    (∀ s t hand, Reachable s → s.Path t → t.Arises hand → t.Tallied) := by
  refine ⟨ordered_attempts, Definition.attempt_cases, ?_, ?_, ?_, ?_⟩
  · exact fun spec s fault u hrun => Script.Interpreter.eq_of_outcome_defineClass hrun
  · exact fun name base overrides s fault u hrun => Script.Interpreter.eq_of_outcome_defineSubclass hrun
  · intro s hs
    obtain ⟨ds, hds⟩ := hs.exists_defines
    exact State.tallied_of_defines hds hs.balanced
  · intro s t hand hs hpath ht
    obtain ⟨ds, hds⟩ := hs.exists_defines
    obtain ⟨later, hlater⟩ := hpath.exists_defines hds
    exact State.tallied_of_defines hlater ht.balanced

/-- The objects of a class that host code derives are counted for the class that it derives from. -/
theorem derived_counted :
    Lifetime.familyCount overridingRun.2 0 =
        (overridingRun.2.arena.tally fun i => overridingRun.2.classes.isSubclassOf i.cls 0 && i.isMaterialized) ∧
      Lifetime.familyCount overridingRun.2 0 = 2 ∧ overridingRun.2.arena.instanceCount 0 = 0 :=
  ⟨((classes_ordered 6).2.2.2.2.1 _ (.between between_overridingRun)).familyCount 0, by decide +kernel,
    by decide +kernel⟩

end Session

end ObjectBridge
