import ObjectBridge.Proofs.Call.Deferral
import ObjectBridge.Proofs.Session.Detached

/-!
# The nearest constructor

An object that is constructed without arguments is made by the nearest class on its chain that declares a constructor,
at once or, if the class declares a deferred one, when the object is used first.  The classes above are not asked.

A class without a deferred constructor is passed over if there is one above it (`Session.upper_deferral_wins`).

* `ClassTable.nearest?` — the nearest class that declares a constructor of either sort.
* `Construction.constructBy` — the construction by one class.
* `Session.nearest_constructor` — the nearest class makes the object.
-/

namespace ObjectBridge

open Run

/-- A class declares constructors or a deferred one. -/
def ClassInfo.declaresConstruction (c : ClassInfo) : Bool :=
  c.lazyConstructor.isSome || !c.constructors.isEmpty

namespace ClassTable

variable {t : ClassTable} {id : ClassId} {d : ClassInfo}

/-- The nearest class on a chain that declares constructors or a deferred one. -/
def nearest? (t : ClassTable) (id : ClassId) : Option ClassInfo :=
  (t.ancestors id).find? ClassInfo.declaresConstruction

/-- A deferred constructor of the nearest class is the nearest deferred constructor. -/
theorem findLazy_of_nearest? {l : LazyConstructor} (hd : t.nearest? id = some d) (hl : d.lazyConstructor = some l) :
    t.findLazy id = some l := by
  rw [nearest?] at hd
  rw [findLazy]
  generalize t.ancestors id = chain at hd ⊢
  induction chain with
  | nil => cases hd
  | cons c rest ih =>
      rw [List.find?_cons] at hd
      rw [List.findSome?_cons]
      -- A class that declares no construction has no deferred constructor either, so both searches pass it.
      split at hd
      · rw [Option.some.inj hd, hl]
      · rename_i hnone
        rw [ClassInfo.declaresConstruction, Bool.or_eq_false_iff] at hnone
        rw [Option.isSome_eq_false_iff, Option.isNone_iff_eq_none] at hnone
        rw [hnone.1]
        exact ih hd

/-- Constructors of the nearest class are the nearest constructors, if it has no deferred one. -/
theorem findConstructors_of_nearest? (hd : t.nearest? id = some d) (hnone : d.lazyConstructor = none) :
    t.findConstructors id = some ⟨d.name, d.constructors⟩ := by
  rw [nearest?] at hd
  rw [findConstructors]
  generalize t.ancestors id = chain at hd ⊢
  induction chain with
  | nil => cases hd
  | cons c rest ih =>
      rw [List.find?_cons] at hd ⊢
      split at hd
      · rename_i hdeclares
        obtain rfl := Option.some.inj hd
        rw [ClassInfo.declaresConstruction, hnone, Option.isSome_none, Bool.false_or] at hdeclares
        rw [hdeclares]
        rfl
      · rename_i hother
        rw [ClassInfo.declaresConstruction, Bool.or_eq_false_iff] at hother
        rw [hother.2]
        exact ih hd

end ClassTable

namespace Construction

variable {exec : Exec} {s t : State} {cls : ClassId} {c d : ClassInfo} {h : Handle} {args : CallArgs}

/-- Construct an object of a class without arguments as another class declares it: a deferred constructor is left for
later, and otherwise the constructor that fits runs at once. -/
def constructBy (exec : Exec) (c d : ClassInfo) : Run (Handle × CallArgs) :=
  match d.lazyConstructor with
  | some _ => registerNew c none
  | none => do
      let s ← get
      let (overload, binding) ← Run.ofExcept (Selection.pick s.toWorld d.name "new" d.constructors {})
      let (state, updated) ← Run.holding (captured s c.id) (runConstructor exec d.name overload binding.values)
      let args ← Delivery.settle overload.sig.params binding.sources updated {}
      Run.holding (.map state.fields :: args.values ++ updated ++ captured s c.id) Lifetime.countConstruction
      let h ← Lifetime.registerAs c (some state) .managed (s.classes.overrides c.id)
      return (h, args)

/-- The nearest class constructs, if it has a deferred constructor or no class has one. -/
theorem outcome_construct_nearest (exec : Exec) (hc : s.classes.descriptor cls = .ok c) (hid : c.id = cls)
    (hd : s.classes.nearest? cls = some d)
    (hfree : d.lazyConstructor = none → s.classes.findLazy cls = none) :
    (construct exec cls {}).outcome s = (constructBy exec c d).outcome s := by
  rw [constructBy]
  cases hl : d.lazyConstructor with
  | some l => exact outcome_construct_deferred hc hid (ClassTable.findLazy_of_nearest? hd hl)
  | none =>
      subst hid
      rw [construct, outcome_get_bind]
      dsimp only
      rw [hc, hfree hl]
      simp only [Run.ofExcept, pure_bind, Option.isSome_none, Bool.and_false, Bool.false_eq_true, if_false]
      rw [constructWith, outcome_get_bind, outcome_get_bind, ClassTable.findConstructors_of_nearest? hd hl]
      rfl

end Construction

namespace Lifetime

variable {exec : Exec} {s t : State} {c : ClassInfo} {h : Handle} {l : LazyConstructor}

/-- A new object is of its class and has its native state. -/
theorem exists_of_outcome_registerAs {native : Option NativeState} {keep : Keep} {overrides : Option Overrides}
    (hrun : (registerAs c native keep overrides).outcome s = (.ok h, t)) :
    ∃ i, t.arena.get? h.target = some i ∧ i.cls = c.id ∧ i.native = native := by
  rw [registerAs, register, outcome_get_bind] at hrun
  obtain ⟨⟨k, a⟩, u, hok, hrest⟩ := exists_of_outcome_bind hrun
  obtain ⟨hreg, rfl⟩ := eq_of_outcome_ofExcept hok
  obtain ⟨_, v, hset, hpure⟩ := exists_of_outcome_bind hrest
  obtain ⟨rfl, rfl⟩ := eq_of_outcome_pure hpure
  obtain rfl := (Prod.mk.inj hset).2
  exact ⟨_, Arena.get?_of_register hreg, rfl, rfl⟩

/-- Give an object the native state that a deferred constructor yields. -/
def materializeBy (exec : Exec) (l : LazyConstructor) (h : Handle) : Run Unit := do
  let body ← runNative exec none [] l.code
  let state ← Run.ofExcept (stateOf l.shape body)
  Run.setArena (← Run.ofExcept ((← get).arena.materialize h.target state))

/-- The object has the native state that the deferred constructor yields, unless the constructor, while it ran, has used
the object itself. -/
theorem exists_of_outcome_materializeBy (hrun : (materializeBy exec l h).outcome s = (.ok (), t)) :
    ∃ body u state k, (runNative exec none [] l.code).outcome s = (.ok body, u) ∧
      stateOf l.shape body = .ok state ∧ t.arena.get? h.target = some k ∧
      (k.native = some state ∨ u.arena.get? h.target = some k ∧ k.isMaterialized = true) := by
  obtain ⟨body, u, hbody, hrest⟩ := exists_of_outcome_bind hrun
  obtain ⟨state, v, hyields, hstore⟩ := exists_of_outcome_bind hrest
  obtain ⟨hstate, rfl⟩ := eq_of_outcome_ofExcept hyields
  rw [outcome_get_bind] at hstore
  obtain ⟨a, v, hstored, hset⟩ := exists_of_outcome_bind hstore
  obtain ⟨hmat, rfl⟩ := eq_of_outcome_ofExcept hstored
  obtain rfl := (Prod.mk.inj hset).2
  obtain ⟨k, hk, ⟨hmade, rfl⟩ | ⟨-, rfl⟩⟩ := Arena.materialize_cases hmat
  · exact ⟨body, u, state, k, hbody, hstate, hk, Or.inr ⟨hk, hmade⟩⟩
  · refine ⟨body, u, state, { k with native := some state }, hbody, hstate, ?_, Or.inl rfl⟩
    exact (Arena.get?_setOccupant hk _ h.target).trans (if_pos rfl)

end Lifetime

namespace Session

open Construction Lifetime

variable {exec : Exec} {s t u : State} {cls : ClassId} {c d : ClassInfo} {h : Handle} {l : LazyConstructor}

/-- A state that operations lead to. -/
structure Later (s t : State) : Prop where
  grows : s.classes.Extends t.classes
  numbered : t.classes.Numbered
  path : Arena.Path s.arena t.arena

/-- The steps of a session lead to later states. -/
theorem Reachable.later_andThen (hs : Reachable s) (budget : Nat) (step : Script.Expr) :
    Later s (andThen s budget step).2 := by
  have hpath := hs.path_andThen budget step
  refine ⟨hpath.extends, hpath.numbered hs.numbered, ?_⟩
  exact Custody.Path.arena_path (custody_path_run (s := { s with log := [] })
    ((Script.interpreter_conservesAll budget).eval step _))

/-- An object gets its native state at its first use, from one deferred constructor. -/
structure MadeLater (exec : Exec) (u : State) (l : LazyConstructor) (h : Handle) : Prop where
  materialize_eq : ∀ operation, (materialize exec h operation).outcome u = (materializeBy exec l h).outcome u
  /-- The object has the state that the constructor yields, unless the constructor has used the object itself. -/
  native_eq : ∀ operation v, (materialize exec h operation).outcome u = (.ok (), v) →
    ∃ body u₁ state k, (runNative exec none [] l.code).outcome u = (.ok body, u₁) ∧
      stateOf l.shape body = .ok state ∧ v.arena.get? h.target = some k ∧
      (k.native = some state ∨ u₁.arena.get? h.target = some k ∧ k.isMaterialized = true)

/-- An object of a class was constructed without arguments, as another class declares it. -/
structure MadeBy (exec : Exec) (s t : State) (cls : ClassId) (d : ClassInfo) (h : Handle) : Prop where
  /-- The object has the native state that the constructor of the class yields that fits no arguments. -/
  atOnce : d.lazyConstructor = none → ∃ overload binding state updated s₁ i,
    Selection.pick s.toWorld d.name "new" d.constructors {} = .ok (overload, binding) ∧
    (holding (captured s cls) (runConstructor exec d.name overload binding.values)).outcome s =
      (.ok (state, updated), s₁) ∧
    t.arena.get? h.target = some i ∧ i.cls = cls ∧ i.native = some state
  /-- The object has no native state, and will get the one that the deferred constructor of the class yields. -/
  deferred : ∀ l, d.lazyConstructor = some l →
    (∃ i, t.arena.get? h.target = some i ∧ i.cls = cls ∧ i.native = none) ∧
    ∀ u, Later t u → (u.arena.slotAt h.target.slot).removals < 2 ^ 32 →
      ∀ i, u.arena.get? h.target = some i → i.isMaterialized = false → MadeLater exec u l h

theorem madeLater_of_get? {i : Instance} (hi : u.arena.get? h.target = some i) (hnone : i.isMaterialized = false)
    (hlazy : u.classes.findLazy i.cls = some l) : MadeLater exec u l h := by
  have hsame (operation : String) :
      (materialize exec h operation).outcome u = (materializeBy exec l h).outcome u :=
    outcome_materialize_deferred operation hi hnone hlazy
  refine ⟨hsame, fun operation v hrun => ?_⟩
  rw [hsame] at hrun
  exact exists_of_outcome_materializeBy hrun

/-- What a construction by one class makes, at once. -/
theorem atOnce_of_constructBy {after : CallArgs} (hid : c.id = cls) (hnone : d.lazyConstructor = none)
    (hrun : (constructBy exec c d).outcome s = (.ok (h, after), t)) :
    ∃ overload binding state updated s₁ i,
      Selection.pick s.toWorld d.name "new" d.constructors {} = .ok (overload, binding) ∧
      (holding (captured s cls) (runConstructor exec d.name overload binding.values)).outcome s =
        (.ok (state, updated), s₁) ∧
      t.arena.get? h.target = some i ∧ i.cls = cls ∧ i.native = some state := by
  subst hid
  rw [constructBy, hnone, outcome_get_bind] at hrun
  obtain ⟨⟨overload, binding⟩, u, hpicked, hrest⟩ := exists_of_outcome_bind hrun
  obtain ⟨hpick, rfl⟩ := eq_of_outcome_ofExcept hpicked
  obtain ⟨⟨state, updated⟩, s₁, hmade, hrest⟩ := exists_of_outcome_bind hrest
  obtain ⟨args, s₂, -, hrest⟩ := exists_of_outcome_bind hrest
  obtain ⟨_, s₃, -, hrest⟩ := exists_of_outcome_bind hrest
  obtain ⟨k, s₄, hregister, hpure⟩ := exists_of_outcome_bind hrest
  obtain ⟨heq, rfl⟩ := eq_of_outcome_pure hpure
  obtain ⟨rfl, -⟩ := Prod.mk.inj heq
  obtain ⟨i, hi, hcls, hnative⟩ := exists_of_outcome_registerAs hregister
  exact ⟨overload, binding, state, updated, s₁, i, hpick, hmade, hi, hcls, hnative⟩

/-- An object that is registered without arguments. -/
theorem exists_of_outcome_registerNew {native : Option NativeState} {after : CallArgs}
    (hrun : (registerNew c native).outcome s = (.ok (h, after), t)) :
    ∃ i, t.arena.get? h.target = some i ∧ i.cls = c.id ∧ i.native = native := by
  rw [registerNew, outcome_get_bind] at hrun
  obtain ⟨_, u, -, hrest⟩ := exists_of_outcome_bind hrun
  obtain ⟨k, v, hregister, hpure⟩ := exists_of_outcome_bind hrest
  obtain ⟨heq, rfl⟩ := eq_of_outcome_pure hpure
  obtain ⟨rfl, -⟩ := Prod.mk.inj heq
  exact exists_of_outcome_registerAs hregister

/-- A construction leads to a later state. -/
theorem Reachable.later_construct (hs : Reachable s) (budget : Nat) {after : CallArgs}
    (hrun : (construct (Script.interpreter budget).exec cls {}).outcome s = (.ok (h, after), t)) : Later s t := by
  have hpath : s.Path t := by
    have hexec := (Script.interpreter_orderly budget).exec
    have horderly := ((takes_construct hexec.takes cls {}).orderly hs.numbered).1
    rwa [hrun] at horderly
  refine ⟨hpath.extends, hpath.numbered hs.numbered, ?_⟩
  have hconserves : Conserves (construct (Script.interpreter budget).exec cls {}) s [] _ :=
    conserves_construct (Script.interpreter_conservesAll budget).exec
  exact Custody.Path.arena_path (hconserves.ok hrun).2

/-- An object that is constructed without arguments is made by the nearest class that declares constructors or a deferred
one, if this class has a deferred one or no class above it has: nothing else is run, and the object has or will get the
native state that this class yields. -/
theorem nearest_constructor (hs : Reachable s) (budget : Nat) (hc : s.classes.get? cls = some c)
    (hd : s.classes.nearest? cls = some d) (hfree : d.lazyConstructor = none → s.classes.findLazy cls = none) :
    (construct (Script.interpreter budget).exec cls {}).outcome s =
        (constructBy (Script.interpreter budget).exec c d).outcome s ∧
      ∀ h after t, (construct (Script.interpreter budget).exec cls {}).outcome s = (.ok (h, after), t) →
        MadeBy (Script.interpreter budget).exec s t cls d h := by
  have hid := hs.numbered.id_eq hc
  have hsame := outcome_construct_nearest (Script.interpreter budget).exec
    (ClassTable.descriptor_eq_ok_iff.mpr hc) hid hd hfree
  refine ⟨hsame, fun h after t hrun => ⟨fun hnone => ?_, fun l hl => ?_⟩⟩
  · exact atOnce_of_constructBy hid hnone (hsame.symm.trans hrun)
  · have hlater := hs.later_construct budget hrun
    rw [hsame, constructBy, hl] at hrun
    obtain ⟨i, hi, hcls, hnative⟩ := exists_of_outcome_registerNew hrun
    rw [hid] at hcls
    refine ⟨⟨i, hi, hcls, hnative⟩, fun u hu hfew j hj hnone => ?_⟩
    have hstart : Arena.Path {} t.arena := (Custody.Path.arena_path hs.arises).trans hlater.path
    have hcontinues := Arena.Path.continues_of_get? hu.path (Arena.balanced_empty.path hstart)
      (Arena.Numbered.path hstart Arena.balanced_empty Arena.numbered_empty) hfew hi hj
    refine madeLater_of_get? hj hnone ?_
    -- The chain of the class is the same as when the object was constructed.
    have hchain := (hlater.grows.trans hu.grows).ancestors_eq hs.numbered hu.numbered
      (ClassTable.lt_nextId_of_get? hc)
    rw [hcontinues.cls_eq, hcls, (ClassTable.find_eq_of_ancestors hchain).1]
    exact ClassTable.findLazy_of_nearest? hd hl

/-! ## A session with a chain of classes -/

/-- The state of one field that a constructor of the session yields. -/
def oneField (n : Int64) : Code :=
  [.ret (.map [(.lit (.text "v"), .lit (.int n))])]

/-- A session that registers four classes.  `Root` has a constructor, `Mid` derives from it and has a deferred one, and
from that `Leaf` derives, which has neither, and `Over`, which has a constructor. -/
def chainRun : Except Fault Value × State :=
  andThen (start {} []) 6 (.list [
    .perform (.defineClass { name := "Root", shape := .script, members := [.constructor {} (oneField 1)] }) none,
    .perform (.defineClass {
      name := "Mid", base := some "Root", shape := .script, members := [.lazy (oneField 2)] }) none,
    .perform (.defineClass { name := "Leaf", base := some "Mid", shape := .script }) none,
    .perform (.defineClass {
      name := "Over", base := some "Mid", shape := .script, members := [.constructor {} (oneField 3)] }) none])

theorem reachable_chainRun : Reachable chainRun.2 :=
  .between ((Between.start {} []).andThen (by decide +kernel))

/-- What is found of a class of the session: the nearest class that declares constructors, and how it does. -/
def nearestOf (cls : ClassId) : Option (String × Bool) :=
  (chainRun.2.classes.nearest? cls).map fun d => (d.name, d.lazyConstructor.isSome)

/-- The first object of the session. -/
def firstObject (cls : ClassId) (name : String) : Handle := ⟨⟨0, ⟨0, ⟨0, 0⟩⟩, cls, name⟩, false⟩

/-- A construction in the session: the handle, whether the object has a native state, and the removals from its slot. -/
def constructed (cls : ClassId) : Option Handle × Option Bool × Nat :=
  let made := (construct (Script.interpreter 6).exec cls {}).outcome chainRun.2
  (made.1.toOption.map Prod.fst, (made.2.arena.get? ⟨0, 0⟩).map Instance.isMaterialized,
    (made.2.arena.slotAt 0).removals)

/-- An object of `Leaf` is made by the deferred constructor of `Mid`. -/
theorem leaf_made_by_mid :
    ∃ c d l after t, chainRun.2.classes.get? 2 = some c ∧ chainRun.2.classes.nearest? 2 = some d ∧
      d.name = "Mid" ∧ d.lazyConstructor = some l ∧
      (construct (Script.interpreter 6).exec 2 {}).outcome chainRun.2 = (.ok (firstObject 2 "Leaf", after), t) ∧
      MadeLater (Script.interpreter 6).exec t l (firstObject 2 "Leaf") := by
  have hclass : (chainRun.2.classes.get? 2).isSome = true := by decide +kernel
  have hnearest : nearestOf 2 = some ("Mid", true) := by decide +kernel
  have hmade : constructed 2 = (some (firstObject 2 "Leaf"), some false, 0) := by decide +kernel
  obtain ⟨c, hc⟩ := Option.isSome_iff_exists.mp hclass
  obtain ⟨d, hd, hdeclares⟩ := Option.map_eq_some_iff.mp hnearest
  obtain ⟨hname, hsome⟩ := Prod.mk.inj hdeclares
  obtain ⟨l, hl⟩ := Option.isSome_iff_exists.mp hsome
  obtain ⟨hhandle, -, hremovals⟩ : _ ∧ _ ∧ _ := by simpa only [constructed, Prod.mk.injEq] using hmade
  obtain ⟨⟨h, after⟩, t, hrun, rfl⟩ := exists_of_toOption hhandle
  rw [hrun] at hremovals
  have hby := (nearest_constructor reachable_chainRun 6 hc hd (by simp [hl])).2 _ _ _ hrun
  obtain ⟨⟨i, hi, -, hnone⟩, hlater⟩ := hby.deferred l hl
  have hunused : i.isMaterialized = false := by rw [Instance.isMaterialized, hnone]; rfl
  have hnow : Later t t := ⟨.refl _, (reachable_chainRun.later_construct 6 hrun).numbered, .refl⟩
  have hfew : (t.arena.slotAt (firstObject 2 "Leaf").target.slot).removals < 2 ^ 32 :=
    Nat.lt_of_le_of_lt (Nat.le_of_eq hremovals) (by decide)
  exact ⟨c, d, l, after, t, hc, hd, hname, hl, hrun, hlater t hnow hfew i hi hunused⟩

/-- A constructor of the nearest class is passed over if a class above it has a deferred one. -/
theorem upper_deferral_wins :
    ¬∀ s, Reachable s → ∀ budget cls c d, s.classes.get? cls = some c → s.classes.nearest? cls = some d →
      ∀ h after t, (construct (Script.interpreter budget).exec cls {}).outcome s = (.ok (h, after), t) →
        MadeBy (Script.interpreter budget).exec s t cls d h := by
  intro hclaim
  have hclass : (chainRun.2.classes.get? 3).isSome = true := by decide +kernel
  have hnearest : nearestOf 3 = some ("Over", false) := by decide +kernel
  have hmade : constructed 3 = (some (firstObject 3 "Over"), some false, 0) := by decide +kernel
  obtain ⟨c, hc⟩ := Option.isSome_iff_exists.mp hclass
  obtain ⟨d, hd, hdeclares⟩ := Option.map_eq_some_iff.mp hnearest
  have hnone : d.lazyConstructor = none :=
    Option.isNone_iff_eq_none.mp (Option.isSome_eq_false_iff.mp (Prod.mk.inj hdeclares).2)
  obtain ⟨hhandle, hunused, -⟩ : _ ∧ _ ∧ _ := by simpa only [constructed, Prod.mk.injEq] using hmade
  obtain ⟨⟨h, after⟩, t, hrun, rfl⟩ := exists_of_toOption hhandle
  rw [hrun] at hunused
  obtain ⟨-, -, state, -, -, i, -, -, hi, -, hnative⟩ :=
    (hclaim _ reachable_chainRun 6 3 c d hc hd _ _ _ hrun).atOnce hnone
  have hlate : (t.arena.get? ⟨0, 0⟩).map Instance.isMaterialized = some true := by
    rw [show (⟨0, 0⟩ : Reference) = (firstObject 3 "Over").target from rfl, hi, Option.map_some,
      Instance.isMaterialized, hnative]
    rfl
  rw [hunused] at hlate
  cases hlate

end Session

end ObjectBridge
