import ObjectBridge.Proofs.Class.Deferral
import ObjectBridge.Proofs.Lifetime.Copies
import ObjectBridge.Proofs.Script.Course
import ObjectBridge.Proofs.Script.Identical

/-!
# Deferred constructors that always yield the same

A deferred constructor may always yield the same native state and do nothing else.  Run at once instead, by a construction
without arguments, it does nothing but to register the object with this state.

* `FixedConstructor` — such a constructor.
* `Construction.outcome_construct_deferred` and `Construction.outcome_construct_of_yields` — a construction that is
  deferred, and one that runs the constructor.
* `Lifetime.outcome_materialize_of_yields` — an object gets its native state afterwards.
-/

namespace ObjectBridge

open Run Mirror

/-- The code of a deferred constructor ends with a native state, and leaves everything else as it was. -/
def LazyConstructor.Yields (l : LazyConstructor) (state : NativeState) (exec : Exec) (s : State) : Prop :=
  ∃ body, (Lifetime.runNative exec none [] l.code).outcome s = (.ok body, s) ∧
    Lifetime.stateOf l.shape body = .ok state ∧ body.args = []

/-- The tables that have grown from one of certain tables. -/
def ClassTable.Grown (tables : Set ClassTable) (t : ClassTable) : Prop :=
  ∃ base ∈ tables, base.Extends t

theorem ClassTable.Grown.snoc {tables : Set ClassTable} {t : ClassTable} (h : Grown tables t) (c : ClassInfo) :
    Grown tables (t.snoc c) := by
  obtain ⟨base, hbase, hextends⟩ := h
  exact ⟨base, hbase, hextends.trans (t.extends_snoc c)⟩

/-- A deferred constructor that always succeeds and always yields the same native state, wherever the classes of one of
certain tables are known. -/
structure FixedConstructor (tables : Set ClassTable) where
  lazy : LazyConstructor
  state : NativeState
  /-- How many nested evaluations the code needs. -/
  depth : Nat
  /-- The objects and boxes in the native state are among those that the classes hold.  The code can have no others if it
  does the same in every state and makes none. -/
  mentioned : ∀ base ∈ tables, (Value.map state.fields).MentionedBy base.heldValues
  yields : ∀ budget, depth ≤ budget → ∀ s : State, ClassTable.Grown tables s.classes → s.stepsLeft = none →
    lazy.Yields state (Script.interpreter budget).exec s

theorem FixedConstructor.mentionedBy {tables : Set ClassTable} (c : FixedConstructor tables) {t : ClassTable}
    (ht : t.Grown tables) : (Value.map c.state.fields).MentionedBy t.heldValues := by
  obtain ⟨base, hbase, hextends⟩ := ht
  have hsub {u : Value} (hu : u ∈ base.heldValues) : u ∈ t.heldValues := by
    obtain ⟨b, hb, hu⟩ := List.mem_flatMap.mp hu
    exact List.mem_flatMap.mpr ⟨b, List.IsPrefix.subset hextends hb, hu⟩
  obtain ⟨hhandles, hboxes⟩ := c.mentioned base hbase
  exact ⟨fun h hh => (hhandles h hh).imp fun _ hu => ⟨hsub hu.1, hu.2⟩,
    fun b hb => (hboxes b hb).imp fun _ hu => ⟨hsub hu.1, hu.2⟩⟩

/-! ## What an operation holds -/

/-- Values besides others that add nothing to what the classes hold. -/
structure AddsNothing (t : ClassTable) (vs us : List Value) : Prop where
  subset : ∀ v ∈ vs, v ∈ us
  mentioned : ∀ u ∈ us, u ∈ vs ∨ u.MentionedBy t.heldValues

/-- The same proxies are in use while values stay in use that add nothing. -/
theorem State.sameProxies_withHeld {vs us : List Value} {s : State} (h : AddsNothing s.classes vs us) :
    Arena.SameProxies (withHeld s vs).handles (withHeld s us).handles := by
  have hsplit (ws : List Value) (v : Value) : v ∈ (withHeld s ws).inUse [] ↔ v ∈ ws ∨ v ∈ s.inUse [] := by
    simp only [inUse, roots, withHeld, List.flatten_cons, List.mem_append, List.not_mem_nil, false_or]
    tauto
  have hmore : s.cells.Within ((withHeld s vs).inUse []) s.cells ((withHeld s us).inUse []) := by
    refine Cells.within_of_covers fun v hv => ?_
    rcases (hsplit us v).mp hv with hv | hv
    · rcases h.mentioned v hv with hv | hv
      · exact Cells.covers_of_mem ((hsplit vs v).mpr (Or.inl hv))
      · exact hv.covers _ fun u hu => (hsplit vs u).mpr (Or.inr (mem_inUse_of_mem_heldValues (List.mem_append_left _ hu) []))
    · exact Cells.covers_of_mem ((hsplit vs v).mpr (Or.inr hv))
  have hfewer : s.cells.Within ((withHeld s us).inUse []) s.cells ((withHeld s vs).inUse []) :=
    Cells.within_of_covers fun v hv => Cells.covers_of_mem
      ((hsplit us v).mpr (((hsplit vs v).mp hv).imp_left (h.subset v)))
  exact fun p => ⟨hmore.reaches, hfewer.reaches⟩

namespace Lifetime

/-- The passes of a sweep depend on what is mentioned. -/
theorem iterate_pass_congr {vs us : List Value} {s : State} (h : AddsNothing s.classes vs us) (n : Nat) :
    ∃ a, State.pass^[n] (withHeld s vs) = withHeld { s with arena := a } vs ∧
      State.pass^[n] (withHeld s us) = withHeld { s with arena := a } us := by
  induction n with
  | zero => exact ⟨s.arena, rfl, rfl⟩
  | succ n ih =>
      obtain ⟨a, hvs, hus⟩ := ih
      have hsame : (withHeld { s with arena := a } us).collectable = (withHeld { s with arena := a } vs).collectable :=
        (State.sameProxies_withHeld (s := { s with arena := a }) h).collectable_eq a
      refine ⟨a.without (withHeld { s with arena := a } vs).collectable, ?_, ?_⟩
      · rw [Function.iterate_succ_apply', hvs]
        rfl
      · rw [Function.iterate_succ_apply', hus, State.pass, hsame]
        rfl

/-- To count a construction depends on what is mentioned. -/
theorem outcome_holding_countConstruction_congr {s : State} {vs us : List Value} (h : AddsNothing s.classes vs us)
    (hfree : s.stepsLeft = none) :
    (holding us countConstruction).outcome s = (holding vs countConstruction).outcome s := by
  -- Of the held values only the sweep takes notice, and it looks at what they mention.
  have hcount (ws : List Value) : (holding ws countConstruction).outcome s =
      if s.options.autoReclaim = 0 ∨ !s.frames.isEmpty then (.ok (), s)
      else if s.options.autoReclaim ≤ s.constructions + 1 then
        (.ok (), { withoutHeld (State.pass^[sweepPasses] (withHeld { s with constructions := s.constructions + 1 } ws))
          with constructions := 0 })
      else (.ok (), { s with constructions := s.constructions + 1 }) := by
    have hrun := outcome_countConstruction (withHeld s ws)
    split
    · rename_i hskip
      rw [if_pos (by exact hskip)] at hrun
      exact outcome_holding_of_ok hrun
    · rename_i hskip
      rw [if_neg (by exact hskip)] at hrun
      split
      · rename_i hdue
        rw [if_pos (by exact hdue)] at hrun
        have hswept := outcome_reclaim
          (s := withHeld { s with constructions := s.constructions + 1 } ws) hfree
        rw [sweep_fst] at hswept
        exact outcome_holding_of_ok (hrun.trans (outcome_bind_of_ok hswept _))
      · rename_i hdue
        rw [if_neg (by exact hdue)] at hrun
        exact outcome_holding_of_ok hrun
  obtain ⟨a, hvs, hus⟩ := iterate_pass_congr (s := { s with constructions := s.constructions + 1 }) h sweepPasses
  rw [hcount us, hcount vs, hvs, hus]
  rfl

end Lifetime

/-! ## What the constructor does -/

variable {exec : Exec} {l : LazyConstructor} {state : NativeState} {s : State}

namespace Construction

/-- Arguments that are none at all. -/
theorem eq_of_isEmpty {args : CallArgs} (h : args.isEmpty = true) : args = {} := by
  obtain ⟨positional, keywords⟩ := args
  rw [CallArgs.isEmpty, Bool.and_eq_true, List.isEmpty_iff, List.isEmpty_iff] at h
  obtain ⟨rfl, rfl⟩ := h
  rfl

/-- A constructor without parameters is the one for no arguments. -/
theorem pick_parameterless (w : World) (owner : String) (l : LazyConstructor) :
    Selection.pick w owner "new" [l.overload] {} = .ok (l.overload, ⟨0, [], []⟩) := by
  have hselect : Selection.select w owner "new" [l.overload.sig] {} = .ok ⟨0, [], []⟩ := rfl
  rw [Selection.pick, List.map_cons, List.map_nil, hselect]
  rfl

theorem outcome_runConstructor_of_yields (owner : String) (hyields : l.Yields state exec s) :
    (runConstructor exec owner l.overload []).outcome s = (.ok (state, []), s) := by
  obtain ⟨body, hrun, hstate, hargs⟩ := hyields
  have hnative := outcome_bind_of_ok hrun fun body => do
    return (← Run.ofExcept (Lifetime.stateOf l.shape body), body.args)
  rw [hstate, hargs] at hnative
  exact hnative

/-- Count a construction, and register an object without arguments, with a native state or without one. -/
def registerNew (c : ClassInfo) (native : Option NativeState) : Run (Handle × CallArgs) := do
  let overrides := (← get).classes.overrides c.id
  Run.holding ((overrides.map Overrides.values).getD []) Lifetime.countConstruction
  return (← Lifetime.registerAs c native .managed overrides, {})

variable {cls : ClassId} {c : ClassInfo}

/-- What the overrides of a class hold while an object of it is constructed. -/
def captured (s : State) (cls : ClassId) : List Value :=
  ((s.classes.overrides cls).map Overrides.values).getD []

/-- An object of a class with a deferred constructor. -/
theorem outcome_construct_deferred (hc : s.classes.descriptor cls = .ok c) (hid : c.id = cls)
    (hlazy : s.classes.findLazy cls = some l) :
    (construct exec cls {}).outcome s = (registerNew c none).outcome s := by
  subst hid
  have hempty : ({} : CallArgs).isEmpty = true := rfl
  rw [construct, outcome_get_bind]
  dsimp only
  rw [hc, hlazy]
  simp only [Run.ofExcept, pure_bind, hempty, Option.isSome_some, Bool.and_self, if_true]
  rw [registerNew, outcome_get_bind]

/-- An object of a class with a constructor without parameters. -/
theorem outcome_construct_eager (hc : s.classes.descriptor cls = .ok c) (hid : c.id = cls)
    (hlazy : s.classes.findLazy cls = none) {owner : String}
    (hfind : s.classes.findConstructors cls = some ⟨owner, [l.overload]⟩) :
    (construct exec cls {}).outcome s =
      (do
        let (state, updated) ← Run.holding ([] ++ captured s cls) (runConstructor exec owner l.overload [])
        let args ← Delivery.settle [] [] updated {}
        Run.holding (Value.map state.fields :: args.values ++ updated ++ captured s cls) Lifetime.countConstruction
        let h ← Lifetime.registerAs c (some state) .managed (s.classes.overrides cls)
        return (h, args)).outcome s := by
  subst hid
  rw [construct, outcome_get_bind]
  dsimp only
  rw [hc, hlazy]
  simp only [Run.ofExcept, pure_bind, Option.isSome_none, Bool.and_false, Bool.false_eq_true, if_false]
  rw [constructWith, outcome_get_bind]
  dsimp only
  rw [hfind]
  simp only [orFail, pure_bind, pick_parameterless, Run.ofExcept]
  rfl

/-- A constructor without parameters that changes nothing. -/
theorem outcome_construct_of_yields (hc : s.classes.descriptor cls = .ok c) (hid : c.id = cls)
    (hlazy : s.classes.findLazy cls = none) {owner : String}
    (hfind : s.classes.findConstructors cls = some ⟨owner, [l.overload]⟩) (hfree : s.stepsLeft = none)
    (hmentioned : (Value.map state.fields).MentionedBy s.classes.heldValues)
    (hyields : l.Yields state exec (withHeld s ([] ++ captured s cls))) :
    (construct exec cls {}).outcome s = (registerNew c (some state)).outcome s := by
  rw [outcome_construct_eager hc hid hlazy hfind]
  have hmade := outcome_holding_of_ok (outcome_runConstructor_of_yields owner hyields)
  rw [outcome_bind_of_ok hmade]
  have hadds : AddsNothing s.classes (captured s cls) (Value.map state.fields :: [] ++ [] ++ captured s cls) := by
    refine ⟨fun v hv => List.mem_cons_of_mem _ hv, fun u hu => ?_⟩
    rcases List.mem_cons.mp hu with rfl | hu
    · exact Or.inr hmentioned
    · exact Or.inl hu
  subst hid
  have hcount := Lifetime.outcome_holding_countConstruction_congr hadds hfree
  rw [registerNew, outcome_get_bind]
  exact outcome_bind_congr hcount fun _ _ _ => rfl

/-- Objects are registered in both states, each of them with a native state or without one. -/
theorem follows_registerNew {M : Mirror} {s' : State} {c' : ClassInfo} (houtline : c'.outline = c.outline)
    {native native' : Option NativeState} (hnative : M.native s.classes c.id native native') :
    M.Follows (registerNew c native) (registerNew c' native') s s' := by
  have hid : c'.id = c.id := (congrArg (fun o : ClassInfo => o.id) houtline :)
  refine follows_of_between fun hs => follows_get ?_
  rw [hid, hs.classes.overrides_eq]
  refine Lifetime.follows_countConstruction.holding.bind fun _ t t' hcount _ => ?_
  refine Follows.map (Lifetime.follows_registerAs houtline ?_ _ _)
  rw [Lifetime.classes_of_holding_countConstruction hcount]
  exact hnative

end Construction

namespace Lifetime

variable {h : Handle} {i : Instance} (operation : String)

/-- An object without its native state gets the one that the deferred constructor of its class yields. -/
theorem outcome_materialize_deferred (hi : s.arena.get? h.target = some i) (hnone : i.isMaterialized = false)
    (hlazy : s.classes.findLazy i.cls = some l) :
    (materialize exec h operation).outcome s =
      (do
        let body ← runNative exec none [] l.code
        let state ← Run.ofExcept (stateOf l.shape body)
        Run.setArena (← Run.ofExcept ((← get).arena.materialize h.target state))).outcome s := by
  rw [materialize, outcome_bind_of_ok (outcome_resolve_of_some hi operation), hnone]
  simp only [Bool.false_eq_true, if_false]
  rw [outcome_get_bind, hlazy]
  simp only [orFail, pure_bind]

theorem outcome_materialize_of_yields (hi : s.arena.get? h.target = some i) (hnone : i.isMaterialized = false)
    (hlazy : s.classes.findLazy i.cls = some l) (hyields : l.Yields state exec s) :
    ∃ a, s.arena.materialize h.target state = .ok a ∧
      (materialize exec h operation).outcome s = (.ok (), { s with arena := a }) := by
  obtain ⟨body, hrun, hstate, -⟩ := hyields
  obtain ⟨a, ha⟩ : ∃ a, s.arena.materialize h.target state = .ok a := by
    rw [Arena.materialize, hi]
    dsimp only
    rw [hnone]
    exact ⟨_, rfl⟩
  refine ⟨a, ha, ?_⟩
  rw [outcome_materialize_deferred operation hi hnone hlazy, outcome_bind_of_ok hrun, hstate]
  show (Run.ofExcept (s.arena.materialize h.target state) >>= fun a => Run.setArena a).outcome s = _
  rw [ha]
  rfl

end Lifetime

end ObjectBridge
