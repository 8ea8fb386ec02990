import ObjectBridge.Proofs.Lifetime.Operations
import ObjectBridge.Proofs.Value.Parts

/-!
# Native states and the handles that exist

The operations on native states may run a body before they do anything themselves, namely the deferred
constructor.  So they start with nothing in hand: whatever their caller goes on to use is held meanwhile.

* `conserves_runNative` — the run of a native body.
* `conserves_materialize` — the run of a deferred constructor.
* `conserves_dup`, `conserves_assign`, `conserves_typedState` and `conserves_modifyNative` — the operations
  that need a native state.
-/

namespace ObjectBridge

theorem State.covers_result {s : State} (a : Activation) : s.Covers a.values a.result := by
  cases ha : a.ended with
  | none =>
      rw [Activation.result, ha]
      exact Cells.covers_of_isPlain ⟨rfl, rfl⟩
  | some ending =>
      refine State.covers_of_mem_hand ?_
      simp [Activation.values, Activation.result, ha]

theorem State.covers_args {s : State} {a : Activation} {v : Value} (hv : v ∈ a.args) :
    s.Covers a.values v :=
  State.covers_of_mem_hand (by simp [Activation.values, hv])

namespace Lifetime

open Run

variable {exec : Exec} (hexec : ConservesAll exec) {s : State} {hand : List Value}

/-- The state of an object is covered. -/
theorem covers_native {r : Reference} {i : Instance} (hi : s.arena.get? r = some i)
    {state : NativeState} (hstate : i.native = some state) : s.Covers hand (.map state.fields) :=
  covers_of_mem_arena (Arena.mem_heldValues_of_get? hi
    (Instance.mem_heldValues_iff.mpr (Or.inl ⟨state, hstate, rfl⟩)))

/-- What the overrides of an object captured is covered. -/
theorem covers_instance_overrides {r : Reference} {i : Instance} (hi : s.arena.get? r = some i)
    {o : Overrides} (ho : i.overrides = some o) {v : Value} (hv : v ∈ o.values) :
    s.Covers hand v :=
  covers_of_mem_arena (Arena.mem_heldValues_of_get? hi
    (Instance.mem_heldValues_iff.mpr (Or.inr (Or.inl ⟨o, ho, hv⟩))))

/-- What the handlers of an object captured is covered. -/
theorem covers_handlers {r : Reference} {i : Instance} (hi : s.arena.get? r = some i)
    {event : String} {hs : Handlers} (hhs : i.handlers? event = some hs) {v : Value}
    (hv : v ∈ hs.values) : s.Covers hand v :=
  covers_of_mem_arena (Arena.mem_heldValues_of_get? hi (Instance.mem_heldValues_iff.mpr
    (Or.inr (Or.inr ⟨event, hs, mem_of_lookup hhs, hv⟩))))

/-- The resolution of a handle changes nothing. -/
theorem conserves_bind_resolve {α : Type} {h : Handle} {operation : String}
    {f : Instance → Run α} {out : α → List Value}
    (hf : ∀ i, s.arena.get? h.target = some i → Conserves (f i) s hand out) :
    Conserves (resolve h operation >>= f) s hand out := by
  have hassoc : (resolve h operation >>= f) =
      (MonadState.get >>= fun s => Run.ofExcept (s.arena.resolve h operation) >>= f) := by
    rw [resolve, bind_assoc]
  rw [hassoc]
  exact conserves_get (conserves_bind_ofExcept fun i hi => hf i (Arena.resolve_eq_ok_iff.mp hi))

/-- The fields that a constructor yields are its result. -/
theorem covers_stateOf {shape : Shape} {body : Activation} {state : NativeState}
    (hstate : stateOf shape body = .ok state) : s.Covers body.values (.map state.fields) := by
  obtain ⟨fields, hmap, rfl⟩ := map_eq_ok_iff.mp hstate
  show s.Covers body.values (.map fields)
  rw [← Value.eq_map_of_asMap hmap]
  exact State.covers_result body

/-- Another state takes the place of the one that an object has. -/
theorem conserves_setNative {r : Reference} {i : Instance} (hi : s.arena.get? r = some i)
    (hmat : i.isMaterialized = true) {state : NativeState}
    (hstate : s.Covers hand (.map state.fields)) :
    Conserves (setArena (s.arena.setNative r state)) s hand fun _ => hand := by
  have hsame : (s.arena.setNative r state).outline = s.arena.outline := by
    refine Arena.outline_modify ?_
    intro j hj
    obtain rfl := Option.some.inj (hi.symm.trans hj)
    exact Arena.outline_native state hmat
  refine conserves_setArena_of_step (.move hsame Set.Subset.rfl Set.Subset.rfl) ?_
  intro v hv
  rcases Arena.mem_heldValues_setNative hv with rfl | hv
  · exact hstate
  · exact covers_of_mem_arena hv

/-- The state that is found is the one of the object. -/
theorem exists_native_of_typedState {h : Handle} {type operation : String} {state : NativeState}
    {t : State} (hstate : (typedState exec h type operation).outcome s = (.ok state, t)) :
    ∃ i, t.arena.get? h.target = some i ∧ i.native = some state := by
  rw [typedState, outcome_bind] at hstate
  rcases heq : (materialize exec h operation).outcome s with ⟨result, u⟩
  rw [heq] at hstate
  cases result with
  | error fault => cases hstate
  | ok _ =>
      have hrest : (Run.ofExcept (u.arena.resolve h operation) >>= fun i =>
          Run.orFail (.unexpectedValue type h.className)
            (i.native.filter fun state => state.shape.name == type)).outcome u =
          (.ok state, t) := hstate
      rw [outcome_bind, outcome_ofExcept] at hrest
      cases hres : u.arena.resolve h operation with
      | error e => simp [hres, Except.mapError] at hrest
      | ok i =>
          simp only [hres, Except.mapError, outcome_orFail, Prod.mk.injEq] at hrest
          obtain ⟨hfound, rfl⟩ := hrest
          refine ⟨i, Arena.resolve_eq_ok_iff.mp hres, ?_⟩
          cases hfilter : i.native.filter fun state => state.shape.name == type with
          | none => simp [hfilter] at hfound
          | some found =>
              simp only [hfilter, Except.ok.injEq] at hfound
              rw [← hfound]
              exact (Option.filter_eq_some_iff.mp hfilter).1

/-- The states of two objects in different slots. -/
theorem pair?_eq_some {a : Arena} {target source : Reference} {x y : NativeState}
    (hpair : a.pair? target source = some (x, y)) :
    ∃ i j, a.get? target = some i ∧ a.get? source = some j ∧ i.native = some x ∧
      j.native = some y := by
  unfold Arena.pair? at hpair
  split at hpair
  · cases hpair
  · split at hpair
    · rename_i i j hi hj
      split at hpair
      · rename_i x' y' hx hy
        simp only [Option.some.injEq, Prod.mk.injEq] at hpair
        obtain ⟨rfl, rfl⟩ := hpair
        exact ⟨i, j, hi, hj, hx, hy⟩
      · cases hpair
    · cases hpair

include hexec

/-- A native body starts with its receiver and its arguments in hand. -/
theorem conserves_runNative (receiver : Option Handle) (args : List Value) (code : Code) :
    Conserves (runNative exec receiver args code) s
      ((receiver.map Value.object).toList ++ args) Activation.values := by
  refine Conserves.inNativeFrame (Conserves.of_hand (hexec code _).activate ?_)
  intro v hv
  simp only [Activation.values, List.map_nil, List.append_nil, Option.map_none,
    Option.toList_none] at hv
  exact State.covers_of_mem_hand hv

/-- A receiver that is in use need not be in hand. -/
theorem conserves_runNative_of_kept {receiver : Option Handle} {args : List Value} {code : Code}
    (hreceiver : ∀ h ∈ receiver, .object h ∈ s.kept) :
    Conserves (runNative exec receiver args code) s args Activation.values := by
  refine (conserves_runNative hexec receiver args code).of_hand ?_
  intro v hv
  rcases List.mem_append.mp hv with hv | hv
  · obtain ⟨h, hh, rfl⟩ := Option.map_eq_some_iff.mp (Option.mem_toList.mp hv)
    exact State.covers_of_mem_kept (hreceiver h hh) args
  · exact State.covers_of_mem_hand hv

/-- A deferred constructor runs with nothing in hand. -/
theorem conserves_materialize (h : Handle) (operation : String) :
    Conserves (materialize exec h operation) s [] fun _ => [] := by
  refine conserves_bind_resolve ?_
  intro i _
  split
  · exact conserves_pure (by simp)
  · refine conserves_get (conserves_bind_orFail ?_)
    intro deferred _
    refine (conserves_runNative hexec none [] deferred.code).bind ?_
    intro body t _ _
    refine conserves_bind_ofExcept ?_
    intro state hstate
    refine conserves_get (conserves_bind_ofExcept ?_)
    intro arena hmat
    have hset : Conserves (setArena arena) t body.values fun _ => body.values := by
      refine conserves_setArena_of_step (.materialize h.target state hmat) ?_
      intro v hv
      rcases Arena.mem_heldValues_materialize hmat hv with rfl | hv
      · exact covers_stateOf hstate
      · exact covers_of_mem_arena hv
    exact hset.of_out_subset fun _ v hv => absurd hv List.not_mem_nil

/-- A copy shares what the state of the object holds. -/
theorem conserves_dup (h : Handle) :
    Conserves (dup exec h) s [] fun k => [.object k] := by
  refine (conserves_materialize hexec h "dup").bind ?_
  intro _ t _ _
  refine conserves_bind_resolve ?_
  intro i hi
  refine conserves_bind_orFail ?_
  intro copy hcopy
  refine conserves_get (conserves_bind_ofExcept ?_)
  intro c _
  refine conserves_registerAs ?_ ?_ fun o ho => Or.inr ⟨h.target, i, hi, ho⟩
  · rintro state ⟨⟩
    exact covers_native hi (Instance.native_eq_of_copy? hcopy)
  · intro o ho v hv
    exact covers_instance_overrides hi ho hv

/-- The state of a class of states, with nothing in hand meanwhile. -/
theorem conserves_typedState (h : Handle) (type operation : String) :
    Conserves (typedState exec h type operation) s [] fun state => [.map state.fields] := by
  refine (conserves_materialize hexec h operation).bind ?_
  intro _ t _ _
  refine conserves_bind_resolve ?_
  intro i hi
  refine conserves_orFail ?_
  intro state hstate v hv
  obtain rfl := List.mem_singleton.mp hv
  exact covers_native hi (Option.filter_eq_some_iff.mp hstate).1

theorem conserves_native (h : Handle) (type : String) :
    Conserves (native exec h type) s [] fun state => [.map state.fields] :=
  conserves_typedState hexec h type "native"

/-- The fields of a new state are covered with the ones of the old state. -/
theorem conserves_modifyNative (h : Handle) (type : String) {f : NativeState → NativeState}
    (hf : ∀ t state, s.Level t → t.Covers [.map state.fields] (.map (f state).fields)) :
    Conserves (modifyNative exec h type f) s [] fun _ => [] := by
  refine conserves_get (conserves_unless fun _ => ?_)
  refine (conserves_typedState hexec h type "native_mut").bind ?_
  intro state t hstate hlevel
  refine conserves_get ?_
  obtain ⟨i, hi, hnative⟩ := exists_native_of_typedState hstate
  have hmat : i.isMaterialized = true := by simp [Instance.isMaterialized, hnative]
  exact (conserves_setNative hi hmat (hf t state hlevel)).of_out_subset
    fun _ v hv => absurd hv List.not_mem_nil

theorem conserves_assign (target source : Handle) :
    Conserves (assign exec target source) s [] fun _ => [] := by
  refine conserves_get (conserves_unless fun _ => ?_)
  refine (conserves_materialize hexec target "assign").bind ?_
  intro _ t _ _
  refine (conserves_materialize hexec source "assign").bind ?_
  intro _ u _ _
  refine conserves_get (conserves_unless fun _ => ?_)
  split
  · exact conserves_pure (by simp)
  · refine conserves_bind_orFail ?_
    rintro ⟨x, y⟩ hpair
    refine conserves_bind_orFail ?_
    intro z hz
    obtain ⟨i, j, hi, hj, hx, hy⟩ := pair?_eq_some hpair
    refine conserves_setNative hi (by simp [Instance.isMaterialized, hx]) ?_
    unfold NativeState.assignFrom? at hz
    split at hz
    · obtain rfl := Option.some.inj hz
      show u.Covers [] (.map y.fields)
      exact covers_native hj hy
    · cases hz

theorem conserves_equals (left right : Handle) :
    Conserves (equals exec left right) s [] fun _ => [] := by
  refine (conserves_materialize hexec left "==").bind ?_
  intro _ t _ _
  refine (conserves_materialize hexec right "==").bind ?_
  intro _ u _ _
  refine conserves_bind_resolve ?_
  intro i _
  refine conserves_bind_resolve ?_
  intro j _
  exact conserves_get (conserves_pure (by simp))

end Lifetime

end ObjectBridge
