import ObjectBridge.Proofs.Arena.Balance

/-!
# Runs of the arena and its seats

A registry is an arena with any number of seats.  Its operations take whatever reference or handle they
are given, so a run may use stale, invented and out-of-range ones; an operation that fails leaves the
registry as it is.  Beside the registry itself a run keeps a history: how many objects were removed from
each slot so far.

* `Registry.Operation` and `Registry.run` — runs of operations on the empty registry.
* `run_induction` — what every operation preserves holds after every run.
* `run_balanced` — after every run the books of the arena balance, so nothing is ever subtracted that
  was not counted, and no slot is given out that is in use.
-/

namespace ObjectBridge

/-- An arena with its seats, and the number of objects removed from each slot so far. -/
structure Registry where
  arena : Arena := {}
  seats : Nat → Seat := fun _ => {}
  removals : Nat → Nat := fun _ => 0

namespace Registry

/-- An operation on the arena and its seats.  An operation that issues a handle is told which handles
are in use. -/
inductive Operation
  | register (new : NewInstance)
  | materialize (r : Reference) (state : NativeState)
  | destroy (h : Handle)
  | destroyReference (r : Reference)
  | setKeep (h : Handle) (keep : Keep) (operation : String)
  | issue (held : List Handle) (r : Reference) (c : Constness)
  /-- Change the handlers of an event, which exist from then on. -/
  | changeHandlers (r : Reference) (event : String) (f : Handlers → Handlers)
  /-- Change the native state of an object that has one. -/
  | changeNative (r : Reference) (f : NativeState → NativeState)
  | install (seat : Nat) (next : Option Handle)

/-- Go on with another arena. -/
def withArena (g : Registry) (a : Arena) : Registry :=
  { g with arena := a }

/-- Go on with another arena, from which an object was removed. -/
def withRemoval (g : Registry) (slot : Nat) (a : Arena) : Registry :=
  { g with arena := a, removals := Function.update g.removals slot (g.removals slot + 1) }

/-- Go on after a seat was taken. -/
def withSeat (g : Registry) (seat : Nat) : Option Instance × Seat × Arena → Registry
  | (evicted, next, a) =>
      let g' : Registry :=
        match evicted, (g.seats seat).occupant with
        | some _, some r => g.withRemoval r.slot a
        | _, _ => g.withArena a
      { g' with seats := Function.update g.seats seat next }

/-- Perform an operation.  One that fails changes nothing. -/
def step (g : Registry) : Operation → Registry
  | .register new =>
      match g.arena.register new with
      | .ok (_, a) => g.withArena a
      | .error _ => g
  | .materialize r state =>
      match g.arena.materialize r state with
      | .ok a => g.withArena a
      | .error _ => g
  | .destroy h =>
      match g.arena.destroy h with
      | .ok (_, a) => g.withRemoval h.target.slot a
      | .error _ => g
  | .destroyReference r =>
      match g.arena.destroy? r with
      | some (_, a) => g.withRemoval r.slot a
      | none => g
  | .setKeep h keep operation =>
      match g.arena.setKeep h keep operation with
      | .ok a => g.withArena a
      | .error _ => g
  | .issue held r c =>
      match g.arena.issue held r c with
      | some (_, a) => g.withArena a
      | none => g
  | .changeHandlers r event f =>
      g.withArena (g.arena.modify r fun i =>
        i.setHandlers event (f ((i.handlers? event).getD [])))
  | .changeNative r f =>
      g.withArena (g.arena.modify r fun i => { i with native := i.native.map f })
  | .install seat next =>
      match (g.seats seat).install g.arena next with
      | .ok outcome => g.withSeat seat outcome
      | .error _ => g

/-- Perform operations on the empty registry, one after the other. -/
def run (ops : List Operation) : Registry :=
  ops.foldl step {}

theorem run_append (before after : List Operation) :
    run (before ++ after) = after.foldl step (run before) := by
  rw [run, run, List.foldl_append]

/-- What an operation preserves is preserved by any number of them. -/
theorem foldl_induction {P : Registry → Prop} (hstep : ∀ g op, P g → P (g.step op))
    (ops : List Operation) (g : Registry) (hg : P g) : P (ops.foldl step g) := by
  induction ops generalizing g with
  | nil => exact hg
  | cons op ops ih => exact ih (g.step op) (hstep g op hg)

/-- What holds of the empty registry and is preserved by every operation holds after every run. -/
theorem run_induction {P : Registry → Prop} (hempty : P {})
    (hstep : ∀ g op, P g → P (g.step op)) (ops : List Operation) : P (run ops) :=
  foldl_induction hstep ops {} hempty

/-! ## What an operation does to the arena -/

theorem arena_withSeat (g : Registry) (seat : Nat) (evicted : Option Instance) (next : Seat)
    (a : Arena) : (g.withSeat seat (evicted, next, a)).arena = a := by
  simp only [withSeat]
  split <;> rfl

theorem outline_changeNative (i : Instance) (f : NativeState → NativeState) :
    ({ i with native := i.native.map f } : Instance).outline = i.outline := by
  cases hnative : i.native <;> simp [Instance.outline, hnative]

/-- An operation changes the arena by steps. -/
theorem step_path (g : Registry) (op : Operation) : Arena.Path g.arena (g.step op).arena := by
  -- A refused operation takes no step, an accepted one takes one, and only an install takes several.
  cases op with
  | register new =>
      simp only [step]
      cases hreg : g.arena.register new with
      | error e => exact Relation.ReflTransGen.refl
      | ok outcome => exact Relation.ReflTransGen.single (.register new outcome.1 hreg)
  | materialize r state =>
      simp only [step]
      cases hmat : g.arena.materialize r state with
      | error e => exact Relation.ReflTransGen.refl
      | ok a => exact Relation.ReflTransGen.single (.materialize r state hmat)
  | destroy h =>
      simp only [step]
      cases hdes : g.arena.destroy h with
      | error e => exact Relation.ReflTransGen.refl
      | ok outcome =>
          exact Relation.ReflTransGen.single
            (.destroy h.target outcome.1 (Arena.destroy_eq_ok_iff.mp hdes))
  | destroyReference r =>
      simp only [step]
      cases hdes : g.arena.destroy? r with
      | none => exact Relation.ReflTransGen.refl
      | some outcome => exact Relation.ReflTransGen.single (.destroy r outcome.1 hdes)
  | setKeep h keep operation =>
      simp only [step]
      cases hkeep : g.arena.setKeep h keep operation with
      | error e => exact Relation.ReflTransGen.refl
      | ok a => exact Relation.ReflTransGen.single (.keep h keep operation hkeep)
  | issue held r c =>
      simp only [step]
      cases hissue : g.arena.issue held r c with
      | none => exact Relation.ReflTransGen.refl
      | some outcome => exact Relation.ReflTransGen.single (.issue held r c outcome.1 hissue)
  | changeHandlers r event f =>
      exact Relation.ReflTransGen.single
        (.contents (Arena.outline_modify fun i _ => Arena.outline_setHandlers i event _))
  | changeNative r f =>
      exact Relation.ReflTransGen.single
        (.contents (Arena.outline_modify fun i _ => outline_changeNative i f))
  | install seat next =>
      simp only [step]
      cases hins : (g.seats seat).install g.arena next with
      | error e => exact Relation.ReflTransGen.refl
      | ok outcome =>
          obtain ⟨evicted, seated, a⟩ := outcome
          simp only [arena_withSeat]
          exact Seat.install_path hins

/-- A run changes the arena by steps. -/
theorem foldl_path (g : Registry) (ops : List Operation) :
    Arena.Path g.arena (ops.foldl step g).arena := by
  induction ops generalizing g with
  | nil => exact Relation.ReflTransGen.refl
  | cons op ops ih => exact (step_path g op).trans (ih (g.step op))

theorem balanced_arena_run (ops : List Operation) : (run ops).arena.Balanced :=
  Arena.balanced_empty.path (foldl_path {} ops)

/-- After every run the free list names each empty slot once and no other slot, the number of objects
is the number of slots in use, and the count of a class is the number of its objects with a native
state.  So whatever is removed was counted, a registration never misses its slot, and it never takes a
slot that is in use. -/
theorem run_balanced (ops : List Operation) :
    let a := (run ops).arena
    a.Balanced ∧
      (∀ r i a', a.destroy? r = some (i, a') →
        0 < a.live ∧ (i.isMaterialized = true → 0 < a.instanceCount i.cls)) ∧
      (∀ new, a.register new ≠ .error (.native "instance slot out of range")) ∧
      (∀ new h a', a.register new = .ok (h, a') → ¬a.Occupied h.target.slot) := by
  intro a
  have hbal : a.Balanced := balanced_arena_run ops
  refine ⟨hbal, ?_, fun new => hbal.register_ne_outOfRange new, fun new h a' hreg =>
    hbal.not_occupied_of_register hreg⟩
  intro r i a' hdes
  have hget : a.get? r = some i := (Arena.destroy?_cases hdes).1
  exact ⟨hbal.live_pos hget, hbal.instanceCount_pos hget⟩

end Registry

end ObjectBridge
