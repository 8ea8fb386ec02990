import ObjectBridge.Proofs.Script.Identical
import ObjectBridge.Proofs.Session.Moments

/-!
# Objects stay while a body runs

A construction sweeps only where no body has a frame.  So a body that does not ask for a removal, and leads to no body
that does, ends with all the objects that were there when it started, in the same generation, however many objects it
constructs and whatever it drops.

* `Knowledge.sparing` — what is known of a run that is stopped when it asks for a removal.
* `Body.run` — the bodies that run in a frame.
* `bodies_remove_nothing` — the result.
-/

namespace ObjectBridge

open Run Mirror

/-- Whether a request removes objects. -/
def Script.Request.removes : Script.Request → Bool
  | .destroy _ | .reclaim | .install _ _ _ => true
  | _ => false

/-- While some body runs, and as long as it asks for no removal, the objects of an arena are still there. -/
def Knowledge.sparing (base : Arena) : Knowledge where
  refuses _ r := r.removes
  removes := False
  classes _ := True
  native _ _ _ := True
  kept a := a.Balanced ∧ ∀ r, base.isLive r = true → a.isLive r = true
  native_some _ _ _ := trivial
  native_none _ _ := trivial
  native_snoc _ _ := trivial
  snoc _ _ _ := trivial
  kept_spares h hspares := ⟨h.1.step hspares.step, fun r hlive => hspares.isLive h.1 (h.2 r hlive)⟩
  kept_step h := h.elim
  destroy h := Bool.noConfusion h
  reclaim h := Bool.noConfusion h
  install h := Bool.noConfusion h

open Knowledge

namespace Session

/-! ## Bodies -/

/-- A body that runs in a frame of its own: native code, be it of a method, a constructor or a deferred constructor, an
override, a handler of an event, or a block. -/
inductive FramedBody where
  | native (recv : Option Handle) (args : List Value) (code : Code)
  | override (recv : Handle) (f : Callable) (args : List Value)
  | handler (recv : Handle) (f : Callable) (args : List Value)
  | block (code : Code) (item : Value)

/-- Run a body to its end. -/
def FramedBody.run (I : Script.Interpreter) : FramedBody → Run Unit
  | native recv args code => do
      let _ ← Lifetime.runNative I.exec recv args code
  | override recv f args => do
      let _ ← inHostFrame (.override recv.target) (Run.invoke I.exec f (some recv) args)
  | handler recv f args => do
      let _ ← inHostFrame .host (Run.invoke I.exec f (some recv) args)
  | block code item => do
      let _ ← inHostFrame .host (I.runBlock code item)

/-- If the first run is not stopped, the second one ends in the same way, and the objects that were there when it
started are there when it ends. -/
def Keeps {α : Type} (act act' : Run α) (s : State) : Prop :=
  (act.outcome s).1 ≠ .error .exhausted →
    (act'.outcome s).1 = (act.outcome s).1 ∧
      ∀ r, s.arena.isLive r = true → (act'.outcome s).2.arena.isLive r = true

variable {α β : Type} {act act' : Run α} {s : State}

/-- What is made of the result of a body changes nothing. -/
theorem Keeps.map {g : α → β} (h : Keeps act act' s) :
    Keeps (act >>= fun x => pure (g x)) (act' >>= fun x => pure (g x)) s := by
  intro hended
  obtain ⟨hsame, hlive⟩ := h (ended_of_bind hended)
  rcases heq : act.outcome s with ⟨result, t⟩
  rcases heq' : act'.outcome s with ⟨result', t'⟩
  rw [heq, heq'] at hsame
  rw [heq'] at hlive
  obtain rfl : result' = result := hsame
  cases result' with
  | ok x =>
      rw [outcome_bind_of_ok heq, outcome_bind_of_ok heq']
      exact ⟨rfl, hlive⟩
  | error fault =>
      rw [outcome_bind_of_error heq, outcome_bind_of_error heq']
      exact ⟨rfl, hlive⟩

/-- A body keeps all objects in a frame of its own. -/
theorem keeps_within {enter leave : State → State} (hact : ∀ base t t', (sparing base).mirror.Follows act act' t t')
    (hbal : s.arena.Balanced) (henter : (enter s).arena = s.arena ∧ (enter s).frames ≠ [])
    (hleave : ∀ t, (leave t).arena = t.arena) : Keeps (within enter leave act) (within enter leave act') s := by
  intro hended
  have hfirst := ended_of_within hended
  have hholds (w : World) : (sparing (enter s).arena).Holds w := ⟨trivial, fun _ _ _ _ => trivial⟩
  have hstart : (sparing (enter s).arena).mirror.Between (enter s) (enter s) :=
    between_self (hholds _) (fun _ _ => hholds _) ⟨by rwa [henter.1], fun _ hlive => hlive⟩ (Or.inr henter.2)
  obtain ⟨hsame, hbetween, -⟩ := hact _ _ _ hstart hfirst
  rw [outcome_within, outcome_within]
  rcases heq : act.outcome (enter s) with ⟨result, t⟩
  rcases heq' : act'.outcome (enter s) with ⟨result', t'⟩
  rw [heq, heq'] at hsame hbetween
  rw [heq] at hfirst
  obtain rfl : result' = result := hsame
  have hlive (r : Reference) (hr : s.arena.isLive r = true) : (leave t').arena.isLive r = true := by
    rw [hleave, hbetween.arena.isLive_eq]
    exact hbetween.kept.2 r (by rwa [henter.1])
  match result' with
  | .ok x => exact ⟨rfl, hlive⟩
  | .error (.raised e) => exact ⟨rfl, hlive⟩
  | .error .exhausted => exact absurd rfl hfirst

theorem keeps_inHostFrame (frame : Frame) (hact : ∀ base t t', (sparing base).mirror.Follows act act' t t')
    (hbal : s.arena.Balanced) : Keeps (inHostFrame frame act) (inHostFrame frame act') s := by
  unfold inHostFrame
  rw [Keeps, outcome_get_bind, outcome_get_bind]
  split
  · exact fun _ => ⟨rfl, fun _ hr => hr⟩
  · exact keeps_within hact hbal ⟨rfl, List.cons_ne_nil _ _⟩ fun _ => rfl

/-- Every body that is not stopped keeps all objects. -/
theorem keeps_run (b : FramedBody) (budget : Nat) (hbal : s.arena.Balanced) :
    Keeps (b.run (Script.restricted (fun _ r => r.removes) budget)) (b.run (Script.interpreter budget)) s := by
  have hI (base : Arena) := leads (sparing base) 0 budget
  cases b with
  | native recv args code =>
      refine Keeps.map (keeps_within (fun base t t' => ?_) hbal ⟨rfl, List.cons_ne_nil _ _⟩ fun _ => rfl)
      exact Follows.activate ((hI base).makes.bodies code)
  | override recv f args =>
      exact Keeps.map (keeps_inHostFrame _ (fun base _ _ => follows_invoke (hI base).makes.bodies f _ args) hbal)
  | handler recv f args =>
      exact Keeps.map (keeps_inHostFrame _ (fun base _ _ => follows_invoke (hI base).makes.bodies f _ args) hbal)
  | block code item =>
      refine Keeps.map (keeps_inHostFrame _ (fun base _ _ => ?_) hbal)
      exact (Follows.activate ((hI base).makes.bodies code)).map

/-- Where a body has a frame, a construction neither counts nor sweeps. -/
theorem outcome_countConstruction_of_frame (hs : s.running.Nested) {body : Mode × Option Handle}
    (hbody : body ∈ s.running.bodies) (hframe : Running.hasFrame body = true) :
    Lifetime.countConstruction.outcome s = (.ok (), s) := by
  have hlength := hs.forall₂_frames.length_eq
  have hsome : body ∈ s.running.bodies.filter Running.hasFrame := List.mem_filter.mpr ⟨hbody, hframe⟩
  have hnonempty : s.frames.isEmpty = false := by
    cases hframes : s.frames with
    | nil =>
        rw [show s.running.frames = [] from hframes, List.length_nil] at hlength
        rw [List.length_eq_zero_iff.mp hlength.symm] at hsome
        cases hsome
    | cons frame rest => rfl
  rw [Lifetime.countConstruction, outcome_get_bind, if_pos (Or.inr (by rw [hnonempty]; rfl))]
  rfl

/-- No object is removed behind the back of a body.  At every moment of a session, a construction sweeps only if no
native code, no constructor, no deferred constructor, no override, no handler and no block runs.  So when such a body
ends, all objects that were there when it started are still there, in the same generation, unless the body, or something
that it led to, asked for an object to be destroyed, for a sweep or for a seat to be taken. -/
theorem bodies_remove_nothing :
    (∀ s : State, Reachable s → s.arena.Balanced ∧ s.running.Nested) ∧
      (∀ s : State, s.running.Nested → ∀ body ∈ s.running.bodies, Running.hasFrame body = true →
        Lifetime.countConstruction.outcome s = (.ok (), s)) ∧
      ∀ (s : State), s.arena.Balanced → ∀ (b : FramedBody) (budget : Nat),
        ((b.run (Script.restricted (fun _ r => r.removes) budget)).outcome s).1 ≠ .error .exhausted →
          ((b.run (Script.interpreter budget)).outcome s).1 =
              ((b.run (Script.restricted (fun _ r => r.removes) budget)).outcome s).1 ∧
            ∀ r, s.arena.isLive r = true →
              ((b.run (Script.interpreter budget)).outcome s).2.arena.isLive r = true :=
  ⟨fun _ hs => ⟨hs.balanced, hs.nested⟩, fun _ hs _ hbody hframe => outcome_countConstruction_of_frame hs hbody hframe,
    fun _ hbal b budget => keeps_run b budget hbal⟩

/-! ## A body that constructs -/

/-- Drop the object in the variable `x` and construct two more. -/
def makingCode : Code :=
  [.perform (.drop "x") none, .perform (.call (.construct (.named "Node") [] [])) none,
    .perform (.call (.construct (.named "Node") [] [])) none]

/-- A class with a constructor, and with a method that runs this code. -/
def makingClass : Script.ClassSpec Script.Expr Script.Stmt := {
  name := "Node"
  shape := .script
  members := [.constructor {} [.ret (.map [])], .method "make" {} makingCode] }

/-- A session that sweeps at every construction, with an object in the variable `x`. -/
@[irreducible]
def makingRun : Except Fault Value × State :=
  andThen (start { autoReclaim := 1 } []) 8 (.list [
    .perform (.defineClass makingClass) none,
    .perform (.call (.construct (.named "Node") [] [])) (some "x")])

theorem between_makingRun : Between makingRun.2 := by
  unfold makingRun
  exact (Between.start { autoReclaim := 1 } []).andThen (by decide +kernel)

/-- The session inside of the method, while a constructor runs. -/
def insideMaking : Except Fault Value × State :=
  ((Script.interpreter 8).eval (callOn "x" "make" [])).outcome { makingRun.2 with log := [], stepsLeft := some 6 }

/-- Nothing is swept inside of the method, and the object stays when the code drops it. -/
theorem making_removes_nothing :
    Reachable { insideMaking.2 with stepsLeft := none } ∧
      Lifetime.countConstruction.outcome { insideMaking.2 with stepsLeft := none } =
        (.ok (), { insideMaking.2 with stepsLeft := none }) ∧
      (((FramedBody.native none [] makingCode).run (Script.interpreter 8)).outcome makingRun.2).2.arena.isLive
        ⟨0, 0⟩ = true := by
  obtain ⟨hmoments, hframes, hkeeps⟩ := bodies_remove_nothing
  have hstopped : insideMaking = (.error .exhausted, insideMaking.2) :=
    Prod.ext (eq_of_isStopped (by decide +kernel)) rfl
  have hinside : Reachable { insideMaking.2 with stepsLeft := none } :=
    .during between_makingRun 8 6 _ hstopped
  have hended : isStopped (((FramedBody.native none [] makingCode).run
      (Script.restricted (fun _ r => r.removes) 8)).outcome makingRun.2).1 = false := by decide +kernel
  refine ⟨hinside, hframes _ (hmoments _ hinside).2 (.native, none) (by decide +kernel) rfl, ?_⟩
  refine (hkeeps makingRun.2 (hmoments _ (.between between_makingRun)).1 (.native none [] makingCode) 8 ?_).2 ⟨0, 0⟩
    (by decide +kernel)
  intro hsame
  rw [hsame] at hended
  cases hended

end Session

end ObjectBridge
