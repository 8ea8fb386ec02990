import ObjectBridge.Proofs.Call.Passing
import ObjectBridge.Proofs.Session.Moments

/-!
# The discipline of frames

At every moment of a session the frames are those of the bodies that run, and their host code is nested no deeper
than the limit.  Whatever runs, the frames are the same before and after.  Host code that would exceed the limit
does not run, and leaves the state as it was.

* `State.Framed` — the frames at a moment.
* `Run.Restores` and `Run.Restoring` — what operations leave of the frames.
* `Run.Refusing` — host code beyond the limit.
* `Session.Reachable.frames_restored` — the discipline.
-/

namespace ObjectBridge

/-- The frames are those of the bodies that run, and the depth is the number of those of host code, which is within
the limit. -/
structure State.Framed (s : State) : Prop where
  depth_eq : s.hostDepth = s.frames.countP Frame.isHost
  depth_le : s.hostDepth ≤ s.options.maxDepth
  belongs : List.Forall₂ Running.Belongs s.frames (s.running.bodies.filter Running.hasFrame)

namespace Run

variable {α : Type} {s : State} {exec : Exec}

/-! ## Frames that are restored -/

/-- When a run comes to its end, with a result or an error, the frames are what they were. -/
def Restores (act : Run α) (s : State) : Prop :=
  ∀ r t, act.outcome s = (r, t) → r ≠ .error .exhausted →
    t.frames = s.frames ∧ t.hostDepth = s.hostDepth

theorem Orderly.restores {act : Run α} (hact : Orderly act s) (hnum : s.classes.Numbered) :
    Restores act s := by
  intro r t hrun hended
  have hsame := (hact hnum).2
  rw [hrun] at hsame
  exact ⟨congrArg Running.frames (hsame hended), congrArg Running.hostDepth (hsame hended)⟩

/-- All that may run a body restores the frames: evaluations and bodies themselves, the operations on objects, the
calls, iterations with a block, and events. -/
structure Restoring (I : Script.Interpreter) (s : State) : Prop where
  eval : ∀ e, Restores (I.eval e) s
  exec : ∀ code, Restores (I.exec code) s
  operations : Script.Operations (Restores · s) I
  modifyHandlers : ∀ h event operation f,
    Restores (Event.modifyHandlers I.exec h event operation f) s

theorem restoring_of_orderlyAll {I : Script.Interpreter} (hI : I.OrderlyAll)
    (hnum : s.classes.Numbered) : Restoring I s where
  eval e := (hI.eval e s).restores hnum
  exec code := (hI.exec code s).restores hnum
  operations := Script.operations_of_takes hI.exec.takes fun hact => hact.orderly.restores hnum
  modifyHandlers _ _ _ _ := (Event.takes_modifyHandlers hI.exec.takes True.intro).orderly.restores hnum

/-! ## Host code beyond the limit -/

/-- The error of host code that is nested too deep. -/
def tooDeep (s : State) : Error :=
  .native ("dispatch depth limit exceeded (" ++ Text.naturalText s.options.maxDepth ++ ")")

theorem outcome_inHostFrame_of_limit (frame : Frame) (act : Run α)
    (hlimit : s.options.maxDepth ≤ s.hostDepth) :
    (inHostFrame frame act).outcome s = (.error (.raised (tooDeep s)), s) := by
  rw [inHostFrame, outcome_get_bind, if_pos hlimit]
  rfl

/-- Host code that would exceed the limit ends with the error for it, whatever way bodies run. The state is as
before, but for boxes that were made to hold arguments for the code and that nothing else refers to. -/
structure Refusing (exec : Exec) (s : State) : Prop where
  override : ∀ recv f params values, ∃ cells : Cells,
    (∀ b < s.cells.size, cells.content b = s.cells.content b) ∧
      (Dispatch.runOverride exec recv f params values).outcome s =
        (.error (.raised (tooDeep s)), { s with cells := cells })
  handler : ∀ h values f rest,
    (Event.runHandlers exec h values (f :: rest)).outcome s = (.error (.raised (tooDeep s)), s)
  block : ∀ (I : Script.Interpreter) code item,
    (inHostFrame .host (I.runBlock code item)).outcome s = (.error (.raised (tooDeep s)), s)
  /-- The iteration ends with the first item that is delivered to a block. -/
  iteration : ∀ result owner method (block : Value → Run (Option Value)) stream item rest v s₀,
    stream.next? = some (.ok item, rest) →
    (Delivery.giveBack exec result owner method item).outcome (withHeld s₀ rest.values) = (.ok v, s) →
    (Stream.drive exec result owner method block stream).outcome s₀ =
      (.error (.raised (tooDeep s)), withoutHeld s)

theorem refusing_of_limit (exec : Exec) (hlimit : s.options.maxDepth ≤ s.hostDepth) :
    Refusing exec s where
  override := by
    intro recv f params values
    obtain ⟨sent, t, houtward, -, -, hcontents, ht⟩ :=
      Delivery.exists_outcome_outward params values s
    refine ⟨t.cells, hcontents, ?_⟩
    -- Sending the arguments adds boxes, but changes neither the frames nor the options.
    have hlimit' : (withHeld t (values ++ sent)).options.maxDepth ≤
        (withHeld t (values ++ sent)).hostDepth := by
      rw [ht]
      exact hlimit
    have hrefused := outcome_holding_of_raised (outcome_inHostFrame_of_limit (.override recv.target)
      (Run.invoke exec f (some recv) sent) hlimit')
    rw [Dispatch.runOverride, outcome_bind_of_ok houtward, outcome_bind_of_error hrefused, ← ht]
    have hsame : tooDeep (withHeld t (values ++ sent)) = tooDeep s := by
      rw [ht]
      rfl
    rw [hsame]
    rfl
  handler := by
    intro h values f rest
    have hrefused : (inHostFrame .host (Run.invoke exec f (some h) values)).outcome (withHeld s (Handlers.values rest)) =
        (.error (.raised (tooDeep s)), withHeld s (Handlers.values rest)) :=
      outcome_inHostFrame_of_limit (s := withHeld s (Handlers.values rest)) .host _ hlimit
    exact outcome_bind_of_error (outcome_holding_of_raised hrefused) _
  block := by
    intro I code item
    exact outcome_inHostFrame_of_limit .host _ hlimit
  iteration := by
    intro result owner method block stream item rest v s₀ hnext hdelivered
    have hitem : (do
        let item ← Delivery.giveBack exec result owner method (← ofExcept (.ok item))
        inHostFrame .host (block item)).outcome (withHeld s₀ rest.values) =
        (.error (.raised (tooDeep s)), s) := by
      show (Delivery.giveBack exec result owner method item >>= fun item =>
        inHostFrame .host (block item)).outcome (withHeld s₀ rest.values) = _
      rw [outcome_bind_of_ok hdelivered]
      exact outcome_inHostFrame_of_limit .host _ hlimit
    rw [Stream.drive_of_some hnext]
    exact outcome_bind_of_error (outcome_holding_of_raised hitem) _

end Run

namespace Session

open Run

variable {s t : State}

/-- At every moment of a session, and wherever the steps of a run lead from there, the frames are those of the bodies
that run, and host code is nested within the limit. Whatever may run a body then leaves the frames as they are when
it comes to its end. Wherever host code is nested as deep as the limit allows, no more of it runs. -/
theorem Reachable.frames_restored (hs : Reachable s) (hpath : s.Path t) :
    t.Framed ∧ (∀ budget, Restoring (Script.interpreter budget) t) ∧
      ∀ (exec : Exec) (u : State), u.options.maxDepth ≤ u.hostDepth → Refusing exec u := by
  have hnested := hpath.nested hs.nested
  refine ⟨⟨hnested.hostDepth_eq, hnested.hostDepth_le, hnested.forall₂_frames⟩, ?_, ?_⟩
  · exact fun budget =>
      restoring_of_orderlyAll (Script.interpreter_orderly budget) (hpath.numbered hs.numbered)
  · exact fun exec u hlimit => refusing_of_limit exec hlimit

/-- The override runs in its frame, and so the depth is one. -/
theorem framed_insideOverride :
    insideOverride.2.frames = [.override overridingObject.target] ∧
      State.Framed { insideOverride.2 with stepsLeft := none } := by
  have hstopped : insideOverride = (.error .exhausted, insideOverride.2) :=
    Prod.ext (eq_of_isStopped (by decide +kernel)) rfl
  refine ⟨by decide +kernel, ?_⟩
  exact (Reachable.frames_restored (.during between_overridingRun 6 2 _ hstopped) .refl).1

end Session

end ObjectBridge
