import ObjectBridge.Proofs.Call.Dispatching
import ObjectBridge.Proofs.Session.Handlers
import ObjectBridge.Proofs.Session.Moments

/-!
# Events are dispatched

A trigger that passes its checks runs the handlers that are connected then, whatever they do to the connections and to
the object, and one that does not runs none.

* `Event.Dispatches` — the triggers that run handlers.
* `Reachable.dispatches` — all moments of sessions, all triggers and all handlers.
* `dispatched_after_clear` — handlers that are disconnected during the dispatch, and whose object is destroyed.
-/

namespace ObjectBridge

open Run

/-- Below the limit, a trigger of a declared event with arguments that can be converted dispatches the handlers that
are connected to an object with its native state.  It ends with the last round, and leaves the state that this one has
left, less the values that were held for the handlers. -/
def Event.Dispatches (exec : Exec) (s : State) : Prop :=
  ∀ h i event info args values, s.arena.get? h.target = some i → i.isMaterialized = true →
    s.classes.findEvent h.cls event = some info → args.length = info.params.length →
    convertArgs s.toWorld h.className event 1 (info.params.zip args) = .ok values →
    s.hostDepth < s.options.maxDepth →
    ∃ rounds left, Dispatched exec h values (i.connected event) (dispatching s h args values) rounds left ∧
      (trigger exec h event args).outcome s = ended withoutHeld left

namespace Session

variable {s : State}

/-- No handler is connected twice, at any moment of a session. -/
theorem Reachable.distinct_connected (hs : Reachable s) {r : Reference} {i : Instance} (hi : s.arena.get? r = some i)
    (event : String) : (i.connected event).Distinct := by
  obtain ⟨ds, -, hdoes⟩ := hs.may (P := fun _ _ _ => True) fun _ _ _ => trivial
  exact hdoes.orderedSets.distinct r i event hi

/-- At every moment of a session a trigger that passes its checks runs the handlers that are connected then, each of
them once and in the order of connection, up to the first one that fails, and ends as that one does, with the result and
the state.  A trigger that does not pass them runs no handler. -/
theorem Reachable.dispatches (hs : Reachable s) :
    (∀ budget, Event.Dispatches (Script.interpreter budget).exec s) ∧ ∀ exec, Event.Refuses exec s := by
  refine ⟨fun budget => ?_, fun exec => Event.refuses exec s⟩
  intro h i event info args values hi hmade hdeclared hlength hconverted hbelow
  have hmaterialized := (Event.refuses (Script.interpreter budget).exec s).prepared h i event args hi hmade
  exact Event.dispatched_of_delivers (Script.interpreter_orderly budget).exec
    ⟨hmaterialized, hdeclared, hlength, hconverted, i, hi, rfl⟩ hs.numbered hbelow (hs.distinct_connected hi event)

/-! ## A handler that disconnects the others -/

/-- A class with an event that hands over a number. -/
def steppingClass : Script.ClassSpec Script.Expr Script.Stmt := {
  name := "Node"
  shape := .script
  members := [.event "moved" [{ name := "step", type := .int .int32 }]] }

/-- A session that connects three handlers to the event of an object.  The first one changes its argument, disconnects
all of them and destroys the object. -/
@[irreducible]
def steppingRun : Except Fault Value × State :=
  andThen (start {} []) 6 (.list [
    .perform (.defineClass steppingClass) none,
    .perform (.create (.named "Node") .script (.map []) false) (some "x"),
    .perform (.callable "f" [
      .perform (.setArg 0 (.lit (.int 7))) none,
      .perform (.eventClear (.var "x") "moved") none,
      .perform (.destroy (.var "x")) none]) none,
    .perform (.callable "g" [.perform (.log (.arg 0)) none]) none,
    .perform (.callable "k" [.perform (.log (.arg 0)) none]) none,
    .perform (.eventAdd (.var "x") "moved" "f") none,
    .perform (.eventAdd (.var "x") "moved" "g") none,
    .perform (.eventAdd (.var "x") "moved" "k") none])

/-- The object in the variable `x` of the session. -/
def steppingObject : Handle := ⟨⟨0, ⟨0, ⟨0, 0⟩⟩, 0, "Node"⟩, false⟩

/-- The state in which a trigger with one number has ended, and whether it has ended well. -/
def steppedRun : Except Fault Unit × State :=
  (Event.trigger (Script.interpreter 6).exec steppingObject "moved" [.int 1]).outcome steppingRun.2

/-- The three handlers are connected to an event with one parameter.  In the end the object is gone, and the last two
handlers have logged the number that the trigger was given. -/
theorem steppingRun_spec :
    steppingRun.1.isOk = true ∧ steppingRun.2.hostDepth < steppingRun.2.options.maxDepth ∧
      (steppingRun.2.arena.get? steppingObject.target).map (fun i =>
        (i.isMaterialized, (i.connected "moved").map Callable.serial)) = some (true, [0, 1, 2]) ∧
      (steppingRun.2.classes.findEvent 0 "moved").map (fun info => (info.params.length,
        (Event.convertArgs steppingRun.2.toWorld "Node" "moved" 1 (info.params.zip [.int 1])).toOption.map fun values =>
          values.map Value.int64?)) = some (1, some [some 1]) ∧
      steppedRun.1.isOk = true ∧ steppedRun.2.arena.isDestroyed steppingObject = true ∧
      steppedRun.2.log.map (fun entry => entry.2.int64?) = [some 1, some 1] := by
  decide +kernel

theorem between_steppingRun : Between steppingRun.2 := by
  have hok := steppingRun_spec.1
  unfold steppingRun at hok ⊢
  exact (Between.start {} []).andThen hok

/-- All three handlers have their turns with the number, though the first one takes it away from its own arguments,
disconnects all of them and destroys the object. -/
theorem dispatched_after_clear :
    Reachable steppingRun.2 ∧ ∃ i values rounds left,
      steppingRun.2.arena.get? steppingObject.target = some i ∧ values.map Value.int64? = [some 1] ∧
      Event.Dispatched (Script.interpreter 6).exec steppingObject values (i.connected "moved")
        (Event.dispatching steppingRun.2 steppingObject [.int 1] values) rounds left ∧
      steppedRun = ended withoutHeld left ∧
      rounds.map (fun x => x.given.1.serial) = [0, 1, 2] ∧ (∀ x ∈ rounds, x.GoesOn) ∧
      steppedRun.2.arena.isDestroyed steppingObject = true := by
  obtain ⟨-, hbelow, hconnected, hdeclared, hok, hgone, -⟩ := steppingRun_spec
  obtain ⟨i, hi, hfacts⟩ := Option.map_eq_some_iff.mp hconnected
  obtain ⟨hmade, hserials⟩ := Prod.mk.inj hfacts
  obtain ⟨info, hinfo, hfacts⟩ := Option.map_eq_some_iff.mp hdeclared
  obtain ⟨hlength, hconverted⟩ := Prod.mk.inj hfacts
  obtain ⟨values, hvalues, hone⟩ := Option.map_eq_some_iff.mp hconverted
  have hs : Reachable steppingRun.2 := .between between_steppingRun
  obtain ⟨rounds, left, hdispatched, hleft⟩ := hs.dispatches.1 6 steppingObject i "moved" info [.int 1] values hi hmade
    hinfo hlength.symm (eq_ok_of_toOption hvalues) hbelow
  have hstepped : steppedRun = ended withoutHeld left := hleft
  refine ⟨hs, i, values, rounds, left, hi, hone, hdispatched, hstepped, ?_⟩
  rcases hdispatched.ending with ⟨hgiven, hall, -⟩ | ⟨-, -, fault, -, -, -, hfault⟩
  · refine ⟨?_, hall, hgone⟩
    rw [← hserials, ← hgiven, List.map_map]
    rfl
  · -- The trigger has not failed.
    rw [hstepped, fst_ended, hfault] at hok
    cases hok

end Session

end ObjectBridge
