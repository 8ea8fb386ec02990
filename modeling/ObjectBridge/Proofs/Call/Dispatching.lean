import ObjectBridge.Proofs.Arena.Deeds
import ObjectBridge.Proofs.Call.Overriding
import ObjectBridge.Proofs.Call.Triggered
import ObjectBridge.Proofs.Run.Rounds

/-!
# Dispatching an event

The handlers of an event have their turns in rounds.  Which handlers these are is settled before the first round, and
so are the values that they start with, whatever the rounds do.

* `Event.queue` — the handlers, each with those that wait for it to come to its end.
* `Event.Turn` — what a handler does in its round.
* `Event.Dispatched` — the rounds of a dispatch, and the result and the state in which they end.
* `dispatched_of_delivers` — a trigger that comes to run handlers dispatches them, and does nothing else.
* `Event.Refuses` — the triggers that run no handler.
-/

namespace ObjectBridge.Event

open Run

variable {exec : Exec} {s t : State} {h : Handle} {event : String} {args values : List Value} {info : EventInfo}
  {handlers : Handlers} {x : Round (Callable × Handlers) Unit}

/-! ## The turn of a handler -/

/-- The handlers in order, each with those that come after it. -/
def queue : Handlers → List (Callable × Handlers)
  | [] => []
  | f :: rest => (f, rest) :: queue rest

theorem map_fst_queue (handlers : Handlers) : (queue handlers).map Prod.fst = handlers := by
  induction handlers with
  | nil => rfl
  | cons f rest ih => rw [queue, List.map_cons, ih]

/-- The state in which the code of a handler starts: as its body, with the values as arguments and with what it
captured as variables.  What it captured is in use, and so is what the handlers captured that wait for it. -/
def starting (s : State) (h : Handle) (values : List Value) (turn : Callable × Handlers) : State :=
  { s with
    frames := .host :: s.frames
    hostDepth := s.hostDepth + 1
    held := turn.1.values :: turn.2.values :: s.held
    activations := { mode := .host, receiver := some h, args := values, locals := turn.1.captured } :: s.activations }

/-- The state after the body that started last has come to its end. -/
def closing (s : State) : State :=
  { s with
    frames := s.frames.tail
    hostDepth := s.hostDepth - 1
    held := s.held.tail.tail
    activations := s.activations.tail }

/-- A handler has had its turn: its code has run once, from the state in which the round began. -/
inductive Turn (exec : Exec) (h : Handle) (values : List Value) (x : Round (Callable × Handlers) Unit) : Prop
  | done {u : State} (hrun : (exec x.given.1.code).outcome (starting x.before h values x.given) = (.ok (), u))
      (hresult : x.result = .ok none) (hafter : x.after = closing u)
  | failed {u : State} {e : Error}
      (hrun : (exec x.given.1.code).outcome (starting x.before h values x.given) = (.error (.raised e), u))
      (hresult : x.result = .error (.raised e)) (hafter : x.after = closing u)
  | exhausted
      (hrun : (exec x.given.1.code).outcome (starting x.before h values x.given) = (.error .exhausted, x.after))
      (hresult : x.result = .error .exhausted)

/-- Run a handler. The next one has its turn if it does not fail. -/
def handled (exec : Exec) (h : Handle) (values : List Value) (turn : Callable × Handlers) : Run (Option Unit) := do
  let _ ← holding turn.2.values (inHostFrame .host (invoke exec turn.1 (some h) values))
  return none

theorem runHandlers_eq (exec : Exec) (h : Handle) (values : List Value) (handlers : Handlers) :
    runHandlers exec h values handlers =
      (untilStop (handled exec h values) (queue handlers) >>= fun _ => pure ()) := by
  induction handlers with
  | nil => rfl
  | cons f rest ih =>
      rw [runHandlers, queue, untilStop, handled, bind_assoc, bind_assoc, ih]
      simp only [pure_bind]

/-- Below the limit the run of a handler is the run of its code. -/
theorem outcome_handled {turn : Callable × Handlers} (hbelow : s.hostDepth < s.options.maxDepth) :
    (handled exec h values turn).outcome s =
      (ended closing ((exec turn.1.code).outcome (starting s h values turn))).map (Except.map fun _ => none) id := by
  have hbelow' : (withHeld s turn.2.values).hostDepth < (withHeld s turn.2.values).options.maxDepth := hbelow
  rw [handled, outcome_map, outcome_holding_eq, Dispatch.outcome_inHostFrame_of_below .host _ hbelow',
    Dispatch.inFrame, outcome_within_eq, invoke, outcome_holding_eq, activate, outcome_within_eq, outcome_bind]
  generalize hcode : (exec turn.1.code).outcome _ = left
  have hstart : (exec turn.1.code).outcome (starting s h values turn) = left := hcode
  rw [hstart]
  obtain ⟨ending, u⟩ := left
  cases ending with
  | ok _ => rfl
  | error fault => cases fault <;> rfl

/-- Below the limit a handler runs its code. -/
theorem turn_of_runs (hbelow : x.before.hostDepth < x.before.options.maxDepth)
    (hruns : x.Runs (handled exec h values)) : Turn exec h values x := by
  obtain ⟨turn, s, result, t⟩ := x
  have hturn : (handled exec h values turn).outcome s = (result, t) := hruns
  rw [outcome_handled hbelow] at hturn
  rcases hcode : (exec turn.1.code).outcome (starting s h values turn) with ⟨ending, u⟩
  rw [hcode] at hturn
  match ending with
  | .ok _ =>
      obtain ⟨rfl, rfl⟩ := Prod.mk.inj hturn
      exact .done hcode rfl rfl
  | .error (.raised e) =>
      obtain ⟨rfl, rfl⟩ := Prod.mk.inj hturn
      exact .failed hcode rfl rfl
  | .error .exhausted =>
      obtain ⟨rfl, rfl⟩ := Prod.mk.inj hturn
      exact .exhausted hcode rfl

/-! ## The rounds of a dispatch -/

/-- The handlers have their turns in rounds, each with the same values, until one fails.  The run of the handlers is
over with the last round. -/
structure Dispatched (exec : Exec) (h : Handle) (values : List Value) (handlers : Handlers) (s : State)
    (rounds : List (Round (Callable × Handlers) Unit)) (left : Except Fault Unit × State) : Prop where
  turns : ∀ x ∈ rounds, Turn exec h values x
  /-- A handler starts with what the handlers before it have left. -/
  linked : Round.Linked s rounds
  /-- The handlers have their turns in the order of connection, and no others have. -/
  given_prefix : rounds.map Round.given <+: queue handlers
  /-- No handler has two turns. -/
  distinct : Handlers.Distinct (rounds.map fun x => x.given.1)
  /-- All of them run, or the last one that runs fails. -/
  ending : (rounds.map (fun x => x.given.1) = handlers ∧ (∀ x ∈ rounds, x.GoesOn) ∧ left.1 = .ok ()) ∨
    ∃ before last fault, rounds = before ++ [last] ∧ (∀ x ∈ before, x.GoesOn) ∧ last.result = .error fault ∧
      left.1 = .error fault
  /-- Nothing is done after the last round, and nothing at all without a round. -/
  state_eq : left.2 = (Round.ending s rounds).2

theorem orderly_handled (hexec : OrderlyAll exec) (h : Handle) (values : List Value) (turn : Callable × Handlers)
    (s : State) : Orderly (handled exec h values turn) s :=
  (takes_handler hexec.takes h turn.1 values).holding.map.orderly

/-- A turn that does not go on has failed. -/
theorem Turn.exists_fault (hturn : Turn exec h values x) (hstops : ¬x.GoesOn) : ∃ fault, x.result = .error fault := by
  cases hturn with
  | done _ hresult => exact absurd hresult hstops
  | failed _ hresult | exhausted _ hresult => exact ⟨_, hresult⟩

/-- A run that goes through handlers dispatches them. -/
theorem exists_dispatched (hexec : OrderlyAll exec) (hnum : s.classes.Numbered)
    (hbelow : s.hostDepth < s.options.maxDepth) (hdistinct : handlers.Distinct) :
    ∃ rounds, Dispatched exec h values handlers s rounds ((runHandlers exec h values handlers).outcome s) := by
  obtain ⟨rounds, hrounds, hending⟩ := exists_rounds (handled exec h values) (queue handlers) s
  have hturns : ∀ x ∈ rounds, Turn exec h values x := fun x hx =>
    turn_of_runs (hrounds.below (orderly_handled hexec h values) hnum hbelow x hx) (hrounds.runs x hx)
  have hgiven : rounds.map (fun x => x.given.1) = (rounds.map Round.given).map Prod.fst := (List.map_map ..).symm
  have hstart : rounds.map (fun x => x.given.1) <+: handlers := by
    have hmapped := hrounds.given_prefix.map Prod.fst
    rwa [map_fst_queue, ← hgiven] at hmapped
  have hleft : (runHandlers exec h values handlers).outcome s =
      (Round.ending s rounds).map (Except.map fun _ => ()) id := by
    rw [runHandlers_eq, outcome_map, hending]
  rw [hleft]
  refine ⟨rounds, hturns, hrounds.linked, hrounds.given_prefix, List.Pairwise.sublist hstart.sublist hdistinct, ?_, rfl⟩
  rcases hrounds.cases with ⟨hall, hcomplete, hok⟩ | ⟨before, last, rfl, hbefore, hlast, hend⟩
  · refine Or.inl ⟨?_, hall, congrArg (Except.map fun _ => ()) hok⟩
    rw [hgiven, hcomplete, map_fst_queue]
  · obtain ⟨fault, hfault⟩ := (hturns last (List.mem_append_right _ (List.mem_singleton_self _))).exists_fault hlast
    exact Or.inr ⟨before, last, fault, rfl, hbefore, hfault, by rw [hend, hfault]; rfl⟩

/-- A trigger that comes to run handlers dispatches them, and then lets go of what it has held for them. -/
theorem dispatched_of_delivers (hexec : OrderlyAll exec)
    (hdelivers : Delivers exec s h event args t info values handlers) (hnum : t.classes.Numbered)
    (hbelow : t.hostDepth < t.options.maxDepth) (hdistinct : handlers.Distinct) :
    ∃ rounds left, Dispatched exec h values handlers (dispatching t h args values) rounds left ∧
      (trigger exec h event args).outcome s = ended withoutHeld left := by
  obtain ⟨rounds, hdispatched⟩ := exists_dispatched (s := dispatching t h args values) hexec hnum hbelow hdistinct
  exact ⟨rounds, _, hdispatched, hdelivers.outcome_eq⟩

/-! ## Triggers that run no handler -/

/-- The deferred constructor of an object is out of the way for a trigger: the object has its native state, or has
obtained it, in the state `t`. -/
def Prepared (exec : Exec) (s : State) (h : Handle) (event : String) (args : List Value) (t : State) : Prop :=
  (holding args (Lifetime.materialize exec h event)).outcome s = (.ok (), t)

/-- The triggers that are refused.  Each ends with the error of the first check that fails, and leaves the state as
the check found it, whatever the code of handlers would do. -/
structure Refuses (exec : Exec) (s : State) : Prop where
  gone : ∀ h event args, s.arena.get? h.target = none →
    (trigger exec h event args).outcome s = (.error (.raised (Arena.useAfterFree h event)), s)
  /-- Nothing happens before the checks if the object has its native state. -/
  prepared : ∀ h i event args, s.arena.get? h.target = some i → i.isMaterialized = true →
    Prepared exec s h event args s
  undeclared : ∀ h event args t, Prepared exec s h event args t → t.classes.findEvent h.cls event = none →
    (trigger exec h event args).outcome s = (.error (.raised (.noSuchEvent h.className event)), t)
  miscounted : ∀ h event args t info, Prepared exec s h event args t →
    t.classes.findEvent h.cls event = some info → args.length ≠ info.params.length →
    (trigger exec h event args).outcome s =
      (.error (.raised (wrongNumber h.className event info.params.length args.length)), t)
  unconverted : ∀ h event args t info e, Prepared exec s h event args t →
    t.classes.findEvent h.cls event = some info → args.length = info.params.length →
    convertArgs t.toWorld h.className event 1 (info.params.zip args) = .error e →
    (trigger exec h event args).outcome s = (.error (.raised e), t)
  /-- The deferred constructor may have destroyed the object. -/
  lost : ∀ h event args t info values, Prepared exec s h event args t →
    t.classes.findEvent h.cls event = some info → args.length = info.params.length →
    convertArgs t.toWorld h.className event 1 (info.params.zip args) = .ok values →
    t.arena.get? h.target = none →
    (trigger exec h event args).outcome s = (.error (.raised (Arena.useAfterFree h event)), t)

theorem refuses (exec : Exec) (s : State) : Refuses exec s where
  gone := by
    intro h event args hgone
    have hmat : (Lifetime.materialize exec h event).outcome (withHeld s args) =
        (.error (.raised (Arena.useAfterFree h event)), withHeld s args) :=
      Lifetime.outcome_materialize_of_gone (s := withHeld s args) hgone exec event
    exact outcome_bind_of_error (outcome_holding_of_raised hmat) _
  prepared := by
    intro h i event args hi hmade
    exact outcome_holding_of_ok (Lifetime.outcome_materialize (s := withHeld s args) hi hmade event)
  undeclared := by
    intro h event args t hprepared hnone
    rw [trigger, outcome_bind_of_ok hprepared]
    exact outcome_bind_of_error (outcome_declaration_of_none hnone) _
  miscounted := by
    intro h event args t info hprepared hsome hlength
    rw [trigger, outcome_bind_of_ok hprepared, outcome_bind_of_ok (outcome_declaration_of_some hsome), if_pos hlength]
    rfl
  unconverted := by
    intro h event args t info e hprepared hsome hlength hconv
    rw [trigger, outcome_bind_of_ok hprepared, outcome_bind_of_ok (outcome_declaration_of_some hsome)]
    simp only [ne_eq, hlength, not_true_eq_false, if_false]
    rw [outcome_get_bind, hconv]
    rfl
  lost := by
    intro h event args t info values hprepared hsome hlength hconv hgone
    rw [trigger, outcome_bind_of_ok hprepared, outcome_bind_of_ok (outcome_declaration_of_some hsome)]
    simp only [ne_eq, hlength, not_true_eq_false, if_false]
    rw [outcome_get_bind, hconv]
    exact outcome_bind_of_error (Lifetime.outcome_resolve_of_none hgone event) _

end ObjectBridge.Event
