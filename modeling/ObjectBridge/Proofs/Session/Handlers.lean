import ObjectBridge.Proofs.Script.Course
import ObjectBridge.Proofs.Session.Reachable

/-!
# Handlers are ordered sets

The handlers of an event of an object are those that the successful operations make up which were addressed to the
object and the event since the object was stored.

* `Arena.OrderedSets` — what this means for the objects of an arena with a history.
* `Event.Recorded` — what every operation adds to a history.
* `Session.handlers_ordered_sets` — all histories, all states of sessions and all operations.
-/

namespace ObjectBridge

open Run

/-! ## Histories -/

/-- The handlers of all objects of an arena are ordered sets, each made up by the entries of a history that are
addressed to it. -/
structure Arena.OrderedSets (ds : List Deed) (a : Arena) : Prop where
  /-- The changes since the object was stored make the handlers up, beginning with none. -/
  connected_eq : ∀ r i event, a.get? r = some i →
    i.connected event = (Deed.changes r event ds).foldl Handlers.change []
  distinct : ∀ r i event, a.get? r = some i → (i.connected event).Distinct
  /-- What was removed is not connected, unless a later change connects it again. -/
  removed : ∀ r i event f before after, ds = before ++ .change r event (.remove f) :: after →
    (∀ d ∈ after, ∀ c ∈ d.change? r event, c.connects f = false) →
    a.get? r = some i → (i.connected event).contains f = false
  /-- What is done to other objects, to former objects of the slot and to other events has no effect. -/
  elsewhere : ∀ r i event before after, ds = before ++ after →
    (∀ d ∈ after, d.stores r = false ∧ d.change? r event = none) →
    a.get? r = some i → i.connected event = Deed.handlers r event before
  /-- No former object had the reference of an object, as long as no generation of the slot is used up. -/
  once : ∀ r, (a.slotAt r.slot).removals < 2 ^ 32 → ds.countP (Deed.stores r) ≤ 1

theorem Arena.Does.orderedSets {ds : List Deed} {a : Arena} (hdoes : Does {} ds a) : a.OrderedSets ds where
  connected_eq r i event hi := hdoes.connected_eq hi event
  distinct r i event hi := by
    rw [hdoes.connected_eq hi]
    exact Deed.distinct_handlers r event ds
  removed r i event f before after hds hagain hi := by
    rw [hdoes.connected_eq hi, hds]
    exact Deed.contains_handlers_of_removed hagain
  elsewhere r i event before after hds helsewhere hi := by
    rw [hdoes.connected_eq hi, hds]
    exact Deed.handlers_append_of_elsewhere helsewhere
  once := hdoes.countP_stores_le_one

/-! ## Operations -/

namespace Event

/-- What operations add to a history, from a state on.  The bodies that they run add what they do. -/
structure Recorded (I : Script.Interpreter) (s : State) : Prop where
  /-- An operation that sets, adds, removes or clears handlers adds one entry if it succeeds, and none if it
  fails. -/
  change : ∀ h event operation (c : Handlers.Change) r t,
    (modifyHandlers I.exec h event operation fun hs => hs.change c).outcome s = (r, t) →
      ∃ ds u, s.arena.Does ds u.arena ∧
        Changes I.exec s h event operation (fun hs => hs.change c) (some c) u r t
  /-- An operation that only looks at handlers adds none. -/
  look : ∀ h event operation r t,
    (modifyHandlers I.exec h event operation id).outcome s = (r, t) →
      ∃ ds u, s.arena.Does ds u.arena ∧ Changes I.exec s h event operation id none u r t
  /-- A copy of an object is stored without handlers. -/
  dup : ∀ h k t, (Lifetime.dup I.exec h).outcome s = (.ok k, t) →
    ∃ ds u, (Lifetime.materialize I.exec h "dup").outcome s = (.ok (), u) ∧ s.arena.Does ds u.arena ∧
      u.arena.Act [.store k.target] t.arena
  /-- All other operations store objects and run bodies, and add nothing else. -/
  weaves : Script.Operations (Weaves I.exec · s) I
  /-- Where the bodies keep to some changes, so does every other operation. -/
  leaves : ∀ P, I.PerformsAll P → Script.Operations (Performs P · s) I

theorem recorded_of_performsAll {P : Reference → String → Handlers.Change → Prop} {I : Script.Interpreter}
    (hI : I.PerformsAll P) (s : State) : Recorded I s := by
  have hweaves : Script.Operations (Weaves I.exec · s) I :=
    Script.operations_of_takes hI.exec.takes_weaving fun hact => hact True.intro
  have hbefore {h : Handle} {operation : String} {m : Except Fault Unit} {u : State}
      (hmat : (Lifetime.materialize I.exec h operation).outcome s = (m, u)) :
      ∃ ds, s.arena.Does ds u.arena := by
    obtain ⟨ds, hwoven⟩ := hweaves.materialize h operation
    rw [hmat] at hwoven
    exact ⟨ds, hwoven.does⟩
  -- Whatever is done to handlers, the object is materialized before.
  have hmade {h : Handle} {event operation : String} {f : Handlers → Handlers}
      {c : Option Handlers.Change} (hf : Makes f c) {r : Except Fault Handlers} {t : State}
      (hrun : (modifyHandlers I.exec h event operation f).outcome s = (r, t)) :
      ∃ ds u, s.arena.Does ds u.arena ∧ Changes I.exec s h event operation f c u r t := by
    obtain ⟨u, hchanges⟩ := changes_of_modifyHandlers hf hrun
    have hmat : ∃ m, (Lifetime.materialize I.exec h operation).outcome s = (m, u) := by
      cases hchanges with
      | done hmat | failed hmat => exact ⟨_, hmat⟩
    obtain ⟨m, hmat⟩ := hmat
    obtain ⟨ds, hdoes⟩ := hbefore hmat
    exact ⟨ds, u, hdoes, hchanges⟩
  refine ⟨?_, ?_, ?_, hweaves, fun P hP => Script.operations_of_takes hP.exec.takes fun hact => hact.performs⟩
  · intro h event operation c r t hrun
    have hf : Makes (fun hs => hs.change c) (some c) := fun _ => rfl
    exact hmade hf hrun
  · intro h event operation r t hrun
    have hf : Makes id none := fun _ => rfl
    exact hmade hf hrun
  · intro h k t hrun
    obtain ⟨u, hmat, i, state, c, arena, -, -, hreg, rfl⟩ := Lifetime.exists_of_outcome_dup hrun
    obtain ⟨ds, hdoes⟩ := hbefore hmat
    exact ⟨ds, u, hmat, hdoes, .register _ k hreg⟩

end Event

/-! ## Sessions -/

namespace Session

variable {P : Reference → String → Handlers.Change → Prop} {s : State}

/-- What is done after a step leaves the arena as it is. -/
theorem performs_run {α : Type} {act : Run α} (hact : Performs P act s) : s.arena.May P (run act s).2.arena :=
  hact

theorem Between.may (hs : Between s) (hany : ∀ r event c, P r event c) : Arena.May P {} s.arena := by
  induction hs with
  | start options enums => exact .refl _
  | preloaded enums => exact performs_run (s := Session.start {} []) Samples.takes_registerSamples.performs
  | step hs budget e hended ih =>
      rename_i s
      exact ih.trans (performs_run (s := { s with log := [] })
        ((Script.interpreter_performs hany budget).eval e _))

theorem Reachable.may (hs : Reachable s) (hany : ∀ r event c, P r event c) : Arena.May P {} s.arena := by
  cases hs with
  | between hs => exact hs.may hany
  | during hs budget steps e hstopped =>
      rename_i s t
      have hrun := (Script.interpreter_performs hany budget).eval e
        { s with log := [], stepsLeft := some steps }
      rw [Performs, hstopped] at hrun
      exact (hs.may hany).trans hrun

/-- The handlers of every event of every object are the ordered set that a history makes up: whatever the history
is, the changes that were addressed to the object and the event since the object was stored, and nothing else.  The
objects of every state of a session have a history, whatever runs in it and wherever it stops, and every operation
adds to it the change that it makes if it succeeds, after what the bodies do that it runs.  The same is true of the
operations when other bodies than those of scripts run, as long as what these do makes up a history. -/
theorem handlers_ordered_sets :
    (∀ ds a, Arena.Does {} ds a → a.OrderedSets ds) ∧
      (∀ s, Reachable s → ∃ ds, Arena.Does {} ds s.arena) ∧
      (∀ budget s, Event.Recorded (Script.interpreter budget) s) ∧
      ∀ (I : Script.Interpreter) s, (I.PerformsAll fun _ _ _ => True) → Event.Recorded I s := by
  have hany : ∀ (r : Reference) (event : String) (c : Handlers.Change), True := fun _ _ _ => True.intro
  refine ⟨fun ds a hdoes => hdoes.orderedSets, fun s hs => ?_, fun budget s => ?_, fun I s hI => ?_⟩
  · obtain ⟨ds, -, hdoes⟩ := hs.may hany
    exact ⟨ds, hdoes⟩
  · exact Event.recorded_of_performsAll (Script.interpreter_performs hany budget) s
  · exact Event.recorded_of_performsAll hI s

end Session

end ObjectBridge
