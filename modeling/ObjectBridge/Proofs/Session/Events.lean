import ObjectBridge.Proofs.Call.Triggered
import ObjectBridge.Proofs.Session.Arguments

/-!
# Arguments of events

`events_deliver` says what the handlers of an event receive, and compares it with what a body of a method with the
same parameters receives.  The two agree for objects that are passed by reference or pointer.  An object that is
passed by value is not copied for a handler, and one that is passed by a const reference is not shown by a const view
(`moved_not_delivered_as_declared`).
-/

namespace ObjectBridge.Session

open Run Delivery

/-- A trigger that comes to run handlers runs all of them with the same values, each of which is what the argument is
converted to.  For an object it is the handle that the caller gives, and no handler that is to change the object finds
the handle const.  A method with the same parameters is bound to the same values; its body, be it native or an
override, receives copies and const views instead, so it receives the same exactly if every object is passed by
reference or pointer or is given by a const view already. -/
theorem events_deliver (budget : Nat) {s t : State} {h : Handle} {event : String} {args values : List Value}
    {info : EventInfo} {handlers : Handlers} (hs : s.Arises args) (hh : .object h ∈ s.kept)
    (hdelivers : Event.Delivers (Script.interpreter budget).exec s h event args t info values handlers) :
    (Event.trigger (Script.interpreter budget).exec h event args).outcome s =
        (holding (.object h :: args ++ values)
          (Event.runHandlers (Script.interpreter budget).exec h values handlers)).outcome t ∧
      List.Forall₂ (fun given u => Event.Handed t.toWorld given.1 given.2 u) (info.params.zip args) values ∧
      (∀ f u, Event.Starts (Script.interpreter budget).exec h values
          (Event.dispatching t h args values) handlers f u →
        ∀ p k, (p, .object k) ∈ info.params.zip values → p.type.isObject = true →
          p.passing.writesBack = true → u.isConst k = false) ∧
      (∃ b, (CallArgs.mk args []).bind t.toWorld info.params = .bound b ∧ b.values = values) ∧
      ∀ us t', (prepare (Script.interpreter budget).exec info.params values).outcome t = (.ok us, t') →
        (∀ owner o binding, o.sig.params = info.params → binding.values = values →
          Receives (Script.interpreter budget).exec t t' owner o binding us) ∧
        List.Forall₂ (fun bound u => Passed t t' bound.1 bound.2 u) (info.params.zip values) us ∧
        (us = values ↔ ∀ bound ∈ info.params.zip values, Event.AsItIs bound.1 bound.2) := by
  have hexec : ConservesAll (Script.interpreter budget).exec :=
    (Script.interpreter_conservesAll budget).exec
  refine ⟨hdelivers.outcome_eq, Event.forall₂_of_convertArgs hdelivers.converted, ?_,
    hdelivers.exists_bind, ?_⟩
  · intro f u hstarts p k hbound hobject hback
    exact hdelivers.mutable hexec hs hh hstarts hbound hobject hback
  · intro us t' hprepare
    refine ⟨?_, hdelivers.prepare_eq_iff hexec hs hh hprepare⟩
    intro owner o binding hparams hvalues
    rw [← hparams, ← hvalues] at hprepare
    exact receives_of_prepare hprepare

/-! ## A session with an event -/

/-- A class with an event that hands over an object by value, by a const reference and by a reference. -/
def eventfulClass : Script.ClassSpec Script.Expr Script.Stmt := {
  name := "Node"
  shape := .script
  members := [
    .event "moved" [{ name := "copied", type := .object "Node" },
                    { name := "shown", type := .object "Node", passing := .constRef },
                    { name := "aliased", type := .object "Node", passing := .ref }]] }

/-- A session that registers the class and connects a handler to the event of an object `x`. -/
@[irreducible]
def eventfulRun : Except Fault Value × State :=
  andThen (start {} []) 6 (.list [
    .perform (.defineClass eventfulClass) none,
    .perform (.create (.named "Node") .script (.map []) false) (some "x"),
    .perform (.callable "f" []) none,
    .perform (.eventAdd (.var "x") "moved" "f") none])

/-- The object in the variable `x` of the session. -/
def eventfulObject : Handle := ⟨⟨0, ⟨0, ⟨0, 0⟩⟩, 0, "Node"⟩, false⟩

/-- The object for each of the three parameters. -/
def threeObjects : List Value := List.replicate 3 (.object eventfulObject)

/-- The state in which the session triggers the event. -/
def triggering : State := withHeld eventfulRun.2 [.object eventfulObject]

/-- How a parameter takes its objects. -/
def crossing (p : Param) : Bool × Passing :=
  (p.type.isObject, p.passing)

/-- The session comes to its end with the object in its variable, the event declared with three parameters that take
the object, and one handler connected to it. -/
theorem eventfulRun_spec :
    eventfulRun.1.isOk = true ∧
      (eventfulRun.2.globals.lookup "x").bind Value.handle? = some eventfulObject ∧
      (eventfulRun.2.classes.findEvent 0 "moved").map (fun info =>
        (info.params.map crossing,
          (Event.convertArgs eventfulRun.2.toWorld "Node" "moved" 1
            (info.params.zip threeObjects)).toOption.map fun vs => vs.map Value.handle?)) =
        some ([(true, .value), (true, .constRef), (true, .ref)],
          some (List.replicate 3 (some eventfulObject))) ∧
      (eventfulRun.2.arena.get? eventfulObject.target).map (fun i =>
        (i.isMaterialized, ((i.handlers? "moved").getD []).length)) = some (true, 1) ∧
      eventfulRun.2.isConst eventfulObject = false := by
  decide +kernel

theorem between_eventfulRun : Between eventfulRun.2 := by
  have hok := eventfulRun_spec.1
  unfold eventfulRun at hok ⊢
  exact (Between.start {} []).andThen hok

theorem eventfulObject_mem_globals :
    Value.object eventfulObject ∈ eventfulRun.2.globals.map Prod.snd := by
  obtain ⟨v, hv, hobject⟩ := Option.bind_eq_some_iff.mp eventfulRun_spec.2.1
  obtain rfl := Value.eq_object_of_handle? hobject
  exact List.mem_map.mpr ⟨_, mem_of_lookup hv, rfl⟩

theorem arises_triggering : triggering.Arises threeObjects := by
  refine Delivery.arises_withHeld (between_eventfulRun.arises.of_covers fun v hv => ?_)
  have hobject : v = .object eventfulObject := by
    rcases List.mem_append.mp hv with hv | hv
    · exact List.mem_singleton.mp hv
    · exact (List.mem_replicate.mp hv).2
  rw [hobject]
  exact State.covers_of_mem_roots (State.mem_roots_iff.mpr (Or.inl eventfulObject_mem_globals)) []

theorem eventfulObject_kept : Value.object eventfulObject ∈ triggering.kept := by
  rw [triggering, withHeld, State.kept_cons_held]
  exact List.mem_append_left _ List.mem_cons_self

/-- The trigger comes to run the handler with the objects that it was given. -/
theorem exists_delivers :
    ∃ info f, Event.Delivers (Script.interpreter 6).exec triggering eventfulObject "moved" threeObjects
        triggering info threeObjects [f] ∧
      info.params.map crossing = [(true, .value), (true, .constRef), (true, .ref)] := by
  obtain ⟨-, -, hdeclared, hconnected, -⟩ := eventfulRun_spec
  obtain ⟨info, hinfo, hfacts⟩ := Option.map_eq_some_iff.mp hdeclared
  obtain ⟨hcrossing, hconverted⟩ := Prod.mk.inj hfacts
  obtain ⟨values, hvalues, hhandles⟩ := Option.map_eq_some_iff.mp hconverted
  obtain ⟨i, hi, hfacts'⟩ := Option.map_eq_some_iff.mp hconnected
  obtain ⟨hmade, hone⟩ := Prod.mk.inj hfacts'
  obtain ⟨f, hf⟩ := List.length_eq_one_iff.mp hone
  have hsame : values = (List.replicate 3 eventfulObject).map .object :=
    Value.eq_objects_of_handle? hhandles
  obtain rfl : values = threeObjects := hsame
  refine ⟨info, f, ⟨?_, hinfo, ?_, eq_ok_of_toOption hvalues, i, hi, hf.symm⟩, hcrossing⟩
  · have hthere : (withHeld triggering threeObjects).arena.get? eventfulObject.target = some i := hi
    exact outcome_holding_of_ok (Lifetime.outcome_materialize hthere hmade "moved")
  · rw [← List.length_map (f := crossing), hcrossing]
    rfl

/-- A parameter of the event, by its position, with the object that is handed over for it. -/
theorem exists_bound {info : EventInfo} {facts : List (Bool × Passing)}
    (hcrossing : info.params.map crossing = facts) {n : Nat} {fact : Bool × Passing}
    (hfact : facts[n]? = some fact) (hn : threeObjects[n]? = some (.object eventfulObject)) :
    ∃ p, (p, .object eventfulObject) ∈ info.params.zip threeObjects ∧ crossing p = fact := by
  rw [← hcrossing, List.getElem?_map] at hfact
  obtain ⟨p, hp, hsame⟩ := Option.map_eq_some_iff.mp hfact
  exact ⟨p, List.mem_of_getElem? (List.getElem?_zip_eq_some.mpr ⟨hp, hn⟩), hsame⟩

/-- The handler may change the object that it is handed by reference. -/
theorem moved_delivered :
    ∃ info f, Event.Delivers (Script.interpreter 6).exec triggering eventfulObject "moved" threeObjects
        triggering info threeObjects [f] ∧
      Event.Starts (Script.interpreter 6).exec eventfulObject threeObjects
        (Event.dispatching triggering eventfulObject threeObjects threeObjects) [f] f
        (withHeld (Event.dispatching triggering eventfulObject threeObjects threeObjects) []) ∧
      (withHeld (Event.dispatching triggering eventfulObject threeObjects threeObjects) []).isConst eventfulObject =
        false := by
  obtain ⟨info, f, hdelivers, hcrossing⟩ := exists_delivers
  obtain ⟨-, -, hmutable, -⟩ := events_deliver 6 arises_triggering eventfulObject_kept hdelivers
  obtain ⟨p, hp, hsame⟩ := exists_bound hcrossing (n := 2) rfl rfl
  obtain ⟨hobject, hpassing⟩ := Prod.mk.inj hsame
  exact ⟨info, f, hdelivers, .first, hmutable f _ .first p _ hp hobject (by rw [hpassing]; rfl)⟩

/-- The handler is handed the object of the caller for the parameter that is passed by value, and a handle that is not
const for the one that is passed by a const reference. -/
theorem moved_not_delivered_as_declared :
    ¬∀ budget s t h event args info values handlers f u, s.Arises args → .object h ∈ s.kept →
      Event.Delivers (Script.interpreter budget).exec s h event args t info values handlers →
      Event.Starts (Script.interpreter budget).exec h values (Event.dispatching t h args values) handlers f u →
      ∀ p k, (p, .object k) ∈ info.params.zip values → p.type.isObject = true →
        (p.passing.isConst = true → u.isConst k = true) ∧
        (p.passing = .value → ∀ q ∈ (s.custody args).proxies, q.anchor ≠ k.proxy.anchor) := by
  intro hclaim
  obtain ⟨info, f, hdelivers, hcrossing⟩ := exists_delivers
  obtain ⟨p, hp, hsame⟩ := exists_bound hcrossing (n := 1) rfl rfl
  obtain ⟨hobject, hpassing⟩ := Prod.mk.inj hsame
  obtain ⟨hshown, -⟩ := hclaim 6 _ _ _ _ _ _ _ _ f _ arises_triggering eventfulObject_kept hdelivers .first
    p eventfulObject hp hobject
  have hconst : eventfulRun.2.isConst eventfulObject = true := hshown (by rw [hpassing]; rfl)
  rw [eventfulRun_spec.2.2.2.2] at hconst
  cases hconst

end ObjectBridge.Session
