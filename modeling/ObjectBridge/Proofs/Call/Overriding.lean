import ObjectBridge.Proofs.Call.Choice
import ObjectBridge.Proofs.Call.Course
import ObjectBridge.Proofs.Call.Dispatch
import ObjectBridge.Proofs.Call.Passing
import ObjectBridge.Proofs.Class.Inheritance
import ObjectBridge.Proofs.Run.Equipped

/-!
# Where a call leads

When an overload is selected and its arguments are ready, a call goes on with the override that the class of the
object has for the method, or with the native body.  Either runs once, and then the arguments are written back and
the result is delivered.

* `Dispatch.Ready` — a call has come to its body.
* `Dispatch.afterBody` — what a call does when its body or override has come to an end.
* `Dispatch.Routes` — the override or the native body, for every way to call.
* `routes_of_equipped` — calls lead there if the objects have the overrides of their classes.
-/

namespace ObjectBridge.Dispatch

open Run

/-- A call on an object has selected an overload in the state `s₀` and has come to the state `u`, with the values
that are passed to the body. -/
structure Ready (exec : Exec) (s : State) (recv : Handle) (method : String) (args : CallArgs)
    (chosen : Selected) (s₀ : State) (values : List Value) (u : State) : Prop where
  choose : (holding args.values (choose exec recv method args)).outcome s = (.ok chosen, s₀)
  prepare : (Delivery.prepare exec chosen.overload.sig.params chosen.binding.values).outcome
    (withHeld s₀ args.values) = (.ok values, u)

/-- What a call does when its body or override has come to an end: it writes the arguments back and delivers the
result, or passes the error on. -/
def afterBody (exec : Exec) (chosen : Selected) (method : String) (args : CallArgs) :
    Except Fault (Value × List Value) × State → Except Fault (Value × CallArgs) × State
  | (.ok (value, updated), t) =>
      (do let args ← Delivery.settle chosen.overload.sig.params chosen.binding.sources updated args
          let value ← holding args.values
            (Delivery.giveBack exec chosen.overload.sig.result chosen.owner method value)
          return (value, args)).outcome (withoutHeld t)
  | (.error .exhausted, t) => (.error .exhausted, t)
  | (.error fault, t) => (.error fault, withoutHeld t)

/-- Run the native body of a plain overload, and answer with its result and the arguments as it left them. -/
def runPlain (exec : Exec) (recv : Handle) (values : List Value) (code : Code) :
    Run (Value × List Value) := do
  let body ← Lifetime.runNative exec (some recv) values code
  return (body.result, body.args)

variable {exec : Exec} {s s₀ u : State} {recv : Handle} {method : String} {args : CallArgs}
  {chosen : Selected} {values : List Value} {code : Code} {i : Instance}

theorem outcome_execute (exec : Exec) (recv : Option Handle) (chosen : Selected) (method : String)
    (args : CallArgs) (allowOverride : Bool) (s : State) :
    (execute exec recv chosen method args allowOverride).outcome s =
      afterBody exec chosen method args
        ((runBody exec recv chosen method allowOverride).outcome (withHeld s args.values)) := by
  rw [execute, outcome_bind, holding, outcome_within, withHeld]
  rcases (runBody exec recv chosen method allowOverride).outcome { s with held := args.values :: s.held }
    with ⟨result, t⟩
  cases result with
  | ok left => rfl
  | error fault => cases fault <;> rfl

/-- A call of a plain method runs the body of the overload or its override in the state that it has come to. -/
theorem Ready.outcome_invoke (hready : Ready exec s recv method args chosen s₀ values u)
    (hbody : chosen.overload.body = .native code) (allowOverride : Bool) :
    (invoke exec recv method args allowOverride).outcome s =
      afterBody exec chosen method args
        ((do match ← overrideFor (some recv) chosen.overload.sig method allowOverride with
             | some (h, f) => runOverride exec h f chosen.overload.sig.params values
             | none => runPlain exec recv values code).outcome u) := by
  rw [invoke, outcome_bind_of_ok hready.choose, hbody, outcome_execute, runBody,
    outcome_bind_of_ok hready.prepare, hbody]
  rfl

/-- Nothing changes while an overload is selected for an object that has its native state. -/
theorem eq_of_outcome_choose (hi : s.arena.get? recv.target = some i) (hmade : i.isMaterialized = true)
    (hchoose : (holding args.values (choose exec recv method args)).outcome s = (.ok chosen, s₀)) : s₀ = s := by
  obtain ⟨t, hinner, rfl⟩ := exists_of_outcome_holding hchoose
  have hmat : (Lifetime.materialize exec recv method).outcome (withHeld s args.values) =
      (.ok (), withHeld s args.values) :=
    Lifetime.outcome_materialize (s := withHeld s args.values) hi hmade method
  rw [← (Prod.mk.inj (hmat.symm.trans (resolves_of_outcome_choose hinner).1)).2]
  rfl

/-- While an overload is selected the arguments stay in use. -/
theorem held_of_outcome_choose (hexec : ConservesAll exec) {s₀ : State}
    (hchoose : (choose exec recv method args).outcome (withHeld s args.values) = (.ok chosen, s₀)) :
    withHeld (withoutHeld s₀) args.values = s₀ := by
  have hkept : ∀ v ∈ args.values, v ∈ (withHeld s args.values).kept := by
    intro v hv
    rw [withHeld, State.kept_cons_held]
    exact List.mem_append_left _ hv
  have hlevel := ((conserves_choose hexec hkept).ok hchoose).1
  have hheld : s₀.held = args.values :: s.held := hlevel.held_eq
  rw [withoutHeld, withHeld]
  simp only [hheld, List.tail_cons]
  rw [← hheld]

/-- An iteration goes on from the selection of an overload, like a call. -/
theorem outcome_each (hexec : ConservesAll exec)
    (hchoose : (holding args.values (choose exec recv method args)).outcome s = (.ok chosen, s₀))
    (block : Value → Run (Option Value)) :
    (each exec recv method args block).outcome s =
      (holding args.values do
        let stopped ← Stream.withStream exec recv chosen.overload method chosen.binding.values
          (Stream.drive exec chosen.overload.sig.result chosen.owner method block)
        return stopped.getD (.object recv)).outcome s₀ := by
  obtain ⟨t, hinner, rfl⟩ := exists_of_outcome_holding hchoose
  rw [each, outcome_holding_eq, outcome_bind_of_ok hinner, outcome_holding_eq, held_of_outcome_choose hexec hinner]

/-- A static call runs the native body of the overload that is selected, without a receiver. -/
theorem outcome_callStatic {cls : ClassId} (hchoose : (chooseStatic cls method args).outcome s = (.ok chosen, s₀))
    (hbody : chosen.overload.body = .native code)
    (hprepare : (Delivery.prepare exec chosen.overload.sig.params chosen.binding.values).outcome
      (withHeld s₀ args.values) = (.ok values, u)) :
    (callStatic exec cls method args).outcome s =
      afterBody exec chosen method args
        ((do let body ← Lifetime.runNative exec none values code
             return (body.result, body.args)).outcome u) := by
  rw [callStatic, outcome_bind_of_ok hchoose, outcome_execute, runBody, outcome_bind_of_ok hprepare, hbody]
  rfl

/-- A method without parameters is ready as soon as it is selected. -/
theorem ready_of_choose
    (hchoose : (holding args.values (choose exec recv method args)).outcome s = (.ok chosen, s₀))
    (hparams : chosen.overload.sig.params = []) :
    Ready exec s recv method args chosen s₀ [] (withHeld s₀ args.values) where
  choose := hchoose
  prepare := by
    rw [hparams]
    rfl

/-! ## The override that stands in -/

variable {sig : Signature}

/-- The override for an object that is there. -/
theorem outcome_overrideFor (hi : u.arena.get? recv.target = some i) (hvirtual : sig.isVirtual = true) :
    (overrideFor (some recv) sig method true).outcome u =
      (.ok ((i.overrides.bind fun o => o.get? method).map fun f => (recv, f)), u) := by
  rw [overrideFor, hvirtual, Bool.true_and, if_pos rfl,
    outcome_bind_of_ok (Lifetime.outcome_resolve_of_some hi method)]
  rfl

theorem outcome_overrideFor_of_gone (hgone : u.arena.get? recv.target = none)
    (hvirtual : sig.isVirtual = true) :
    (overrideFor (some recv) sig method true).outcome u =
      (.error (.raised (.useAfterFree recv.className method)), u) := by
  rw [overrideFor, hvirtual, Bool.true_and, if_pos rfl,
    outcome_bind_of_error (Lifetime.outcome_resolve_of_none hgone method)]
  rfl

/-- Nothing stands in for an overload that is not virtual, or when the native body is asked for. -/
theorem outcome_overrideFor_of_not {allowOverride : Bool} (hnot : (allowOverride && sig.isVirtual) = false) :
    (overrideFor (some recv) sig method allowOverride).outcome u = (.ok none, u) := by
  rw [overrideFor, hnot]
  rfl

/-- Host code in a frame of its own, wherever the limit is. -/
def inFrame {α : Type} (frame : Frame) (act : Run α) : Run α :=
  within (fun s => { s with frames := frame :: s.frames, hostDepth := s.hostDepth + 1 })
    (fun s => { s with frames := s.frames.tail, hostDepth := s.hostDepth - 1 }) act

theorem outcome_inHostFrame_of_below {α : Type} (frame : Frame) (act : Run α)
    (hbelow : u.hostDepth < u.options.maxDepth) :
    (inHostFrame frame act).outcome u = (inFrame frame act).outcome u := by
  rw [inHostFrame, outcome_get_bind, if_neg (Nat.not_le.mpr hbelow)]
  rfl

/-- The frame is gone when the code has come to its end. -/
theorem outcome_inFrame_of_ok {α : Type} {frame : Frame} {act : Run α} {x : α} {t : State}
    (hrun : act.outcome { u with frames := frame :: u.frames, hostDepth := u.hostDepth + 1 } = (.ok x, t)) :
    (inFrame frame act).outcome u = (.ok x, { t with frames := t.frames.tail, hostDepth := t.hostDepth - 1 }) := by
  rw [inFrame, outcome_within, hrun]

/-- Below the limit an override runs once, on the object, with the arguments as they are sent to it. -/
theorem outcome_runOverride (f : Callable) (params : List Param) (values : List Value)
    (hbelow : u.hostDepth < u.options.maxDepth) :
    ∃ sent t, (Delivery.outward params values).outcome u = (.ok sent, t) ∧
      (runOverride exec recv f params values).outcome u =
        (do let body ← holding (values ++ sent) <|
              inFrame (.override recv.target) (Run.invoke exec f (some recv) sent)
            return (body.result, Delivery.inward (← get).cells sent values)).outcome t := by
  obtain ⟨sent, t, houtward, -, -, -, ht⟩ := Delivery.exists_outcome_outward params values u
  refine ⟨sent, t, houtward, ?_⟩
  have hbelow' : (withHeld t (values ++ sent)).hostDepth < (withHeld t (values ++ sent)).options.maxDepth := by
    rw [ht]
    exact hbelow
  have hframe := outcome_inHostFrame_of_below (.override recv.target) (Run.invoke exec f (some recv) sent) hbelow'
  have hheld : (holding (values ++ sent)
      (inHostFrame (.override recv.target) (Run.invoke exec f (some recv) sent))).outcome t =
      (holding (values ++ sent)
        (inFrame (.override recv.target) (Run.invoke exec f (some recv) sent))).outcome t := by
    rw [holding, holding, outcome_within, outcome_within]
    rw [withHeld] at hframe
    rw [hframe]
  rw [runOverride, outcome_bind_of_ok houtward, outcome_bind, outcome_bind, hheld]

/-! ## Routes -/

/-- Where the calls of methods lead from a state on. -/
structure Routes (exec : Exec) (s : State) : Prop where
  /-- The override that the class of the object has for the method runs, and not the body of the overload, which is
  virtual. -/
  override : ∀ recv method args chosen s₀ values u code i f,
    Ready exec s recv method args chosen s₀ values u → chosen.overload.body = .native code →
    chosen.overload.sig.isVirtual = true → u.arena.get? recv.target = some i →
    u.classes.overrideOf i.cls method = some f →
    (call exec recv method args).outcome s =
      afterBody exec chosen method args
        ((runOverride exec recv f chosen.overload.sig.params values).outcome u)
  /-- Below the limit the code of an override runs once, on the object, with the arguments as they are sent to it. -/
  runs : ∀ recv f params values u, u.hostDepth < u.options.maxDepth →
    ∃ sent t, (Delivery.outward params values).outcome u = (.ok sent, t) ∧
      (runOverride exec recv f params values).outcome u =
        (do let body ← holding (values ++ sent) <|
              inFrame (.override recv.target) (Run.invoke exec f (some recv) sent)
            return (body.result, Delivery.inward (← get).cells sent values)).outcome t
  /-- The native body runs if the class of the object has no override for the method, and for an overload that is
  not virtual. -/
  native : ∀ recv method args chosen s₀ values u code i,
    Ready exec s recv method args chosen s₀ values u → chosen.overload.body = .native code →
    u.arena.get? recv.target = some i →
    chosen.overload.sig.isVirtual = false ∨ u.classes.overrideOf i.cls method = none →
    (call exec recv method args).outcome s =
      afterBody exec chosen method args ((runPlain exec recv values code).outcome u)
  /-- The native body runs if it is asked for, whatever the class of the object has. -/
  base : ∀ recv method args chosen s₀ values u code,
    Ready exec s recv method args chosen s₀ values u → chosen.overload.body = .native code →
    (callBase exec recv method args).outcome s =
      afterBody exec chosen method args ((runPlain exec recv values code).outcome u)
  /-- Nothing runs for an object that went while its arguments were made ready. -/
  gone : ∀ recv method args chosen s₀ values u code,
    Ready exec s recv method args chosen s₀ values u → chosen.overload.body = .native code →
    chosen.overload.sig.isVirtual = true → u.arena.get? recv.target = none →
    (call exec recv method args).outcome s =
      (.error (.raised (.useAfterFree recv.className method)), withoutHeld u)
  /-- An enumerable body always runs, whatever the class of the object has. -/
  iterator : ∀ recv method (args : CallArgs) chosen s₀ code source,
    (holding args.values (choose exec recv method args)).outcome s = (.ok chosen, s₀) →
    chosen.overload.body = .iterator code source → ∀ allowOverride,
    (invoke exec recv method args allowOverride).outcome s =
      (do let items ← holding args.values do
            let values ← Delivery.prepare exec chosen.overload.sig.params chosen.binding.values
            let body ← Lifetime.runNative exec (some recv) values code
            let stream ← Run.ofExcept (Stream.ofValue source body.result)
            Stream.opened source
              (Stream.collect exec chosen.overload.sig.result chosen.owner method stream)
          return (Value.list items, args)).outcome s₀

/-- A call comes to its body by the steps of a run. -/
theorem Ready.path (hexec : OrderlyAll exec) (hnum : s.classes.Numbered)
    (hready : Ready exec s recv method args chosen s₀ values u) : s.Path u := by
  have hselection : Orderly (holding args.values (Dispatch.choose exec recv method args)) s :=
    (takes_choose hexec.takes recv method args).holding.orderly
  have hchoose := (hselection hnum).1
  rw [hready.choose] at hchoose
  have hheld : s₀.Step (withHeld s₀ args.values) := .vary ⟨rfl, rfl⟩ rfl
  have hprepare := ((Delivery.takes_prepare hexec.takes chosen.overload.sig.params chosen.binding.values).orderly
    (hheld.numbered (hchoose.numbered hnum))).1
  rw [hready.prepare] at hprepare
  exact (hchoose.tail hheld).trans hprepare

theorem routes_of_equipped (hexec : OrderlyAll exec) (hnum : s.classes.Numbered) (hs : s.Equipped) :
    Routes exec s where
  override := by
    intro recv method args chosen s₀ values u code i f hready hbody hvirtual hi hf
    -- The overrides are looked up in the object, which has had those of its class since it was stored.
    have hfound : (i.overrides.bind fun o => o.get? method) = some f := by
      rw [((hready.path hexec hnum).equipped hs).overrides_eq hi]
      exact hf
    rw [call, hready.outcome_invoke hbody, outcome_bind_of_ok (outcome_overrideFor hi hvirtual), hfound]
    rfl
  runs := by
    intro recv f params values u hbelow
    exact outcome_runOverride f params values hbelow
  native := by
    intro recv method args chosen s₀ values u code i hready hbody hi hnone
    have hoverride : (overrideFor (some recv) chosen.overload.sig method true).outcome u = (.ok none, u) := by
      rcases Bool.eq_false_or_eq_true chosen.overload.sig.isVirtual with hvirtual | hplain
      · have hmissing : (i.overrides.bind fun o => o.get? method) = none := by
          rw [((hready.path hexec hnum).equipped hs).overrides_eq hi]
          exact hnone.resolve_left (by simp [hvirtual])
        rw [outcome_overrideFor hi hvirtual, hmissing]
        rfl
      · exact outcome_overrideFor_of_not (by simp [hplain])
    rw [call, hready.outcome_invoke hbody, outcome_bind_of_ok hoverride]
  base := by
    intro recv method args chosen s₀ values u code hready hbody
    rw [callBase, hready.outcome_invoke hbody, outcome_bind_of_ok (outcome_overrideFor_of_not rfl)]
  gone := by
    intro recv method args chosen s₀ values u code hready hbody hvirtual hgone
    rw [call, hready.outcome_invoke hbody,
      outcome_bind_of_error (outcome_overrideFor_of_gone hgone hvirtual)]
    rfl
  iterator := by
    intro recv method args chosen s₀ code source hchoose hbody allowOverride
    rw [invoke, outcome_bind_of_ok hchoose, hbody]
    simp only [Stream.withStream, hbody]

end ObjectBridge.Dispatch
