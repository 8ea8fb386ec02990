import ObjectBridge.Proofs.Call.Choice
import ObjectBridge.Proofs.Session.Overriding

/-!
# Protected methods

A protected overload is called by native bodies and by the overrides of the object itself, and by nobody else.  What
counts is who runs when the call is made: a deferred constructor may run before the overload is selected, but it has
come to its end by then.  The overload that passes the check is the one whose body runs.

* `Dispatch.Guarding` — who calls protected overloads, and what becomes of the calls of all others.
* `Session.Reachable.protected_guarded` — protected methods are guarded at every moment of a session.
-/

namespace ObjectBridge

open Run

variable {s t : State} {exec : Exec}

namespace Dispatch

/-- A call on an object fails, whether a method, its native body or its items are asked for. -/
structure Fails (exec : Exec) (s : State) (recv : Handle) (method : String) (args : CallArgs) (fault : Fault)
    (t : State) : Prop where
  call : (call exec recv method args).outcome s = (.error fault, t)
  callBase : (callBase exec recv method args).outcome s = (.error fault, t)
  each : ∀ block, (each exec recv method args block).outcome s = (.error fault, t)

/-- When no overload is selected, a call ends there. -/
theorem fails_of_choose {recv : Handle} {method : String} {args : CallArgs} {fault : Fault}
    (hchoose : (holding args.values (choose exec recv method args)).outcome s = (.error fault, t)) :
    Fails exec s recv method args fault t where
  call := outcome_bind_of_error hchoose _
  callBase := outcome_bind_of_error hchoose _
  each _ := outcome_holding_bind_of_error hchoose _

/-- The bodies that run after a selection are those of the overload that was selected. -/
structure Enters (exec : Exec) (s : State) : Prop where
  /-- A call runs the native body of the chosen overload, or the override that stands in for it. -/
  calls : Routes exec s
  /-- An iteration runs the enumerable body of the chosen overload, and nothing stands in for it. -/
  iterates : ∀ recv method (args : CallArgs) chosen s₀ code source block,
    (holding args.values (choose exec recv method args)).outcome s = (.ok chosen, s₀) →
    chosen.overload.body = .iterator code source →
    (each exec recv method args block).outcome s =
      (holding args.values do
        let values ← Delivery.prepare exec chosen.overload.sig.params chosen.binding.values
        let body ← Lifetime.runNative exec (some recv) values code
        let stream ← Run.ofExcept (Stream.ofValue source body.result)
        let stopped ← Stream.opened source
          (Stream.drive exec chosen.overload.sig.result chosen.owner method block stream)
        return stopped.getD (.object recv)).outcome s₀
  /-- No body runs when an iteration is asked for and the chosen overload has a plain one. -/
  plain : ∀ recv method (args : CallArgs) chosen s₀ values u code block,
    Ready exec s recv method args chosen s₀ values u → chosen.overload.body = .native code →
    (each exec recv method args block).outcome s =
      (.error (.raised (.native (recv.className ++ "::" ++ method ++ " is not enumerable"))), withoutHeld u)
  /-- A static call runs the native body of the chosen overload, without a receiver. -/
  static : ∀ cls method args chosen s₀ values u code,
    (chooseStatic cls method args).outcome s = (.ok chosen, s₀) → chosen.overload.body = .native code →
    (Delivery.prepare exec chosen.overload.sig.params chosen.binding.values).outcome (withHeld s₀ args.values) =
      (.ok values, u) →
    (callStatic exec cls method args).outcome s =
      afterBody exec chosen method args
        ((do let body ← Lifetime.runNative exec none values code
             return (body.result, body.args)).outcome u)

theorem enters_of_routes (hexec : ConservesAll exec) (hroutes : Routes exec s) : Enters exec s where
  calls := hroutes
  iterates := by
    intro recv method args chosen s₀ code source block hchoose hbody
    rw [outcome_each hexec hchoose]
    simp only [Stream.withStream, hbody, bind_assoc]
  plain := by
    intro recv method args chosen s₀ values u code block hready hbody
    rw [outcome_each hexec hready.choose, Stream.withStream, hbody]
    refine outcome_holding_of_raised ?_
    rw [bind_assoc, outcome_bind_of_ok hready.prepare]
    rfl
  static := by
    intro cls method args chosen s₀ values u code hchoose hbody hprepare
    exact outcome_callStatic hchoose hbody hprepare

/-- Protected overloads are called only by those who may. A call selects an overload before it runs a body, in a
selection that ends with an overload or with an error, and then it runs the body of that overload. -/
structure Guarding (exec : Exec) (s : State) : Prop where
  /-- A protected overload that is selected is called on behalf of a native body or of an override for the object. -/
  selected : ∀ recv method args chosen t,
    (holding args.values (choose exec recv method args)).outcome s = (.ok chosen, t) →
    chosen.overload.sig.isProtected = true → s.Privileged recv
  /-- Without a selected overload nothing more happens. -/
  unselected : ∀ recv method (args : CallArgs) fault t,
    (holding args.values (choose exec recv method args)).outcome s = (.error fault, t) →
    Fails exec s recv method args fault t
  /-- A call by anybody else that resolves to a protected overload is refused, and leaves the state as the deferred
  constructor of the object left it. -/
  refused : ∀ recv method (args : CallArgs) chosen t,
    (holding args.values (Lifetime.materialize exec recv method)).outcome s = (.ok (), t) →
    Resolves t recv method args chosen → chosen.overload.sig.isProtected = true →
    ¬s.Privileged recv →
    Fails exec s recv method args (.raised (.protectedAccess chosen.owner method)) t
  /-- A protected static overload that is selected is called on behalf of a native body. -/
  selectedStatic : ∀ cls method args chosen t,
    (chooseStatic cls method args).outcome s = (.ok chosen, t) →
    chosen.overload.sig.isProtected = true → s.frames.head? = some .native
  unselectedStatic : ∀ cls method args fault t,
    (chooseStatic cls method args).outcome s = (.error fault, t) →
    (callStatic exec cls method args).outcome s = (.error fault, t)
  refusedStatic : ∀ cls method args chosen,
    ResolvesStatic s cls method args chosen → chosen.overload.sig.isProtected = true →
    s.frames.head? ≠ some .native →
    (callStatic exec cls method args).outcome s =
      (.error (.raised (.protectedAccess chosen.owner method)), s)
  enters : Enters exec s

/-- The same bodies run before and after a deferred constructor, so the same calls are allowed. -/
theorem privileged_iff_of_materialize (hexec : OrderlyAll exec) (hnum : s.classes.Numbered)
    {recv : Handle} {method : String}
    (hmat : (Lifetime.materialize exec recv method).outcome s = (.ok (), t)) :
    t.Privileged recv ↔ s.Privileged recv := by
  have hrunning := ((Lifetime.takes_materialize hexec.takes recv method).orderly hnum).2
  rw [hmat] at hrunning
  have hframes : t.frames = s.frames := congrArg Running.frames (hrunning (by simp))
  unfold State.Privileged
  rw [hframes]

theorem guarding_of_enters (hexec : OrderlyAll exec) (hnum : s.classes.Numbered) (henters : Enters exec s) :
    Guarding exec s where
  selected := by
    intro recv method args chosen t hrun hprotected
    obtain ⟨t', hchoose, -⟩ := exists_of_outcome_holding hrun
    obtain ⟨hmat, -, hprivileged⟩ := resolves_of_outcome_choose hchoose
    -- The check is made after the deferred constructor, whose frame has gone by then.
    have hsame : t'.Privileged recv ↔ (withHeld s args.values).Privileged recv :=
      privileged_iff_of_materialize (s := withHeld s args.values) hexec hnum hmat
    exact hsame.mp (hprivileged hprotected)
  unselected := by
    intro recv method args fault t hrun
    exact fails_of_choose hrun
  refused := by
    intro recv method args chosen t hrun hresolves hprotected hunprivileged
    obtain ⟨t', hmat, rfl⟩ := exists_of_outcome_holding hrun
    have hsame : t'.Privileged recv ↔ (withHeld s args.values).Privileged recv :=
      privileged_iff_of_materialize (s := withHeld s args.values) hexec hnum hmat
    have hrefused : mayAccess t' recv = false := by
      rw [Bool.eq_false_iff, ne_eq, mayAccess_iff, hsame]
      exact hunprivileged
    refine fails_of_choose (outcome_holding_of_raised ?_)
    rw [outcome_choose_of_resolves hmat hresolves, hprotected, hrefused]
    rfl
  selectedStatic := by
    intro cls method args chosen t hrun hprotected
    exact (resolves_of_outcome_chooseStatic hrun).2.2 hprotected
  unselectedStatic := by
    intro cls method args fault t hrun
    exact outcome_bind_of_error hrun _
  refusedStatic := by
    intro cls method args chosen hresolves hprotected hunprivileged
    refine outcome_bind_of_error ?_ _
    rw [outcome_chooseStatic_of_resolves hresolves, hprotected, Bool.true_and,
      if_pos (bne_iff_ne.mpr hunprivileged)]
  enters := henters

end Dispatch

namespace Session

/-- Between two steps of a session nobody may call protected methods. -/
theorem Between.not_privileged (hs : Between s) (recv : Handle) : ¬s.Privileged recv := by
  have hframes : s.frames = [] := congrArg Running.frames hs.running_eq
  rw [State.not_privileged_iff, hframes]
  exact Or.inl rfl

/-- At every moment of a session, and wherever the steps of a run lead from there, protected overloads are called
only on behalf of native bodies and, on an object, of its own overrides. Calls by all others fail, and run no
method. -/
theorem Reachable.protected_guarded (hs : Reachable s) (hpath : s.Path t) (budget : Nat) :
    Dispatch.Guarding (Script.interpreter budget).exec t :=
  Dispatch.guarding_of_enters (Script.interpreter_orderly budget).exec (hpath.numbered hs.numbered)
    (Dispatch.enters_of_routes (Script.interpreter_conservesAll budget).exec (hs.routes hpath budget))

/-- The method `secret` of an object is called from outside. -/
theorem secret_refused :
    ∃ chosen, Dispatch.Resolves overridingRun.2 overridingObject "secret" {} chosen ∧
      chosen.overload.sig.isProtected = true ∧
      Dispatch.Fails (Script.interpreter 6).exec overridingRun.2 overridingObject "secret" {}
        (.raised (.protectedAccess chosen.owner "secret")) overridingRun.2 := by
  have hfound : ((overridingRun.2.classes.findMethod 1 "secret").map fun candidates =>
      ((Selection.pick overridingRun.2.toWorld candidates.owner "secret"
        (Dispatch.eligible overridingRun.2 overridingObject candidates.overloads) {}).toOption.map
          fun picked => picked.1.sig.isProtected)) = some (some true) := by
    decide +kernel
  obtain ⟨⟨owner, overloads⟩, hfind, hpicked⟩ := Option.map_eq_some_iff.mp hfound
  obtain ⟨⟨overload, binding⟩, hpick, hprotected⟩ := Option.map_eq_some_iff.mp hpicked
  have hresolves : Dispatch.Resolves overridingRun.2 overridingObject "secret" {} ⟨owner, overload, binding⟩ :=
    ⟨overloads, hfind, eq_ok_of_toOption hpick⟩
  obtain ⟨i, hi, hmade, -⟩ := exists_overridingObject
  have hmat : (holding [] (Lifetime.materialize (Script.interpreter 6).exec overridingObject
      "secret")).outcome overridingRun.2 = (.ok (), overridingRun.2) :=
    outcome_holding_of_ok (Lifetime.outcome_materialize (s := withHeld overridingRun.2 []) hi hmade "secret")
  refine ⟨_, hresolves, hprotected, ?_⟩
  exact (Reachable.protected_guarded (.between between_overridingRun) .refl 6).refused
    overridingObject "secret" {} _ _ hmat hresolves hprotected
    (between_overridingRun.not_privileged overridingObject)

end Session

end ObjectBridge
