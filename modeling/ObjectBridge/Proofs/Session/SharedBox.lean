import ObjectBridge.Proofs.Call.Guarded
import ObjectBridge.Proofs.Call.Phases
import ObjectBridge.Proofs.Call.WriteBack
import ObjectBridge.Proofs.Session.Reachable

/-!
# One box for several parameters

A caller may give one box for several parameters that are written back.  They are written back from the first to the
last, so the box holds what the body left for the last one.

* `Session.shared_box_keeps_last` — what the box holds when the body replaced the argument of one of them.
* `Session.first_not_kept` — the replacement is lost if another parameter comes after.
-/

namespace ObjectBridge.Session

open Run Delivery Conversion

/-- When a body replaced the argument of one parameter of a box and left the others, the box holds the replacement
if that is the last of its parameters, and otherwise what it held at the binding, as converted for the last one. -/
def KeepsLast (s s₁ s₂ : State) (args : CallArgs) (params : List Param) (binding : Binding)
    (updated : List Value) : Prop :=
  ∀ b < s₁.cells.size, ∀ i ∈ sharers args params binding.sources b, ∀ w, updated[i]? = some w →
    (∀ j ∈ sharers args params binding.sources b, j ≠ i → updated[j]? = binding.values[j]?) →
    ∃ k, IsGreatest (sharers args params binding.sources b) k ∧
      (k = i → s₂.cells.content b = w) ∧
      (k ≠ i → ∃ p cost, params[k]? = some p ∧
        convert s.toWorld p.type p.passing (.box b) = .ok (s₂.cells.content b, cost))

variable {s s₁ s₂ : State} {args after : CallArgs} {binding : Binding} {updated : List Value}

theorem keepsLast_of_pick {owner method : String} {overloads : List Overload} {o : Overload}
    (hpick : Selection.pick s.toWorld owner method overloads args = .ok (o, binding))
    (hsettle : (settle o.sig.params binding.sources updated args).outcome s₁ = (.ok after, s₂)) :
    KeepsLast s s₁ s₂ args o.sig.params binding updated := by
  obtain ⟨hsources, htakes⟩ := Selection.forall₂_of_pick hpick
  intro b hb i hi w hw huntouched
  obtain ⟨k, hgreatest⟩ := exists_isGreatest_sharers hi
  refine ⟨k, hgreatest, ?_, fun hne => ?_⟩
  · rintro rfl
    exact content_of_settle_of_isGreatest hsources hsettle hb hgreatest hw
  · obtain ⟨p, source, hp, -, hsource, hgiven⟩ := hgreatest.1
    have hbound : (o.sig.params.zip binding.sources)[k]? = some (p, source) :=
      List.getElem?_zip_eq_some.mpr ⟨hp, hsource⟩
    obtain ⟨u, hu, cost, hconv⟩ := exists_getElem?_of_forall₂ htakes hbound
    rw [CallArgs.raw_of_given hgiven] at hconv
    rw [content_of_settle_of_isGreatest hsources hsettle hb hgreatest
      ((huntouched k hgreatest.1 hne).trans hu)]
    exact ⟨p, cost, hp, hconv⟩

/-- A selected body ran, what it left was written back, and a box for several parameters holds what was left for the
last of them.  That is so when the call ends, if no deferred constructor ran for the result. -/
def ReturnedLast (exec : Exec) (s t : State) (recv : Option Handle) (chosen : Dispatch.Selected)
    (method : String) (args : CallArgs) (allowOverride : Bool) (after : CallArgs) : Prop :=
  ∃ v updated s₁ s₂,
    (holding args.values (Dispatch.runBody exec recv chosen method allowOverride)).outcome s =
      (.ok (v, updated), s₁) ∧
    KeepsLast s s₁ s₂ args chosen.overload.sig.params chosen.binding updated ∧
    (((giveBack noBody chosen.overload.sig.result chosen.owner method v).outcome
      (withHeld s₂ after.values)).1 ≠ .error .exhausted → t.cells = s₂.cells)

theorem returnedLast_of_execute {exec : Exec} {t : State} {recv : Option Handle} {chosen : Dispatch.Selected}
    {method owner : String} {allowOverride : Bool} {u : Value} {overloads : List Overload}
    (hpick : Selection.pick s.toWorld owner method overloads args = .ok (chosen.overload, chosen.binding))
    (hrun : (Dispatch.execute exec recv chosen method args allowOverride).outcome s =
      (.ok (u, after), t)) : ReturnedLast exec s t recv chosen method args allowOverride after := by
  obtain ⟨v, updated, s₁, s₂, t', hbody, hsettle, hgive, rfl⟩ := Dispatch.exists_of_outcome_execute hrun
  refine ⟨v, updated, s₁, s₂, hbody, keepsLast_of_pick hpick hsettle, fun hquiet => ?_⟩
  have hcells : t'.cells = (withHeld s₂ after.values).cells := cells_of_giveBack hquiet hgive
  exact hcells

/-- When a body or an override replaced the argument of just one of the parameters that a box was given for, the box
holds the replacement after the call if that parameter is the last one; otherwise it holds what it held before, as
converted for the last one. -/
theorem shared_box_keeps_last (exec : Exec) :
    (∀ s t recv method args allowOverride u after,
      (Dispatch.invoke exec recv method args allowOverride).outcome s = (.ok (u, after), t) →
      ∃ chosen s₀,
        (holding args.values (Dispatch.choose exec recv method args)).outcome s = (.ok chosen, s₀) ∧
        ((∃ code source, chosen.overload.body = .iterator code source) ∨
          ReturnedLast exec s₀ t (some recv) chosen method args allowOverride after)) ∧
    (∀ s t cls method args u after,
      (Dispatch.callStatic exec cls method args).outcome s = (.ok (u, after), t) →
      ∃ chosen, (Dispatch.chooseStatic cls method args).outcome s = (.ok chosen, s) ∧
        ReturnedLast exec s t none chosen method args false after) := by
  refine ⟨?_, ?_⟩
  · intro s t recv method args allowOverride u after hrun
    obtain ⟨chosen, s₀, overloads, hchoose, hpick, ⟨hiterated, -⟩ | hexecute⟩ :=
      Dispatch.exists_of_outcome_invoke hrun
    · exact ⟨chosen, s₀, hchoose, Or.inl hiterated⟩
    · exact ⟨chosen, s₀, hchoose, Or.inr (returnedLast_of_execute hpick hexecute)⟩
  · intro s t cls method args u after hrun
    obtain ⟨chosen, s₀, hchoose, hexecute⟩ := exists_of_outcome_bind hrun
    obtain ⟨rfl, ⟨overloads, -, hpick⟩, -⟩ := Dispatch.resolves_of_outcome_chooseStatic hchoose
    exact ⟨chosen, hchoose, returnedLast_of_execute hpick hexecute⟩

/-! ## A box of a session -/

/-- Two parameters that are written back. -/
def twoReferences : List (Script.ParamSpec Script.Expr) :=
  [{ name := "a", type := .bool, passing := .ref }, { name := "b", type := .bool, passing := .ref }]

/-- A class whose method `first` sets the first of two arguments, and `last` the last one. -/
def sharingClass : Script.ClassSpec Script.Expr Script.Stmt := {
  name := "Node"
  shape := .script
  members := [
    .method "first" { params := twoReferences } [.perform (.setArg 0 (.lit (.bool true))) none],
    .method "last" { params := twoReferences } [.perform (.setArg 1 (.lit (.bool true))) none]] }

/-- A session that registers the class, keeps an object of it in a variable and a box with a truth value in another
one. -/
def sharingRun : Except Fault Value × State :=
  andThen (start {} []) 6 (.list [
    .perform (.defineClass sharingClass) none,
    .perform (.create (.named "Node") .script (.map []) false) (some "x"),
    .perform (.set (.box (.lit (.bool false)))) (some "b")])

/-- The box of the session, given for two parameters. -/
def shared : CallArgs :=
  ⟨[.box 0, .box 0], []⟩

/-- A method of the session is called with the box for both of its parameters. -/
structure SharingCall (method : String) (left : List Bool) (chosen : Dispatch.Selected) (s₀ s₁ t : State)
    (v u : Value) (after : CallArgs) : Prop where
  choose : (holding shared.values (Dispatch.choose (Script.interpreter 6).exec crossingObject method
    shared)).outcome sharingRun.2 = (.ok chosen, s₀)
  body : (holding shared.values (Dispatch.runBody (Script.interpreter 6).exec (some crossingObject) chosen
    method true)).outcome s₀ = (.ok (v, left.map .bool), s₁)
  invoke : (Dispatch.invoke (Script.interpreter 6).exec crossingObject method shared true).outcome
    sharingRun.2 = (.ok (u, after), t)
  size_eq : s₁.cells.size = 1
  not_iterator : ∀ code source, chosen.overload.body ≠ .iterator code source
  result_eq : chosen.overload.sig.result = none
  values_eq : chosen.binding.values = [.bool false, .bool false]
  sharers_eq : sharers shared chosen.overload.sig.params chosen.binding.sources 0 = {0, 1}

/-- Parameters of two references are both given the box. -/
theorem sharers_shared {params : List Param}
    (hparams : params.map (fun p => (p.type, p.passing)) = List.replicate 2 (.bool, .ref)) :
    sharers shared params [.positional 0, .positional 1] 0 = {0, 1} := by
  obtain ⟨p, rest, rfl, hp, hrest⟩ := List.map_eq_cons_iff.mp hparams
  obtain ⟨q, rest, rfl, hq, hrest⟩ := List.map_eq_cons_iff.mp hrest
  obtain rfl := List.map_eq_nil_iff.mp hrest
  have houtput {p : Param} (hp : (p.type, p.passing) = (.bool, .ref)) : isOutput p = true := by
    obtain ⟨htype, hpassing⟩ := Prod.mk.inj hp
    simp [isOutput, htype, hpassing, Passing.writesBack, Ty.isObject]
  ext i
  constructor
  · rintro ⟨_, _, hi, -⟩
    have hlt : i < 2 := (List.getElem?_eq_some_iff.mp hi).1
    simp only [Set.mem_insert_iff, Set.mem_singleton_iff]
    omega
  · rintro (rfl | rfl)
    · exact ⟨p, _, rfl, houtput hp, rfl, rfl⟩
    · exact ⟨q, _, rfl, houtput hq, rfl, rfl⟩

theorem exists_sharingCall {method : String} {left : List Bool}
    (hmethod : (method, left) ∈ [("first", [true, false]), ("last", [false, true])]) :
    ∃ chosen s₀ s₁ t v u after, SharingCall method left chosen s₀ s₁ t v u after := by
  have hcases : (method = "first" ∧ left = [true, false]) ∨ method = "last" ∧ left = [false, true] := by
    simpa using hmethod
  have hchosen : ((holding shared.values (Dispatch.choose (Script.interpreter 6).exec crossingObject method
      shared)).outcome sharingRun.2).1.toOption.map (fun chosen =>
        (chosen.overload.sig.params.map (fun p => (p.type, p.passing)), chosen.overload.sig.result.isNone,
          chosen.binding.sources, chosen.binding.values.map Value.bool?)) =
      some (List.replicate 2 (.bool, .ref), true, [.positional 0, .positional 1],
        [some false, some false]) := by
    rcases hcases with ⟨rfl, rfl⟩ | ⟨rfl, rfl⟩ <;> decide +kernel
  have hsort : ((holding shared.values (Dispatch.choose (Script.interpreter 6).exec crossingObject method
      shared)).outcome sharingRun.2).1.toOption.map (fun chosen => chosen.overload.body.sort) = some "Native" := by
    rcases hcases with ⟨rfl, rfl⟩ | ⟨rfl, rfl⟩ <;> decide +kernel
  have hleft : ((holding shared.values (Dispatch.choose (Script.interpreter 6).exec crossingObject method
      shared) >>= fun chosen => holding shared.values (Dispatch.runBody (Script.interpreter 6).exec
        (some crossingObject) chosen method true)).outcome sharingRun.2).1.toOption.map
          (fun left => left.2.map Value.bool?) = some (left.map some) := by
    rcases hcases with ⟨rfl, rfl⟩ | ⟨rfl, rfl⟩ <;> decide +kernel
  have hsize : ((holding shared.values (Dispatch.choose (Script.interpreter 6).exec crossingObject method
      shared) >>= fun chosen => holding shared.values (Dispatch.runBody (Script.interpreter 6).exec
        (some crossingObject) chosen method true)).outcome sharingRun.2).2.cells.size = 1 := by
    rcases hcases with ⟨rfl, rfl⟩ | ⟨rfl, rfl⟩ <;> decide +kernel
  have hended : ((Dispatch.invoke (Script.interpreter 6).exec crossingObject method shared true).outcome
      sharingRun.2).1.toOption.map (fun _ => ()) = some () := by
    rcases hcases with ⟨rfl, rfl⟩ | ⟨rfl, rfl⟩ <;> decide +kernel
  -- The stages are evaluated; from here on their results are named and related.
  obtain ⟨chosen, s₀, hchoose, hfacts⟩ := exists_of_toOption hchosen
  simp only [Prod.mk.injEq] at hfacts
  obtain ⟨hparams, hresult, hsources, hvalues⟩ := hfacts
  rw [outcome_bind_of_ok hchoose] at hleft hsize
  rw [hchoose] at hsort
  obtain ⟨⟨v, updated⟩, s₁, hbody, hupdated⟩ := exists_of_toOption hleft
  obtain ⟨⟨u, after⟩, t, hinvoke, -⟩ := exists_of_toOption hended
  obtain rfl : updated = left.map .bool := Value.eq_bools_of_bool? hupdated
  have hbound : chosen.binding.values = [false, false].map .bool := Value.eq_bools_of_bool? hvalues
  rw [hbody] at hsize
  refine ⟨chosen, s₀, s₁, t, v, u, after, hchoose, hbody, hinvoke, hsize, fun code source hiterator => ?_,
    Option.isNone_iff_eq_none.mp hresult, hbound, hsources ▸ sharers_shared hparams⟩
  have hnative : chosen.overload.body.sort = "Native" := Option.some.inj hsort
  rw [hiterator, Body.sort] at hnative
  exact absurd hnative (by decide)

/-- The body of `last` replaces the second argument, and the box holds it after the call. -/
theorem last_kept :
    ∃ u after t,
      (Dispatch.invoke (Script.interpreter 6).exec crossingObject "last" shared true).outcome sharingRun.2 =
        (.ok (u, after), t) ∧
      t.cells.content 0 = .bool true := by
  have hmethod : ("last", [false, true]) ∈ [("first", [true, false]), ("last", [false, true])] := by simp
  obtain ⟨chosen, s₀, s₁, t, v, u, after, hcall⟩ := exists_sharingCall hmethod
  refine ⟨u, after, t, hcall.invoke, ?_⟩
  obtain ⟨chosen', s₀', hchoose, ⟨code, source, hiterator⟩ | ⟨v', updated, s₁', s₂, hbody, hlast, hquiet⟩⟩ :=
    (shared_box_keeps_last (Script.interpreter 6).exec).1 _ _ _ _ _ _ _ _ hcall.invoke
  all_goals
    obtain ⟨hchosen, rfl⟩ := Prod.mk.inj (hcall.choose.symm.trans hchoose)
    obtain rfl := Except.ok.inj hchosen
  · exact (hcall.not_iterator code source hiterator).elim
  · obtain ⟨hleft, rfl⟩ := Prod.mk.inj (hcall.body.symm.trans hbody)
    obtain ⟨rfl, rfl⟩ := Prod.mk.inj (Except.ok.inj hleft)
    have hcells : t.cells = s₂.cells := hquiet fun hstopped => by
      rw [hcall.result_eq] at hstopped
      cases hstopped
    rw [hcells]
    rw [KeepsLast, hcall.size_eq] at hlast
    obtain ⟨k, hgreatest, hkept, -⟩ := hlast 0 Nat.one_pos 1 (by simp [hcall.sharers_eq]) _ rfl (by
      rw [hcall.sharers_eq, hcall.values_eq]
      rintro j (rfl | rfl) hne
      · rfl
      · exact absurd rfl hne)
    refine hkept (hgreatest.unique ?_)
    rw [hcall.sharers_eq]
    exact ⟨by simp, by rintro j (rfl | rfl) <;> simp⟩

/-- The body of `first` replaces the first argument, and what it left of the second one is written over it. -/
theorem first_not_kept :
    ¬∀ budget s t recv method args allowOverride chosen s₀ v updated s₁ u after,
      (holding args.values (Dispatch.choose (Script.interpreter budget).exec recv method args)).outcome s =
        (.ok chosen, s₀) →
      (holding args.values (Dispatch.runBody (Script.interpreter budget).exec (some recv) chosen method
        allowOverride)).outcome s₀ = (.ok (v, updated), s₁) →
      (Dispatch.invoke (Script.interpreter budget).exec recv method args allowOverride).outcome s =
        (.ok (u, after), t) →
      ∀ b < s₁.cells.size, ∀ i ∈ sharers args chosen.overload.sig.params chosen.binding.sources b,
        ∀ w, updated[i]? = some w →
        (∀ j ∈ sharers args chosen.overload.sig.params chosen.binding.sources b, j ≠ i →
          updated[j]? = chosen.binding.values[j]?) →
        t.cells.content b = w := by
  intro hclaim
  have hmethod : ("first", [true, false]) ∈ [("first", [true, false]), ("last", [false, true])] := by simp
  obtain ⟨chosen, s₀, s₁, t, v, u, after, hcall⟩ := exists_sharingCall hmethod
  have hlost : (((Dispatch.invoke (Script.interpreter 6).exec crossingObject "first" shared true).outcome
      sharingRun.2).2.cells.content 0).bool? = some false := by
    decide +kernel
  -- Only the first argument was changed, so the statement gives the box its value.
  have hkept : t.cells.content 0 = .bool true := by
    refine hclaim 6 _ _ _ _ _ _ _ _ _ _ _ _ _ hcall.choose hcall.body hcall.invoke 0
      (hcall.size_eq ▸ Nat.one_pos) 0 ?_ _ rfl ?_
    · rw [hcall.sharers_eq]
      exact Set.mem_insert _ _
    · rw [hcall.sharers_eq, hcall.values_eq]
      rintro j (rfl | rfl) hne
      · exact absurd rfl hne
      · rfl
  rw [hcall.invoke, hkept] at hlost
  cases hlost

end ObjectBridge.Session
