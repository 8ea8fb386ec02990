import ObjectBridge.Proofs.Call.Leaving
import ObjectBridge.Proofs.Session.WrittenBack
import ObjectBridge.Proofs.Value.Circles

/-!
# Boxes inside of themselves

A box that is given for a parameter of any type is bound as it is, and if the body does not touch it, the box is
written back into itself.  Other parameters are bound to what is in the box, so writing them back closes no circle.

* `Session.box_written_into_itself_or_free` — the boxes that the caller's arguments lead to, after a call.
* `Session.look_closes_circle` — a call whose body does nothing at all.
-/

namespace ObjectBridge.Session

open Run Delivery

/-- A value mentions no box that another one does not mention. -/
def AddsNoBox (v u : Value) : Prop :=
  ∀ b ∈ u.boxes, b ∈ v.boxes

/-- No box is given for a parameter of any type that is written back. -/
def NoBoxForAny (args : CallArgs) (params : List Param) (sources : List Source) : Prop :=
  ∀ p source b, (p, source) ∈ params.zip sources → isOutput p = true → args.given? source = some (.box b) →
    p.type ≠ .any

/-- A box that was given for a parameter of any type, and for no later one, holds itself. -/
def HoldsItself (s₁ s₂ : State) (args : CallArgs) (params : List Param) (sources : List Source) : Prop :=
  ∀ b < s₁.cells.size, ∀ k, IsGreatest (sharers args params sources b) k →
    ∀ p, params[k]? = some p → p.type = .any → s₂.cells.content b = .box b

/-- If no box that the arguments lead to was inside of itself, and nothing that ran added a box to one of them, then
none is inside of itself, and looking through them comes to an end. -/
def StaysFree (s s₁ s₂ : State) (args after : CallArgs) (params : List Param) (sources : List Source) : Prop :=
  NoBoxForAny args params sources → s.cells.NoCircle args.values →
    (∀ b, s.cells.Leads args.values (.box b) → AddsNoBox (s.cells.content b) (s₁.cells.content b)) →
    s₂.cells.NoCircle (args.values ++ after.values) ∧
      ∀ b, s₂.cells.Leads (args.values ++ after.values) (.box b) → s₂.cells.Ends b

variable {s s₁ s₂ : State} {args after : CallArgs} {params : List Param} {binding : Binding} {updated : List Value}
  {ρ : Value → Value → Prop}

theorem holdsItself_of_leavesOutputs (hsources : args.findSources params = .ok binding.sources)
    (htakes : List.Forall₂ (args.Takes s.toWorld) (params.zip binding.sources) binding.values)
    (hleaves : LeavesOutputs Eq params binding.values updated)
    (hsettle : (settle params binding.sources updated args).outcome s₁ = (.ok after, s₂)) :
    HoldsItself s₁ s₂ args params binding.sources := by
  intro b hb k hgreatest p hp htype
  obtain ⟨q, source, hq, houtput, hsource, hgiven⟩ := hgreatest.1
  obtain rfl := Option.some.inj (hp.symm.trans hq)
  have hbound : (params.zip binding.sources)[k]? = some (p, source) :=
    List.getElem?_zip_eq_some.mpr ⟨hp, hsource⟩
  obtain ⟨x, hx, cost, hconv⟩ := exists_getElem?_of_forall₂ htakes hbound
  obtain ⟨u, hu, rfl⟩ := hleaves k p x hp houtput hx
  rw [CallArgs.raw_of_given hgiven, htype, Conversion.convert] at hconv
  rw [content_of_settle_of_isGreatest hsources hsettle hb hgreatest hu]
  exact (Prod.mk.inj (Except.ok.inj hconv)).1.symm

/-- What is left of an output is related to what the parameter took. -/
theorem exists_of_mem_lefts (htakes : List.Forall₂ (args.Takes s.toWorld) (params.zip binding.sources) binding.values)
    (hleaves : LeavesOutputs ρ params binding.values updated) {left : Left}
    (hleft : left ∈ params.zip (binding.sources.zip updated)) (houtput : isOutput left.1 = true) :
    (left.1, left.2.1) ∈ params.zip binding.sources ∧
      ∃ x cost, Conversion.convert s.toWorld left.1.type left.1.passing (args.raw left.1 left.2.1) = .ok (x, cost) ∧
        ρ x left.2.2 := by
  obtain ⟨p, source, u⟩ := left
  obtain ⟨i, hi⟩ := List.mem_iff_getElem?.mp hleft
  simp only [List.getElem?_zip_eq_some] at hi
  obtain ⟨hp, hsource, hu⟩ := hi
  have hbound : (params.zip binding.sources)[i]? = some (p, source) :=
    List.getElem?_zip_eq_some.mpr ⟨hp, hsource⟩
  obtain ⟨x, hx, cost, hconv⟩ := exists_getElem?_of_forall₂ htakes hbound
  obtain ⟨u', hu', hρ⟩ := hleaves i p x hp houtput hx
  obtain rfl := Option.some.inj (hu.symm.trans hu')
  exact ⟨List.mem_of_getElem? hbound, x, cost, hconv, hρ⟩

theorem staysFree_of_leavesOutputs (hsources : args.findSources params = .ok binding.sources)
    (htakes : List.Forall₂ (args.Takes s.toWorld) (params.zip binding.sources) binding.values)
    (hleaves : LeavesOutputs AddsNoBox params binding.values updated)
    (hsettle : (settle params binding.sources updated args).outcome s₁ = (.ok after, s₂)) :
    StaysFree s s₁ s₂ args after params binding.sources := by
  intro hany hfree hadds
  obtain ⟨hwritten, -⟩ := writtenBack_of_settle hsources hsettle
  have hgiven {v : Value} (hv : v ∈ args.values) {b : BoxId} (hb : b ∈ v.boxes) :
      s.cells.Leads args.values (.box b) := (Cells.closed_leads _ _).box (.start hv) hb
  -- A box is written back only what was inside of it.
  have hholds : ∀ b c, s.cells.Leads args.values (.box b) → s₂.cells.Holds b c → s.cells.Inside b c := by
    intro b c hb hc
    rcases hwritten.box b (hwritten.size_eq ▸ hc.lt_size) with ⟨left, hleft, ⟨houtput, hbox⟩, hcontent⟩ | ⟨hsame, -⟩
    · obtain ⟨hbound, x, cost, hconv, hρ⟩ := exists_of_mem_lefts htakes hleaves hleft houtput
      rw [CallArgs.raw_of_given hbox] at hconv
      rw [Cells.Holds, hcontent] at hc
      exact Cells.inside_of_convert (hany _ _ b hbound houtput hbox) hconv c (hρ c hc)
    · rw [Cells.Holds, hsame] at hc
      exact .single (hadds b hb c hc)
  -- A list or a map is replaced by one that mentions only what it led to.
  have hvalues : ∀ v ∈ args.values ++ after.values, ∀ b ∈ v.boxes, s.cells.Leads args.values (.box b) := by
    intro v hv b hb
    rcases List.mem_append.mp hv with hv | hv
    · exact hgiven hv hb
    · obtain ⟨source, hsource⟩ := CallArgs.mem_values_iff.mp hv
      rcases hwritten.argument source with ⟨left, hleft, ⟨houtput, rfl, w, hw, -⟩, hreplaced⟩ | ⟨hsame, -⟩
      · obtain ⟨-, x, cost, hconv, hρ⟩ := exists_of_mem_lefts htakes hleaves hleft houtput
        obtain rfl := Option.some.inj (hsource.symm.trans hreplaced)
        rw [CallArgs.raw_of_given hw] at hconv
        refine (Cells.leads_of_convert hconv b (hρ b hb)).mono fun y hy => ?_
        rw [List.mem_singleton.mp hy]
        exact CallArgs.mem_values_iff.mpr ⟨_, hw⟩
      · exact hgiven (CallArgs.mem_values_iff.mpr ⟨source, hsame ▸ hsource⟩) hb
  have hlater := hfree.of_holds hholds hvalues
  exact ⟨hlater, fun b hb => hlater.ends hb⟩

/-- A selected body ran, and what it left was written back.  If it did not touch its arguments, a box for a parameter
of any type holds itself; otherwise, if it added no box, no circle is closed.  That is so when the call ends, if no
deferred constructor runs for the result. -/
def ReturnedFree (exec : Exec) (s t : State) (recv : Option Handle) (chosen : Dispatch.Selected)
    (method : String) (args : CallArgs) (allowOverride : Bool) (after : CallArgs) : Prop :=
  ∃ v updated s₁ s₂,
    (holding args.values (Dispatch.runBody exec recv chosen method allowOverride)).outcome s =
      (.ok (v, updated), s₁) ∧
    (Dispatch.Leaves Eq exec recv chosen method allowOverride (withHeld s args.values) →
      HoldsItself s₁ s₂ args chosen.overload.sig.params chosen.binding.sources) ∧
    (Dispatch.Leaves AddsNoBox exec recv chosen method allowOverride (withHeld s args.values) →
      StaysFree s s₁ s₂ args after chosen.overload.sig.params chosen.binding.sources) ∧
    (((giveBack noBody chosen.overload.sig.result chosen.owner method v).outcome
      (withHeld s₂ after.values)).1 ≠ .error .exhausted → t.cells = s₂.cells)

theorem returnedFree_of_execute {exec : Exec} {t : State} {recv : Option Handle} {chosen : Dispatch.Selected}
    {method owner : String} {allowOverride : Bool} {u : Value} {overloads : List Overload}
    (hpick : Selection.pick s.toWorld owner method overloads args = .ok (chosen.overload, chosen.binding))
    (hrun : (Dispatch.execute exec recv chosen method args allowOverride).outcome s =
      (.ok (u, after), t)) : ReturnedFree exec s t recv chosen method args allowOverride after := by
  obtain ⟨v, updated, s₁, s₂, t', hbody, hsettle, hgive, rfl⟩ := Dispatch.exists_of_outcome_execute hrun
  obtain ⟨hsources, htakes⟩ := Selection.forall₂_of_pick hpick
  obtain ⟨s₁', hinner, rfl⟩ := exists_of_outcome_holding hbody
  refine ⟨v, updated, _, s₂, hbody, fun hleaves => ?_, fun hleaves => ?_, fun hquiet => ?_⟩
  · exact holdsItself_of_leavesOutputs hsources htakes (hleaves.leavesOutputs hinner) hsettle
  · exact staysFree_of_leavesOutputs hsources htakes (hleaves.leavesOutputs hinner) hsettle
  · have hcells : t'.cells = (withHeld s₂ after.values).cells := cells_of_giveBack hquiet hgive
    exact hcells

/-- When a body or an override left its arguments alone, a box that was given for a parameter of any type is written
back into itself.  If no box was given for such a parameter and the body added no box to what it found, no box that
the caller's arguments lead to is inside of itself after the call, unless one was before. -/
theorem box_written_into_itself_or_free (exec : Exec) :
    (∀ s t recv method args allowOverride u after,
      (Dispatch.invoke exec recv method args allowOverride).outcome s = (.ok (u, after), t) →
      ∃ chosen s₀,
        (holding args.values (Dispatch.choose exec recv method args)).outcome s = (.ok chosen, s₀) ∧
        (((holding args.values (Dispatch.choose noBody recv method args)).outcome s).1 ≠ .error .exhausted →
          s₀.cells = s.cells) ∧
        ((∃ code source, chosen.overload.body = .iterator code source) ∧ after = args ∨
          ReturnedFree exec s₀ t (some recv) chosen method args allowOverride after)) ∧
    (∀ s t cls method args u after,
      (Dispatch.callStatic exec cls method args).outcome s = (.ok (u, after), t) →
      ∃ chosen, (Dispatch.chooseStatic cls method args).outcome s = (.ok chosen, s) ∧
        ReturnedFree exec s t none chosen method args false after) := by
  refine ⟨?_, ?_⟩
  · intro s t recv method args allowOverride u after hrun
    obtain ⟨chosen, s₀, overloads, hchoose, hpick, hrest⟩ := Dispatch.exists_of_outcome_invoke hrun
    refine ⟨chosen, s₀, hchoose, fun hquiet => Dispatch.cells_of_choose hquiet hchoose, ?_⟩
    exact hrest.imp id fun hexecute => returnedFree_of_execute hpick hexecute
  · intro s t cls method args u after hrun
    obtain ⟨chosen, s₀, hchoose, hexecute⟩ := exists_of_outcome_bind hrun
    obtain ⟨rfl, ⟨overloads, -, hpick⟩, -⟩ := Dispatch.resolves_of_outcome_chooseStatic hchoose
    exact ⟨chosen, hchoose, returnedFree_of_execute hpick hexecute⟩

/-! ## A box of a session -/

/-- A class whose methods `look` and `read` do nothing with an argument of any type, and with a truth value. -/
def watchingClass : Script.ClassSpec Script.Expr Script.Stmt := {
  name := "Node"
  shape := .script
  members := [
    .method "look" { params := [{ name := "a", type := .any, passing := .ref }] } [],
    .method "read" { params := [{ name := "a", type := .bool, passing := .ref }] } []] }

/-- A session that registers the class, keeps an object of it in a variable and a box with a truth value in another
one. -/
def watchingRun : Except Fault Value × State :=
  andThen (start {} []) 6 (.list [
    .perform (.defineClass watchingClass) none,
    .perform (.create (.named "Node") .script (.map []) false) (some "x"),
    .perform (.set (.box (.lit (.bool false)))) (some "b")])

/-- A native body has no statement. -/
def isIdle : Body → Bool
  | .native code => code.isEmpty
  | _ => false

theorem eq_native_nil_of_isIdle {body : Body} (hidle : isIdle body = true) : body = .native [] := by
  cases body with
  | native code => rw [List.isEmpty_iff.mp hidle]
  | iterator code source => cases hidle
  | constructor code shape => cases hidle

/-- A body without a statement does nothing. -/
theorem outcome_exec_nil {budget : Nat} {s : State} (hs : s.stepsLeft = none) :
    ((Script.interpreter (budget + 1)).exec []).outcome s = (.ok (), s) := by
  have htick : tick.outcome s = (.ok (), s) := by
    rw [outcome_tick, hs]
  exact outcome_bind_of_ok htick _

/-- A box that holds a truth value is alone. -/
def HoldsOneTruth (cells : Cells) : Prop :=
  cells.size = 1 ∧ (cells.content 0).bool? = some false

theorem HoldsOneTruth.boxes_eq {cells : Cells} (h : HoldsOneTruth cells) (b : BoxId) :
    (cells.content b).boxes = [] := by
  by_cases hb : b = 0
  · rw [hb, Value.eq_bool_of_bool? h.2]
    rfl
  · exact Cells.boxes_content_of_le (h.1 ▸ Nat.one_le_iff_ne_zero.mpr hb)

theorem HoldsOneTruth.noCircle {cells : Cells} (h : HoldsOneTruth cells) (values : List Value) :
    cells.NoCircle values := by
  rintro b - hcircle
  obtain ⟨c, hc, -⟩ := Relation.TransGen.head'_iff.mp hcircle
  rw [Cells.Holds, h.boxes_eq] at hc
  cases hc

/-- A method of the session that does nothing is called with the box. -/
structure WatchingCall (method : String) (type : Ty) (chosen : Dispatch.Selected) (s₀ s₁ t : State) (v u : Value)
    (updated : List Value) (after : CallArgs) : Prop where
  choose : (holding boxed.values (Dispatch.choose (Script.interpreter 6).exec crossingObject method
    boxed)).outcome watchingRun.2 = (.ok chosen, s₀)
  body : (holding boxed.values (Dispatch.runBody (Script.interpreter 6).exec (some crossingObject) chosen
    method true)).outcome s₀ = (.ok (v, updated), s₁)
  invoke : (Dispatch.invoke (Script.interpreter 6).exec crossingObject method boxed true).outcome
    watchingRun.2 = (.ok (u, after), t)
  params_eq : chosen.overload.sig.params.map (fun p => (p.type, p.passing)) = [(type, .ref)]
  sources_eq : chosen.binding.sources = [.positional 0]
  leaves : Dispatch.Leaves Eq (Script.interpreter 6).exec (some crossingObject) chosen method true
    (withHeld s₀ boxed.values)
  not_iterator : ∀ code source, chosen.overload.body ≠ .iterator code source
  result_eq : chosen.overload.sig.result = none
  before : HoldsOneTruth s₀.cells
  between : HoldsOneTruth s₁.cells

theorem exists_watchingCall {method : String} {type : Ty}
    (hmethod : (method, type) ∈ [("look", .any), ("read", Ty.bool)]) :
    ∃ chosen s₀ s₁ t v u updated after, WatchingCall method type chosen s₀ s₁ t v u updated after := by
  have hcases : (method = "look" ∧ type = .any) ∨ method = "read" ∧ type = .bool := by simpa using hmethod
  -- Each stage of the call is evaluated once, and its results are named afterwards.
  have hchosen : ((holding boxed.values (Dispatch.choose (Script.interpreter 6).exec crossingObject method
      boxed)).outcome watchingRun.2).1.toOption.map (fun chosen =>
        (chosen.overload.sig.params.map (fun p => (p.type, p.passing)), chosen.overload.sig.result.isNone,
          isIdle chosen.overload.body, chosen.overload.sig.isVirtual, chosen.binding.sources)) =
      some ([(type, .ref)], true, true, false, [.positional 0]) := by
    rcases hcases with ⟨rfl, rfl⟩ | ⟨rfl, rfl⟩ <;> decide +kernel
  have hunlimited : ((holding boxed.values (Dispatch.choose (Script.interpreter 6).exec crossingObject method
      boxed)).outcome watchingRun.2).2.stepsLeft = none := by
    rcases hcases with ⟨rfl, rfl⟩ | ⟨rfl, rfl⟩ <;> decide +kernel
  have hbefore : HoldsOneTruth ((holding boxed.values (Dispatch.choose (Script.interpreter 6).exec
      crossingObject method boxed)).outcome watchingRun.2).2.cells := by
    rcases hcases with ⟨rfl, rfl⟩ | ⟨rfl, rfl⟩ <;> exact ⟨by decide +kernel, by decide +kernel⟩
  have hran : ((holding boxed.values (Dispatch.choose (Script.interpreter 6).exec crossingObject method
      boxed) >>= fun chosen => holding boxed.values (Dispatch.runBody (Script.interpreter 6).exec
        (some crossingObject) chosen method true)).outcome watchingRun.2).1.toOption.map
          (fun _ => ()) = some () := by
    rcases hcases with ⟨rfl, rfl⟩ | ⟨rfl, rfl⟩ <;> decide +kernel
  have hbetween : HoldsOneTruth ((holding boxed.values (Dispatch.choose (Script.interpreter 6).exec crossingObject
      method boxed) >>= fun chosen => holding boxed.values (Dispatch.runBody (Script.interpreter 6).exec
        (some crossingObject) chosen method true)).outcome watchingRun.2).2.cells := by
    rcases hcases with ⟨rfl, rfl⟩ | ⟨rfl, rfl⟩ <;> exact ⟨by decide +kernel, by decide +kernel⟩
  have hended : ((Dispatch.invoke (Script.interpreter 6).exec crossingObject method boxed true).outcome
      watchingRun.2).1.toOption.map (fun _ => ()) = some () := by
    rcases hcases with ⟨rfl, rfl⟩ | ⟨rfl, rfl⟩ <;> decide +kernel
  obtain ⟨chosen, s₀, hchoose, hfacts⟩ := exists_of_toOption hchosen
  simp only [Prod.mk.injEq] at hfacts
  obtain ⟨hparams, hresult, hidle, hvirtual, hsources⟩ := hfacts
  rw [outcome_bind_of_ok hchoose] at hran hbetween
  rw [hchoose] at hbefore hunlimited
  obtain ⟨⟨v, updated⟩, s₁, hbody, -⟩ := exists_of_toOption hran
  obtain ⟨⟨u, after⟩, t, hinvoke, -⟩ := exists_of_toOption hended
  rw [hbody] at hbetween
  have hcode : chosen.overload.body = .native [] := eq_native_nil_of_isIdle hidle
  have hobjects : ∀ p ∈ chosen.overload.sig.params, p.type.isObject = false := by
    intro p hp
    have hmem := List.mem_map_of_mem (f := fun p => (p.type, p.passing)) hp
    rw [hparams, List.mem_singleton] at hmem
    rw [(Prod.mk.inj hmem).1]
    rcases hcases with ⟨-, rfl⟩ | ⟨-, rfl⟩ <;> rfl
  refine ⟨chosen, s₀, s₁, t, v, u, updated, after, hchoose, hbody, hinvoke, hparams, hsources,
    Dispatch.leaves_of_idle hcode hobjects hvirtual fun s' hs' => outcome_exec_nil (hs'.trans hunlimited),
    fun code source hiterator => ?_, Option.isNone_iff_eq_none.mp hresult, hbefore, hbetween⟩
  rw [hcode] at hiterator
  cases hiterator

/-- The body of `read` does nothing, and the box is not inside of itself after the call. -/
theorem read_closes_no_circle :
    ∃ u after t,
      (Dispatch.invoke (Script.interpreter 6).exec crossingObject "read" boxed true).outcome watchingRun.2 =
        (.ok (u, after), t) ∧
      ¬t.cells.Inside 0 0 ∧ t.cells.Ends 0 := by
  have hmethod : ("read", Ty.bool) ∈ [("look", .any), ("read", Ty.bool)] := by simp
  obtain ⟨chosen, s₀, s₁, t, v, u, updated, after, hcall⟩ := exists_watchingCall hmethod
  refine ⟨u, after, t, hcall.invoke, ?_⟩
  obtain ⟨chosen', s₀', hchoose, -, ⟨⟨code, source, hiterator⟩, -⟩ |
      ⟨v', updated', s₁', s₂, hbody, -, hfree, hquiet⟩⟩ :=
    (box_written_into_itself_or_free (Script.interpreter 6).exec).1 _ _ _ _ _ _ _ _ hcall.invoke
  all_goals
    obtain ⟨hchosen, rfl⟩ := Prod.mk.inj (hcall.choose.symm.trans hchoose)
    obtain rfl := Except.ok.inj hchosen
  · exact (hcall.not_iterator code source hiterator).elim
  · obtain ⟨hleft, rfl⟩ := Prod.mk.inj (hcall.body.symm.trans hbody)
    obtain ⟨rfl, rfl⟩ := Prod.mk.inj (Except.ok.inj hleft)
    have hcells : t.cells = s₂.cells := hquiet fun hstopped => by
      rw [hcall.result_eq] at hstopped
      cases hstopped
    -- The one parameter is a truth value, so no box is taken for `any`.
    have hnone : NoBoxForAny boxed chosen.overload.sig.params chosen.binding.sources := by
      intro p source b hp _ _
      have hmem := List.mem_map_of_mem (f := fun p => (p.type, p.passing)) (List.of_mem_zip hp).1
      rw [hcall.params_eq, List.mem_singleton] at hmem
      rw [(Prod.mk.inj hmem).1]
      exact fun hany => by cases hany
    have hleaves : Dispatch.Leaves AddsNoBox (Script.interpreter 6).exec (some crossingObject) chosen "read" true
        (withHeld s₀ boxed.values) := by
      refine hcall.leaves.mono ?_
      rintro v u rfl b hb
      exact hb
    obtain ⟨hcircle, hends⟩ := hfree hleaves hnone (hcall.before.noCircle _)
      fun b _ c hc => by rw [hcall.between.boxes_eq] at hc; cases hc
    have hbox : s₂.cells.Leads (boxed.values ++ after.values) (.box 0) := .start (by simp [boxed, CallArgs.values])
    rw [hcells]
    exact ⟨hcircle 0 hbox, hends 0 hbox⟩

/-- The body of `look` does nothing, and the box is inside of itself after the call. -/
theorem look_closes_circle :
    ¬∀ budget s t recv method args allowOverride chosen s₀ v updated s₁ u after,
      (holding args.values (Dispatch.choose (Script.interpreter budget).exec recv method args)).outcome s =
        (.ok chosen, s₀) →
      (holding args.values (Dispatch.runBody (Script.interpreter budget).exec (some recv) chosen method
        allowOverride)).outcome s₀ = (.ok (v, updated), s₁) →
      (Dispatch.invoke (Script.interpreter budget).exec recv method args allowOverride).outcome s =
        (.ok (u, after), t) →
      Dispatch.Leaves Eq (Script.interpreter budget).exec (some recv) chosen method allowOverride
        (withHeld s₀ args.values) →
      (∀ b, s₁.cells.content b = s₀.cells.content b) → s₀.cells.NoCircle args.values →
      t.cells.NoCircle args.values ∨
        ∀ b, ∀ k ∈ sharers args chosen.overload.sig.params chosen.binding.sources b,
          ∀ p, chosen.overload.sig.params[k]? = some p → p.type = .any →
            t.cells.content b = s₀.cells.content b := by
  intro hclaim
  have hmethod : ("look", Ty.any) ∈ [("look", .any), ("read", Ty.bool)] := by simp
  obtain ⟨chosen, s₀, s₁, t, v, u, updated, after, hcall⟩ := exists_watchingCall hmethod
  have hcontent : (((Dispatch.invoke (Script.interpreter 6).exec crossingObject "look" boxed true).outcome
      watchingRun.2).2.cells.content 0).box? = some 0 := by
    decide +kernel
  rw [hcall.invoke] at hcontent
  have hitself : t.cells.content 0 = .box 0 := Value.eq_box_of_box? hcontent
  have hbefore := Value.eq_bool_of_bool? hcall.before.2
  have hkept (b : BoxId) : s₁.cells.content b = s₀.cells.content b := by
    by_cases hb : b = 0
    · rw [hb, hbefore, Value.eq_bool_of_bool? hcall.between.2]
    · have hout {cells : Cells} (h : HoldsOneTruth cells) : cells.content b = .nil := by
        have hle : ¬b < cells.size := by
          rw [h.1, Nat.lt_one_iff]
          exact hb
        simp [Cells.content, Array.getD_eq_getD_getElem?, hle]
      rw [hout hcall.before, hout hcall.between]
  -- At the end the box holds itself, which is a circle and not what it held before.
  rcases hclaim 6 _ _ _ _ _ _ _ _ _ _ _ _ _ hcall.choose hcall.body hcall.invoke hcall.leaves hkept
    (hcall.before.noCircle _) with hfree | hsame
  · refine hfree 0 (.start (by simp [boxed, CallArgs.values])) (.single ?_)
    rw [Cells.Holds, hitself]
    simp
  · obtain ⟨p, hparams, hp⟩ := List.map_eq_singleton_iff.mp hcall.params_eq
    obtain ⟨htype, hpassing⟩ := Prod.mk.inj hp
    have houtput : isOutput p = true := by
      simp [isOutput, htype, hpassing, Passing.writesBack, Ty.isObject]
    have hshared : (0 : Nat) ∈ sharers boxed chosen.overload.sig.params chosen.binding.sources 0 := by
      rw [hparams, hcall.sources_eq]
      exact ⟨p, _, rfl, houtput, rfl, rfl⟩
    have hunchanged := hsame 0 0 hshared p (by rw [hparams]; rfl) htype
    rw [hitself, hbefore] at hunchanged
    cases hunchanged

end ObjectBridge.Session
