import ObjectBridge.Proofs.Call.Conforming
import ObjectBridge.Proofs.Call.Phases
import ObjectBridge.Proofs.Call.WriteBack
import ObjectBridge.Proofs.Session.Reachable
import ObjectBridge.Proofs.Value.Alike

/-!
# Arguments that are written back in a session

`arguments_written_back` says what the boxes, lists and maps of a caller hold after a call or a construction: what
the body left, as it is.  A value that the body leaves as it received it is of the declared type, like a result
that holds no objects; any other value may be of another type (`bump_not_conforming`).
-/

namespace ObjectBridge.Session

open Run Delivery Conversion

/-- What the caller has of the arguments when they are written back between two states, after a body left values for
parameters that had been bound in an earlier state. -/
structure Settled (s s₁ s₂ : State) (args after : CallArgs) (params : List Param) (binding : Binding)
    (updated : List Value) : Prop where
  written : WrittenBack args after (params.zip (binding.sources.zip updated)) s₁.cells s₂.cells
  /-- Nothing but boxes changes. -/
  eq_withCells : s₂ = { s₁ with cells := s₂.cells }
  /-- What is written back is of the declared types in a world if what the body left is. -/
  conforms : ∀ w, (∀ left ∈ params.zip (binding.sources.zip updated), isOutput left.1 = true →
      Conforms w left.1.type left.1.passing left.2.2) →
    (∀ b < s₁.cells.size, s₂.cells.content b = s₁.cells.content b ∨
      ∃ left ∈ params.zip (binding.sources.zip updated), Writes args left b ∧
        Conforms w left.1.type left.1.passing (s₂.cells.content b)) ∧
    ∀ source, after.given? source = args.given? source ∨
      ∃ left ∈ params.zip (binding.sources.zip updated), Replaces args left source ∧
        ∃ v, after.given? source = some v ∧ Conforms w left.1.type left.1.passing v
  /-- The values that the parameters are bound to are of the declared types, and whatever happens to objects and
  boxes, they stay so if the types have values that stand for themselves. -/
  bound : List.Forall₂ (fun p v => Conforms s.toWorld p.type p.passing v ∧
    (Independent p.type → ∀ w, Conforms w p.type p.passing v)) params binding.values

theorem settled_of_pick {s s₁ s₂ : State} {owner method : String} {overloads : List Overload}
    {args after : CallArgs} {o : Overload} {binding : Binding} {updated : List Value}
    (hpick : Selection.pick s.toWorld owner method overloads args = .ok (o, binding))
    (hsettle : (settle o.sig.params binding.sources updated args).outcome s₁ = (.ok after, s₂)) :
    Settled s s₁ s₂ args after o.sig.params binding updated := by
  obtain ⟨hsources, -⟩ := Selection.forall₂_of_pick hpick
  obtain ⟨hwritten, honly⟩ := writtenBack_of_settle hsources hsettle
  refine ⟨hwritten, honly, fun w => hwritten.conforms, ?_⟩
  refine (Selection.accepts_of_pick hpick).imp fun p v hv => ?_
  obtain ⟨raw, cost, hconv⟩ := hv
  exact ⟨conforms_of_convert hconv, fun hindependent => conforms_of_independent hindependent hconv⟩

/-- A selected body runs, what it left of the arguments is written back, and the result is delivered. -/
def Returned (exec : Exec) (s t : State) (recv : Option Handle) (chosen : Dispatch.Selected)
    (method : String) (args : CallArgs) (allowOverride : Bool) (u : Value) (after : CallArgs) : Prop :=
  ∃ v updated s₁ s₂,
    (holding args.values (Dispatch.runBody exec recv chosen method allowOverride)).outcome s =
      (.ok (v, updated), s₁) ∧
    Settled s s₁ s₂ args after chosen.overload.sig.params chosen.binding updated ∧
    (chosen.overload.sig.result = none → t = s₂) ∧
    ∀ type passing, chosen.overload.sig.result = some (type, passing) → ¬type.HoldsObjects →
      t = s₂ ∧ Conforms t.toWorld type passing u

theorem returned_of_execute {exec : Exec} {s t : State} {recv : Option Handle}
    {chosen : Dispatch.Selected} {method : String} {args after : CallArgs} {allowOverride : Bool}
    {u : Value} {owner : String} {overloads : List Overload}
    (hpick : Selection.pick s.toWorld owner method overloads args = .ok (chosen.overload, chosen.binding))
    (hrun : (Dispatch.execute exec recv chosen method args allowOverride).outcome s =
      (.ok (u, after), t)) :
    Returned exec s t recv chosen method args allowOverride u after := by
  obtain ⟨v, updated, s₁, s₂, t', hbody, hsettle, hgive, rfl⟩ := Dispatch.exists_of_outcome_execute hrun
  refine ⟨v, updated, s₁, s₂, hbody, settled_of_pick hpick hsettle, ?_, ?_⟩
  · intro hresult
    rw [hresult] at hgive
    obtain ⟨-, rfl⟩ := eq_of_outcome_pure hgive
    rfl
  · intro type passing hresult htype
    rw [hresult] at hgive
    obtain ⟨rfl, hconforms⟩ := conforms_of_give htype hgive
    exact ⟨rfl, hconforms passing⟩

/-- After a call on an object, a static call or a construction, each box that the caller gave for a parameter that
is written back holds what the body left for it, and so do the lists and maps of the caller; nothing is converted
on the way.  An iteration and a deferred construction leave the arguments as they are. -/
theorem arguments_written_back (exec : Exec) :
    (∀ s t recv method args allowOverride u after,
      (Dispatch.invoke exec recv method args allowOverride).outcome s = (.ok (u, after), t) →
      ∃ chosen s₀,
        (holding args.values (Dispatch.choose exec recv method args)).outcome s = (.ok chosen, s₀) ∧
        (((∃ code source, chosen.overload.body = .iterator code source) ∧ after = args) ∨
          Returned exec s₀ t (some recv) chosen method args allowOverride u after)) ∧
    (∀ s t cls method args u after,
      (Dispatch.callStatic exec cls method args).outcome s = (.ok (u, after), t) →
      ∃ chosen, (Dispatch.chooseStatic cls method args).outcome s = (.ok chosen, s) ∧
        Returned exec s t none chosen method args false u after) ∧
    (∀ s t cls args h after,
      (Construction.construct exec cls args).outcome s = (.ok (h, after), t) →
      (args.isEmpty = true ∧ after = args) ∨
        ∃ owner overload binding captured state updated s₁ s₂,
          (holding (args.values ++ captured)
            (Construction.runConstructor exec owner overload binding.values)).outcome s =
            (.ok (state, updated), s₁) ∧
          Settled s s₁ s₂ args after overload.sig.params binding updated) := by
  refine ⟨?_, ?_, ?_⟩
  · intro s t recv method args allowOverride u after hrun
    obtain ⟨chosen, s₀, overloads, hchoose, hpick, hiterated | hexecute⟩ :=
      Dispatch.exists_of_outcome_invoke hrun
    · exact ⟨chosen, s₀, hchoose, Or.inl hiterated⟩
    · exact ⟨chosen, s₀, hchoose, Or.inr (returned_of_execute hpick hexecute)⟩
  · intro s t cls method args u after hrun
    obtain ⟨chosen, s₀, hchoose, hexecute⟩ := exists_of_outcome_bind hrun
    obtain ⟨rfl, ⟨overloads, -, hpick⟩, -⟩ := Dispatch.resolves_of_outcome_chooseStatic hchoose
    exact ⟨chosen, hchoose, returned_of_execute hpick hexecute⟩
  · intro s t cls args h after hrun
    rcases Construction.exists_of_outcome_construct hrun with hdeferred | ⟨c, hconstruct⟩
    · exact Or.inl hdeferred
    · obtain ⟨candidates, overload, binding, captured, state, updated, s₁, s₂, hpick, hbody, hsettle⟩ :=
        Construction.exists_of_outcome_constructWith hconstruct
      exact Or.inr ⟨candidates.owner, overload, binding, captured, state, updated, s₁, s₂, hbody,
        settled_of_pick hpick hsettle⟩

/-! ## A box of a session -/

/-- The box of the session as an argument. -/
def boxed : CallArgs :=
  ⟨[.box 0], []⟩

/-- A call that adds one to the content of a box leaves the box in the hands of the caller. -/
theorem bump_written_back :
    ∃ u after t,
      (Dispatch.invoke (Script.interpreter 6).exec crossingObject "bump" boxed true).outcome
        crossingRun.2 = (.ok (u, after), t) ∧
      after.given? (.positional 0) = some (.box 0) ∧
      toInteger? (t.cells.content 0) = some (2147483648, 0) := by
  have hended : ((Dispatch.invoke (Script.interpreter 6).exec crossingObject "bump" boxed
      true).outcome crossingRun.2).1.toOption.map (fun _ => ()) = some () := by
    decide +kernel
  have hcontent : toInteger? (((Dispatch.invoke (Script.interpreter 6).exec crossingObject "bump"
      boxed true).outcome crossingRun.2).2.cells.content 0) = some (2147483648, 0) := by
    decide +kernel
  obtain ⟨⟨u, after⟩, t, hrun, -⟩ := exists_of_toOption hended
  rw [hrun] at hcontent
  refine ⟨u, after, t, hrun, ?_, hcontent⟩
  obtain ⟨chosen, s₀, -, ⟨-, rfl⟩ | ⟨v, updated, s₁, s₂, -, hsettled, -⟩⟩ :=
    (arguments_written_back (Script.interpreter 6).exec).1 _ _ _ _ _ _ _ _ hrun
  · rfl
  · rcases hsettled.written.argument (.positional 0) with ⟨-, -, ⟨-, -, v, hv, hcollection⟩, -⟩ | ⟨hsame, -⟩
    · obtain rfl := Option.some.inj hv
      rcases hcollection with ⟨items, hv⟩ | ⟨entries, hv⟩ <;> cases hv
    · exact hsame

/-- A body writes back a number that its declared type cannot hold. -/
theorem bump_not_conforming :
    ¬∀ budget s t recv method args allowOverride chosen s₀ u after,
      (holding args.values (Dispatch.choose (Script.interpreter budget).exec recv method
        args)).outcome s = (.ok chosen, s₀) →
      (Dispatch.invoke (Script.interpreter budget).exec recv method args allowOverride).outcome s =
        (.ok (u, after), t) →
      ∀ p source b, (p, source) ∈ chosen.overload.sig.params.zip chosen.binding.sources →
        isOutput p = true → args.given? source = some (.box b) →
        Conforms t.toWorld p.type p.passing (t.cells.content b) := by
  intro hclaim
  have hchosen : ((holding boxed.values (Dispatch.choose (Script.interpreter 6).exec crossingObject
      "bump" boxed)).outcome crossingRun.2).1.toOption.map (fun chosen =>
        ((chosen.overload.sig.params.zip chosen.binding.sources).map fun given =>
          (given.1.type, given.1.passing, given.2))) =
      some [(.int .int32, .ref, .positional 0)] := by
    decide +kernel
  obtain ⟨chosen, s₀, hchoose, hparams⟩ := exists_of_toOption hchosen
  obtain ⟨⟨p, source⟩, hgiven, hparam⟩ := List.map_eq_singleton_iff.mp hparams
  obtain ⟨htype, hpassing, rfl⟩ : p.type = .int .int32 ∧ p.passing = .ref ∧ source = .positional 0 := by
    simpa using hparam
  obtain ⟨u, after, t, hrun, -, hcontent⟩ := bump_written_back
  -- The box holds 2147483648, which does not survive its own conversion.
  have hconverted : (convert ((Dispatch.invoke (Script.interpreter 6).exec crossingObject "bump" boxed
      true).outcome crossingRun.2).2.toWorld (.int .int32) .ref (((Dispatch.invoke
        (Script.interpreter 6).exec crossingObject "bump" boxed true).outcome
          crossingRun.2).2.cells.content 0)).toOption.map (fun converted => toInteger? converted.1) =
      some (some (-2147483648, 0)) := by
    decide +kernel
  obtain ⟨cost, hconv⟩ := hclaim 6 _ _ _ _ _ _ _ _ _ _ hchoose hrun p (.positional 0) 0
    (hgiven ▸ List.mem_cons_self) (by simp [isOutput, htype, hpassing, Passing.writesBack, Ty.isObject]) rfl
  rw [htype, hpassing] at hconv
  rw [hrun, hconv] at hconverted
  have hsame : toInteger? (t.cells.content 0) = some (-2147483648, 0) := Option.some.inj hconverted
  rw [hcontent] at hsame
  cases hsame

end ObjectBridge.Session
