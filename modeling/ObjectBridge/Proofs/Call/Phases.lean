import ObjectBridge.Proofs.Call.Choice
import ObjectBridge.Proofs.Call.Construction
import ObjectBridge.Proofs.Call.Dispatch
import ObjectBridge.Proofs.Run.Success

/-!
# The phases of a call

A call that succeeds has run a body or an override, has written the arguments back and has delivered the
result; the arguments as the caller then has them are in use meanwhile.

* `Dispatch.exists_of_outcome_execute` and `Construction.exists_of_outcome_constructWith` — the phases.
* `Dispatch.arises_phases` — the states between them.
-/

namespace ObjectBridge

open Run

namespace Dispatch

variable {exec : Exec} {s s₁ s₂ t : State} {recv : Option Handle} {chosen : Selected} {method : String}
  {args after : CallArgs} {allowOverride : Bool} {u v : Value} {updated : List Value}

/-- A call runs what was selected, unless the items of an iteration are collected, which leaves the arguments as
they are. -/
theorem exists_of_outcome_invoke {h : Handle}
    (hrun : (invoke exec h method args allowOverride).outcome s = (.ok (u, after), t)) :
    ∃ chosen s₀ overloads, (holding args.values (choose exec h method args)).outcome s = (.ok chosen, s₀) ∧
      Selection.pick s₀.toWorld chosen.owner method overloads args =
        .ok (chosen.overload, chosen.binding) ∧
      (((∃ code source, chosen.overload.body = .iterator code source) ∧ after = args) ∨
        (execute exec (some h) chosen method args allowOverride).outcome s₀ = (.ok (u, after), t)) := by
  obtain ⟨chosen, s₀, hchoose, hrun⟩ := exists_of_outcome_bind hrun
  obtain ⟨s₀', hchosen, rfl⟩ := exists_of_outcome_holding hchoose
  obtain ⟨-, ⟨overloads, -, hpick⟩, -⟩ := resolves_of_outcome_choose hchosen
  refine ⟨chosen, _, _, hchoose, hpick, ?_⟩
  split at hrun
  · rename_i code source hbody
    obtain ⟨items, s₁, -, hpure⟩ := exists_of_outcome_bind hrun
    exact Or.inl ⟨⟨code, source, hbody⟩, (Prod.mk.inj (eq_of_outcome_pure hpure).1).2.symm⟩
  · exact Or.inr hrun

theorem exists_of_outcome_execute
    (hrun : (execute exec recv chosen method args allowOverride).outcome s = (.ok (u, after), t)) :
    ∃ v updated s₁ s₂ t',
      (holding args.values (runBody exec recv chosen method allowOverride)).outcome s =
        (.ok (v, updated), s₁) ∧
      (Delivery.settle chosen.overload.sig.params chosen.binding.sources updated args).outcome s₁ =
        (.ok after, s₂) ∧
      (Delivery.giveBack exec chosen.overload.sig.result chosen.owner method v).outcome
        (withHeld s₂ after.values) = (.ok u, t') ∧
      t = withoutHeld t' := by
  obtain ⟨⟨v, updated⟩, s₁, hbody, hwrite⟩ := exists_of_outcome_bind hrun
  obtain ⟨after', s₂, hsettle, hdeliver⟩ := exists_of_outcome_bind hwrite
  obtain ⟨u', t₁, hhold, hpure⟩ := exists_of_outcome_bind hdeliver
  obtain ⟨heq, rfl⟩ := eq_of_outcome_pure hpure
  obtain ⟨rfl, rfl⟩ := Prod.mk.inj heq
  obtain ⟨t', hgive, ht⟩ := exists_of_outcome_holding hhold
  exact ⟨v, updated, s₁, s₂, t', hbody, hsettle, hgive, ht⟩

/-- After the body its result and what it left of the arguments are in hand, and after these are written
back, so are the arguments as the caller then has them. -/
theorem arises_phases (hexec : ConservesAll exec) (hs : s.Arises (args.values ++ chosen.binding.values))
    (hrecv : ∀ h ∈ recv, .object h ∈ s.kept)
    (hbody : (holding args.values (runBody exec recv chosen method allowOverride)).outcome s =
      (.ok (v, updated), s₁))
    (hsettle : (Delivery.settle chosen.overload.sig.params chosen.binding.sources updated args).outcome
      s₁ = (.ok after, s₂)) :
    s₁.Arises (args.values ++ v :: updated) ∧
      s₂.Arises (after.values ++ (args.values ++ v :: updated)) := by
  have hconserves : Conserves (holding args.values (runBody exec recv chosen method allowOverride)) s
      (args.values ++ chosen.binding.values) fun left => args.values ++ (left.1 :: left.2) := by
    refine Conserves.holding (conserves_runBody hexec ?_)
    intro h hh
    rw [State.kept_cons_held]
    exact List.mem_append_right _ (hrecv h hh)
  have hleft := hconserves.arises hs hbody
  have hwritten : Conserves
      (Delivery.settle chosen.overload.sig.params chosen.binding.sources updated args) s₁
      (args.values ++ v :: updated) fun after => after.values ++ (args.values ++ v :: updated) :=
    Delivery.conserves_settle (fun w hw => State.covers_of_mem_hand (List.mem_append_left _ hw))
      fun w hw => State.covers_of_mem_hand (List.mem_append_right _ (List.mem_cons_of_mem _ hw))
  have hsettled := hwritten.arises hleft hsettle
  exact ⟨hleft, hsettled⟩

end Dispatch

namespace Construction

variable {exec : Exec} {s t : State} {c : ClassInfo} {args after : CallArgs} {h : Handle}

/-- A construction that is not deferred selects a constructor, runs it, writes the arguments back and
registers the object. -/
theorem exists_of_outcome_constructWith
    (hrun : (constructWith exec c args).outcome s = (.ok (h, after), t)) :
    ∃ (candidates : Candidates) (overload : Overload) (binding : Binding)
        (captured : List Value) (state : NativeState) (updated : List Value) (s₁ s₂ : State),
      Selection.pick s.toWorld candidates.owner "new" candidates.overloads args =
        .ok (overload, binding) ∧
      (holding (args.values ++ captured)
        (runConstructor exec candidates.owner overload binding.values)).outcome s =
        (.ok (state, updated), s₁) ∧
      (Delivery.settle overload.sig.params binding.sources updated args).outcome s₁ =
        (.ok after, s₂) := by
  rw [constructWith, outcome_get_bind] at hrun
  obtain ⟨candidates, s', hfind, hselect⟩ := exists_of_outcome_bind hrun
  obtain ⟨-, rfl⟩ := eq_of_outcome_orFail hfind
  obtain ⟨⟨overload, binding⟩, s', hpick, hconstruct⟩ := exists_of_outcome_bind hselect
  obtain ⟨hpicked, rfl⟩ := eq_of_outcome_ofExcept hpick
  obtain ⟨⟨state, updated⟩, s₁, hbody, hwrite⟩ := exists_of_outcome_bind hconstruct
  obtain ⟨after', s₂, hsettle, hstore⟩ := exists_of_outcome_bind hwrite
  obtain ⟨_, s₃, hcount, hregister⟩ := exists_of_outcome_bind hstore
  obtain ⟨k, s₄, hreg, hpure⟩ := exists_of_outcome_bind hregister
  obtain ⟨heq, -⟩ := eq_of_outcome_pure hpure
  obtain ⟨-, rfl⟩ := Prod.mk.inj heq
  exact ⟨candidates, overload, binding, _, state, updated, s₁, s₂, hpicked, hbody, hsettle⟩

/-- A construction leaves the arguments as they are if there are none and the constructor is deferred. -/
theorem exists_of_outcome_construct {cls : ClassId}
    (hrun : (construct exec cls args).outcome s = (.ok (h, after), t)) :
    (args.isEmpty = true ∧ after = args) ∨
      ∃ c, (constructWith exec c args).outcome s = (.ok (h, after), t) := by
  rw [construct, outcome_get_bind] at hrun
  obtain ⟨c, s', hdescriptor, hrun⟩ := exists_of_outcome_bind hrun
  obtain ⟨-, rfl⟩ := eq_of_outcome_ofExcept hdescriptor
  split at hrun
  · rename_i hdeferred
    obtain ⟨_, s₁, -, hrun⟩ := exists_of_outcome_bind hrun
    obtain ⟨k, s₂, -, hpure⟩ := exists_of_outcome_bind hrun
    exact Or.inl ⟨(Bool.and_eq_true_iff.mp hdeferred).1,
      (Prod.mk.inj (eq_of_outcome_pure hpure).1).2.symm⟩
  · exact Or.inr ⟨c, hrun⟩

end Construction

end ObjectBridge
