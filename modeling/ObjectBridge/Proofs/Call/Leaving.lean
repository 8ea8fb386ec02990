import ObjectBridge.Proofs.Call.Guarded
import ObjectBridge.Proofs.Call.Passing
import ObjectBridge.Proofs.Call.Phases

/-!
# What a body leaves of its arguments

A native body leaves its arguments in its activation, and an override leaves them in the boxes that it received.
What is left of an argument is compared here with the value that the parameter was bound to; the comparison is a
parameter, such as equality for a body that does not touch its arguments.

* `Dispatch.Leaves` — a body runs and leaves its arguments in a certain way.
* `Dispatch.Leaves.leavesOutputs` — the same for what is written back, whether a native body ran or an override.
-/

namespace ObjectBridge

open Run

namespace Delivery

variable {exec : Exec} {s t : State} {params : List Param} {values us sent : List Value} {i : Nat} {p : Param}
  {u : Value}

/-- A body receives every argument, and those that are no objects as they are. -/
theorem exists_of_prepare {v : Value} (hrun : (prepare exec params values).outcome s = (.ok us, t))
    (hp : params[i]? = some p) (hv : values[i]? = some v) :
    ∃ u, us[i]? = some u ∧ (p.type.isObject = false → u = v) := by
  induction params generalizing values us s t i with
  | nil => cases hp
  | cons q params ih =>
      cases values with
      | nil => cases hv
      | cons w rest =>
          rw [prepare_cons] at hrun
          obtain ⟨first, s₁, hone, hothers⟩ := exists_of_outcome_bind hrun
          obtain ⟨others, s₂, hrest, hpure⟩ := exists_of_outcome_bind hothers
          obtain ⟨rfl, -⟩ := eq_of_outcome_pure hpure
          cases i with
          | zero =>
              refine ⟨first, rfl, fun hobject => ?_⟩
              obtain rfl := Option.some.inj hp
              obtain rfl := Option.some.inj hv
              obtain ⟨t', hdelivered, -⟩ := exists_of_outcome_holding hone
              rw [prepareOne_of_not_isObject hobject] at hdelivered
              exact (eq_of_outcome_pure hdelivered).1.symm
          | succ i =>
              obtain ⟨t', hprepared, -⟩ := exists_of_outcome_holding hrest
              exact ih (i := i) hprepared hp hv

/-- Arguments that are no objects are received without anything being done. -/
theorem exists_outcome_prepare (hobjects : ∀ p ∈ params, p.type.isObject = false) (values : List Value) (s : State) :
    ∃ us, (prepare exec params values).outcome s = (.ok us, s) := by
  induction params generalizing values s with
  | nil => exact ⟨[], rfl⟩
  | cons q params ih =>
      obtain ⟨hq, hrest⟩ := List.forall_mem_cons.mp hobjects
      cases values with
      | nil => exact ⟨[], rfl⟩
      | cons w rest =>
          have hone : prepareOne exec q w = pure w := prepareOne_of_not_isObject hq w
          obtain ⟨us, hus⟩ := ih hrest rest (withHeld s [w])
          refine ⟨w :: us, ?_⟩
          rw [prepare_cons, hone]
          have hfirst : (holding (w :: rest) (pure w : Run Value)).outcome s = (.ok w, s) := rfl
          rw [outcome_bind_of_ok hfirst, outcome_bind_of_ok (outcome_holding_of_ok hus)]
          rfl

/-- An argument that an override may change arrives in a box. -/
theorem exists_box_of_outward (hrun : (outward params us).outcome s = (.ok sent, t)) (hp : params[i]? = some p)
    (houtput : isOutput p = true) (hu : us[i]? = some u) :
    ∃ b, sent[i]? = some (.box b) ∧ t.cells.content b = u := by
  obtain ⟨sent', t', heq, hsent, -⟩ := exists_outcome_outward params us s
  obtain ⟨hsame, rfl⟩ := Prod.mk.inj (hrun.symm.trans heq)
  obtain rfl := Except.ok.inj hsame
  have hbound : (params.zip us)[i]? = some (p, u) := List.getElem?_zip_eq_some.mpr ⟨hp, hu⟩
  obtain ⟨x, hx, hone⟩ := exists_getElem?_of_forall₂ hsent hbound
  rcases hone with hnot | ⟨-, -, hcontent⟩
  · rw [houtput] at hnot
    cases hnot
  · exact ⟨_, hx, hcontent⟩

/-- What is left of an argument that is written back is related to the value that its parameter was bound to. -/
def LeavesOutputs (ρ : Value → Value → Prop) (params : List Param) (values updated : List Value) : Prop :=
  ∀ (i : Nat) (p : Param) (x : Value), params[i]? = some p → isOutput p = true → values[i]? = some x →
    ∃ u, updated[i]? = some u ∧ ρ x u

end Delivery

namespace Dispatch

variable {exec : Exec} {recv : Option Handle} {chosen : Selected} {method : String} {allowOverride : Bool}
  {s t : State} {updated : List Value} {v : Value} {ρ : Value → Value → Prop}

/-- A body or an override runs, and each of its arguments is related to what is left of it. -/
inductive Leaves (ρ : Value → Value → Prop) (exec : Exec) (recv : Option Handle) (chosen : Selected)
    (method : String) (allowOverride : Bool) (s : State) : Prop
  | native {us : List Value} {start t : State} {code : Code} {body : Activation}
      (hprepare : (Delivery.prepare exec chosen.overload.sig.params chosen.binding.values).outcome s =
        (.ok us, start))
      (hnone : (overrideFor recv chosen.overload.sig method allowOverride).outcome start = (.ok none, start))
      (hcode : chosen.overload.body = .native code)
      (hrun : (Lifetime.runNative exec recv us code).outcome start = (.ok body, t))
      (hargs : List.Forall₂ ρ us body.args)
  | override {us sent : List Value} {mid start t : State} {h : Handle} {f : Callable} {body : Activation}
      (hprepare : (Delivery.prepare exec chosen.overload.sig.params chosen.binding.values).outcome s =
        (.ok us, mid))
      (hsome : (overrideFor recv chosen.overload.sig method allowOverride).outcome mid =
        (.ok (some (h, f)), mid))
      (hsent : (Delivery.outward chosen.overload.sig.params us).outcome mid = (.ok sent, start))
      (hrun : (holding (us ++ sent) (inHostFrame (.override h.target) (Run.invoke exec f (some h) sent))).outcome
        start = (.ok body, t))
      (hboxes : ∀ b, .box b ∈ sent → ρ (start.cells.content b) (t.cells.content b))

theorem Leaves.mono {σ : Value → Value → Prop} (hρ : ∀ {v u}, ρ v u → σ v u)
    (h : Leaves ρ exec recv chosen method allowOverride s) : Leaves σ exec recv chosen method allowOverride s := by
  cases h with
  | native hprepare hnone hcode hrun hargs => exact .native hprepare hnone hcode hrun (hargs.imp fun _ _ => hρ)
  | override hprepare hsome hsent hrun hboxes => exact .override hprepare hsome hsent hrun fun b hb => hρ (hboxes b hb)

/-- A body that does nothing leaves its arguments alone. -/
theorem leaves_of_idle {code : Code} (hcode : chosen.overload.body = .native code)
    (hobjects : ∀ p ∈ chosen.overload.sig.params, p.type.isObject = false)
    (hvirtual : chosen.overload.sig.isVirtual = false)
    (hidle : ∀ s', s'.stepsLeft = s.stepsLeft → (exec code).outcome s' = (.ok (), s')) :
    Leaves Eq exec recv chosen method allowOverride s := by
  obtain ⟨us, hprepare⟩ :
      ∃ us, (Delivery.prepare exec chosen.overload.sig.params chosen.binding.values).outcome s = (.ok us, s) :=
    Delivery.exists_outcome_prepare hobjects chosen.binding.values s
  have hnone : (overrideFor recv chosen.overload.sig method allowOverride).outcome s = (.ok none, s) := by
    unfold overrideFor
    split
    · simp only [hvirtual, Bool.and_false, Bool.false_eq_true, if_false]
      rfl
    · rfl
  have hrun : (Lifetime.runNative exec recv us code).outcome s =
      (.ok { mode := .native, receiver := recv, args := us }, s) := by
    have hstart : (exec code).outcome (Lifetime.nativeStart s recv us) = (.ok (), Lifetime.nativeStart s recv us) :=
      hidle _ rfl
    rw [Lifetime.outcome_runNative, hstart]
    rfl
  exact .native hprepare hnone hcode hrun (List.forall₂_same.mpr fun _ _ => rfl)

/-- What is written back is what a native body left in its activation, or an override in its boxes. -/
theorem Leaves.leavesOutputs (h : Leaves ρ exec recv chosen method allowOverride s)
    (hrun : (runBody exec recv chosen method allowOverride).outcome s = (.ok (v, updated), t)) :
    Delivery.LeavesOutputs ρ chosen.overload.sig.params chosen.binding.values updated := by
  intro i p x hp houtput hx
  have hobject := Delivery.isObject_of_isOutput houtput
  -- An output is passed as it was bound; the two cases differ in where the body leaves it.
  cases h with
  | native hprepare hnone hcode hbody hargs =>
      rw [runBody, outcome_bind_of_ok hprepare, outcome_bind_of_ok hnone] at hrun
      simp only [hcode] at hrun
      rw [outcome_bind_of_ok hbody] at hrun
      obtain ⟨hleft, -⟩ := eq_of_outcome_pure hrun
      obtain ⟨-, rfl⟩ := Prod.mk.inj hleft
      obtain ⟨u, hu, hsame⟩ := Delivery.exists_of_prepare hprepare hp hx
      obtain rfl := hsame hobject
      exact exists_getElem?_of_forall₂ hargs hu
  | override hprepare hsome hsent hbody hboxes =>
      rename_i us sent mid start t' h f body
      rw [runBody, outcome_bind_of_ok hprepare, outcome_bind_of_ok hsome] at hrun
      simp only at hrun
      rw [runOverride, outcome_bind_of_ok hsent, outcome_bind_of_ok hbody, outcome_get_bind] at hrun
      obtain ⟨hleft, -⟩ := eq_of_outcome_pure hrun
      obtain ⟨-, rfl⟩ := Prod.mk.inj hleft
      obtain ⟨u, hu, hsame⟩ := Delivery.exists_of_prepare hprepare hp hx
      obtain rfl := hsame hobject
      obtain ⟨b, hb, hcontent⟩ := Delivery.exists_box_of_outward hsent hp houtput hu
      refine ⟨_, Delivery.getElem?_inward hb hu, ?_⟩
      rw [← hcontent]
      exact hboxes b (List.mem_of_getElem? hb)

end Dispatch

end ObjectBridge
