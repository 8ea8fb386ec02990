import ObjectBridge.Proofs.Call.Phases
import ObjectBridge.Proofs.Call.Results
import ObjectBridge.Proofs.Session.ByValue

/-!
# Const handles in a session

While a handle is in use, it does not become const, and it stops being const only when its object is issued
again by a return by reference or by a look into a seat.

* `State.FlagsEvolve` — how the flag of a handle in use may change.
* `const_flags` — the flags of handles in use, and of the handles that calls return.
-/

namespace ObjectBridge

namespace State

/-- From one state to another the flag of a handle, which stays in use, changes as it may. -/
structure FlagsEvolve (s t : State) (h : Handle) : Prop where
  /-- A const view stays const. -/
  view : h.constView = true → t.isConst h = true
  mutable : s.isConst h = false → t.isConst h = false
  /-- A handle stops being const only when its object, which has identity, is issued again. -/
  released : s.isConst h = true → t.isConst h = false →
    Custody.Released s.pinned h.proxy (s.custody []) (t.custody [])
  /-- Then no handle of the object is const any more, apart from const views. -/
  together : s.isConst h = true → t.isConst h = false →
    ∀ g ∈ s.handles, (s.custody []).SameObject g.proxy h.proxy → g.constView = false →
      t.isConst g = false
  value : ∀ i, s.arena.get? h.target = some i → i.kind = .value → t.isConst h = s.isConst h

variable {s t : State} {h g : Handle}

/-- The handles of an object with identity have one proxy, which the object records. -/
theorem proxy_eq_of_sameObject (hs : s.Arises []) (hh : h ∈ s.handles) (hg : g ∈ s.handles)
    {i : Instance} (hi : s.arena.get? h.target = some i) (hkind : i.kind = .object)
    (hproxy : i.proxy = h.proxy) (hsame : (s.custody []).SameObject g.proxy h.proxy) :
    g.proxy = h.proxy := by
  have hgp : g.proxy ∈ (s.custody []).proxies := mem_proxies_of_mem_handles hg
  have hanchor : g.proxy.anchor = h.proxy.anchor := by
    by_contra hne
    exact not_sameObject hs hgp (mem_proxies_of_mem_handles hh) hi hne hsame
  rw [← hproxy]
  refine hs.identified.eq_recorded _ i hi hkind _ hgp ?_
  rw [hanchor, ← hproxy]
  exact (hs.anchored.of_get? hi).2 hkind

end State

namespace Run

/-- While a run lasts, the flags of handles that are kept change as they may. -/
theorem Conserves.flagsEvolve {α : Type} {act : Run α} {s : State} {h : Handle} {out : α → List Value}
    (hact : Conserves act s [] out) (hs : s.Arises []) (hh : h.proxy ∈ s.pinned) (hmem : h ∈ s.handles) :
    s.FlagsEvolve (act.outcome s).2 h := by
  have hmutable (hmut : s.isConst h = false) : (act.outcome s).2.isConst h = false :=
    hact.stays_mutable hs hh hmut
  have hreleased (hconst : s.isConst h = true) (hmut : (act.outcome s).2.isConst h = false) :=
    hact.released hs hh hconst hmut
  refine ⟨fun hview => Arena.isConst_eq_true_iff.mpr (Or.inl hview), hmutable, hreleased, ?_, ?_⟩
  · intro hconst hmut g hg hsame hview
    obtain ⟨i, hi, hkind, hproxy⟩ := (hreleased hconst hmut).recorded
    have hone := State.proxy_eq_of_sameObject hs hmem hg hi hkind hproxy hsame
    refine Arena.isConst_eq_false_iff.mpr ⟨hview, ?_⟩
    rw [hone]
    exact (Arena.isConst_eq_false_iff.mp hmut).2
  · intro i hi hkind
    cases hconst : s.isConst h with
    | false => exact hmutable hconst
    | true =>
        by_contra hmut
        obtain ⟨j, hj, hkind', -⟩ := (hreleased hconst (Bool.eq_false_iff.mpr hmut)).recorded
        obtain rfl := Option.some.inj (hj.symm.trans hi)
        rw [hkind'] at hkind
        cases hkind

end Run

namespace Session

open Run

/-- The state of a session in which a handle is held, and in which a run may take some steps. -/
def holdingHandle (s : State) (limit : Option Nat) (h : Handle) : State :=
  withHeld { s with stepsLeft := limit } [.object h]

theorem arises_holdingHandle {s : State} (hs : s.Arises []) (limit : Option Nat) {h : Handle}
    (hh : h ∈ s.handles) : (holdingHandle s limit h).Arises [] := by
  have hstart : ({ s with stepsLeft := limit } : State).Arises [] :=
    hs.trans (custody_path_of_subset rfl rfl rfl fun v hv => hv)
  refine Delivery.arises_withHeld (hstart.of_covers fun v hv => ?_)
  obtain rfl := List.mem_singleton.mp hv
  exact Cells.covers_object_iff.mpr ⟨h, hh, rfl⟩

/-- Whatever is evaluated at whatever moment of a session, and wherever it ends, the flags of handles in use
change as they may.  The handles of what a body, an override or an iteration returns without boxes are const if
the declared kind of passing says so, and mutable otherwise. -/
theorem const_flags (budget : Nat) :
    (∀ s h, Reachable s → h ∈ s.handles → ∀ limit e,
      (holdingHandle s limit h).FlagsEvolve
        (((Script.interpreter budget).eval e).outcome (holdingHandle s limit h)).2 h) ∧
    (∀ s t recv chosen method args allowOverride u after type passing,
      s.Arises (args.values ++ chosen.binding.values) → (∀ h ∈ recv, .object h ∈ s.kept) →
      chosen.overload.sig.result = some (type, passing) → type.HoldsObjects →
      (Dispatch.execute (Script.interpreter budget).exec recv chosen method args
        allowOverride).outcome s = (.ok (u, after), t) →
      ∃ v updated s',
        (holding args.values (Dispatch.runBody (Script.interpreter budget).exec recv chosen method
          allowOverride)).outcome s = (.ok (v, updated), s') ∧
        (v.boxes = [] → ∀ k ∈ u.handles, t.isConst k = passing.isConst)) ∧
    (∀ s t owner method v u type passing, s.Arises [v] → type.HoldsObjects →
      (Delivery.giveBack (Script.interpreter budget).exec (some (type, passing)) owner method v).outcome
        s = (.ok u, t) →
      v.boxes = [] → ∀ k ∈ u.handles, t.isConst k = passing.isConst) := by
  have hexec : ConservesAll (Script.interpreter budget).exec :=
    (Script.interpreter_conservesAll budget).exec
  refine ⟨?_, ?_, ?_⟩
  · intro s h hs hh limit e
    have hpinned : h.proxy ∈ (holdingHandle s limit h).pinned := Delivery.mem_pinned_withHeld (by simp)
    refine ((Script.interpreter_conservesAll budget).eval e _).flagsEvolve
      (arises_holdingHandle hs.arises limit hh) hpinned ?_
    exact (State.Occurs.pending List.mem_cons_self List.mem_cons_self).mem_handles (by simp)
  · intro s t recv chosen method args allowOverride u after type passing hs hrecv hresult htype hrun
    obtain ⟨v, updated, s₁, s₂, t', hbody, hsettle, hgive, rfl⟩ :=
      Dispatch.exists_of_outcome_execute hrun
    obtain ⟨-, hsettled⟩ := Dispatch.arises_phases hexec hs hrecv hbody hsettle
    refine ⟨v, updated, s₁, hbody, fun hbox => ?_⟩
    rw [hresult] at hgive
    refine (Delivery.isConst_of_give hexec htype (Delivery.arises_withHeld ?_) hbox hgive).1
    refine hsettled.of_covers fun w hw => State.covers_of_mem_hand ?_
    simp only [List.mem_append, List.mem_cons, List.not_mem_nil, or_false] at hw ⊢
    tauto
  · exact fun s t owner method v u type passing hs htype hrun hbox =>
      (Delivery.isConst_of_give hexec htype hs hbox hrun).1

/-- A method that returns the receiver by a const reference returns a const handle.  To evaluate a call on the
object leaves the handle in the variable mutable. -/
theorem const_of_shown :
    (∃ k after t,
      (Dispatch.execute (Script.interpreter 6).exec (some crossingObject) (receiverMethod .constRef)
        "same" {} true).outcome (withHeld crossingRun.2 [.object crossingObject]) =
        (.ok (.object k, after), t) ∧
      t.isConst k = true) ∧
    (((Script.interpreter 6).eval (callOn "x" "same" [])).outcome
      (holdingHandle crossingRun.2 none crossingObject)).2.isConst crossingObject = false := by
  have hrun : ((Dispatch.execute (Script.interpreter 6).exec (some crossingObject)
      (receiverMethod .constRef) "same" {} true).outcome
        (withHeld crossingRun.2 [.object crossingObject])).1.toOption.map (fun x => x.1.handle?) =
      some (some crossingObject.asConst) := by
    decide +kernel
  obtain ⟨⟨u, after⟩, t, hexecute, hhandle⟩ := exists_of_toOption hrun
  obtain rfl := Value.eq_object_of_handle? (v := u) hhandle
  have hnode : (Ty.object "Node").HoldsObjects := trivial
  obtain ⟨hkept, hreturned, -⟩ := const_flags 6
  obtain ⟨v, updated, s', hbody, hconst⟩ := hreturned _ _ _ _ _ _ _ _ _ _ _
    (arises_crossingObject .constRef) crossingObject_kept rfl hnode hexecute
  obtain rfl := eq_of_outcome_receiverMethod hbody
  have hmutable : (holdingHandle crossingRun.2 none crossingObject).isConst crossingObject = false := by
    decide +kernel
  exact ⟨⟨_, after, t, hexecute, hconst rfl _ List.mem_cons_self⟩,
    (hkept _ _ (.between between_crossingRun) crossingObject_mem_handles none _).mutable hmutable⟩

/-- An object that is returned by a const reference in a box has a handle that is not const. -/
theorem peek_not_const :
    ¬∀ s, Between s → ∀ budget name method h k, s.globals.lookup name = some (.object h) →
      DeclaresObjects s h method .constRef →
      (andThen s budget (callOn name method [])).1 = .ok (.object k) →
      (andThen s budget (callOn name method [])).2.isConst k = true := by
  intro hclaim
  have hresult : (andThen crossingRun.2 8 (callOn "x" "peek" [])).1.toOption.bind Value.handle? =
      some crossingObject := by
    decide +kernel
  obtain ⟨v, hv, hobject⟩ := Option.bind_eq_some_iff.mp hresult
  obtain rfl := Value.eq_object_of_handle? hobject
  have hconst := hclaim _ between_crossingRun 8 "x" "peek" crossingObject crossingObject
    lookup_crossingObject (declaresObjects_of_all "Node" (by decide +kernel))
    (eq_ok_of_toOption hv)
  have hmutable : (andThen crossingRun.2 8 (callOn "x" "peek" [])).2.isConst crossingObject =
      false := by
    decide +kernel
  rw [hmutable] at hconst
  cases hconst

end Session

end ObjectBridge
