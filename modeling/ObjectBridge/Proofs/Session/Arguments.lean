import ObjectBridge.Proofs.Call.Passing
import ObjectBridge.Proofs.Call.Phases
import ObjectBridge.Proofs.Session.ByValue

/-!
# Arguments in a session

`arguments_delivered` says what the body of a call receives for the arguments that the caller gives, whatever body
it is.  An object inside a list is not passed in the declared way: by value the body receives the object of the
caller (`listed_not_copied`).
-/

namespace ObjectBridge.Session

open Run Delivery

/-- From the state `s` on, a body of whatever sort runs with the values `us` in the state `t`. -/
structure Receives (exec : Exec) (s t : State) (owner : String) (o : Overload) (binding : Binding)
    (us : List Value) : Prop where
  native : ∀ recv method allowOverride code, o.body = .native code →
    (Dispatch.overrideFor recv o.sig method allowOverride).outcome t = (.ok none, t) →
    (Dispatch.runBody exec recv ⟨owner, o, binding⟩ method allowOverride).outcome s =
      (do let body ← Lifetime.runNative exec recv us code
          return (body.result, body.args)).outcome t
  /-- An override finds what it may change in new boxes, and all other arguments as they are. -/
  override : ∃ sent t', List.Forall₂ (fun passed x => Sent t' passed.1 passed.2 x)
      (o.sig.params.zip us) sent ∧
    (∀ b < t.cells.size, t'.cells.content b = t.cells.content b) ∧ t' = { t with cells := t'.cells } ∧
    ∀ recv method allowOverride h f,
      (Dispatch.overrideFor recv o.sig method allowOverride).outcome t = (.ok (some (h, f)), t) →
      (Dispatch.runBody exec recv ⟨owner, o, binding⟩ method allowOverride).outcome s =
        (do let body ← holding (us ++ sent)
              (inHostFrame (.override h.target) (invoke exec f (some h) sent))
            return (body.result, inward (← get).cells sent us)).outcome t'
  construction : ∀ code shape, o.body = .constructor code shape →
    (Construction.runConstructor exec owner o binding.values).outcome s =
      (do let body ← Lifetime.runNative exec none us code
          return (← ofExcept (Lifetime.stateOf shape body), body.args)).outcome t
  iteration : ∀ recv method code source, o.body = .iterator code source →
    ∀ (α : Type) (act : Stream → Run α),
      (Stream.withStream exec recv o method binding.values act).outcome s =
        (do let body ← Lifetime.runNative exec (some recv) us code
            let stream ← ofExcept (Stream.ofValue source body.result)
            Stream.opened source (act stream)).outcome t

theorem receives_of_prepare {exec : Exec} {s t : State} {owner : String} {o : Overload}
    {binding : Binding} {us : List Value}
    (hprepare : (prepare exec o.sig.params binding.values).outcome s = (.ok us, t)) :
    Receives exec s t owner o binding us := by
  refine ⟨?_, ?_, ?_, ?_⟩
  · intro recv method allowOverride code hbody hnone
    rw [Dispatch.runBody, outcome_bind_of_ok hprepare, outcome_bind_of_ok hnone]
    simp only [hbody]
  · obtain ⟨sent, t', houtward, hsent, -, hcontents, hsame⟩ :=
      exists_outcome_outward o.sig.params us t
    refine ⟨sent, t', hsent, hcontents, hsame, ?_⟩
    intro recv method allowOverride h f hsome
    rw [Dispatch.runBody, outcome_bind_of_ok hprepare, outcome_bind_of_ok hsome]
    exact outcome_bind_of_ok houtward _
  · intro code shape hbody
    rw [Construction.runConstructor, outcome_bind_of_ok hprepare]
    simp only [hbody]
  · intro recv method code source hbody α act
    rw [Stream.withStream]
    simp only [hbody]
    exact outcome_bind_of_ok hprepare _

/-- A body runs with what the caller gives: an object that is passed by value arrives as a new object, which nobody
has a handle of and which differs from the other ones that arrive by value; by a const reference or pointer arrives
a const view, and by a reference or pointer the object of the caller, by a handle that is not const.  Objects that
have their native states are passed without a change to any object that was there. -/
theorem arguments_delivered (budget : Nat) {s t : State} {owner method : String}
    {overloads : List Overload} {args : CallArgs} {o : Overload} {binding : Binding}
    {us : List Value} (hs : s.Arises binding.values)
    (hpick : Selection.pick s.toWorld owner method overloads args = .ok (o, binding))
    (hprepare : (prepare (Script.interpreter budget).exec o.sig.params binding.values).outcome s =
      (.ok us, t)) :
    Receives (Script.interpreter budget).exec s t owner o binding us ∧
      List.Forall₂ (fun given v => args.Takes s.toWorld given v ∧
        (given.1.type.isObject = true → ∀ h, v = .object h → Conversion.behind s.cells
          (s.cells.size + 1) (args.raw given.1 given.2) = .object h))
        (o.sig.params.zip binding.sources) binding.values ∧
      List.Forall₂ (fun bound u => Passed s t bound.1 bound.2 u) (o.sig.params.zip binding.values) us ∧
      ((o.sig.params.zip binding.values).zip us).Pairwise CopiesApart ∧
      (∀ h k, NewCopy s t h k →
        (∀ p ∈ (s.custody binding.values).proxies, p.anchor ≠ k.proxy.anchor) ∧
        (.object k ∈ us → ∀ i, t.arena.get? k.target = some i →
          ∀ p ∈ (s.custody binding.values).proxies, p ∈ (t.custody us).proxies →
            ¬(t.custody us).SameObject p k.proxy)) ∧
      ((∀ h, .object h ∈ binding.values →
          ∃ i, s.arena.get? h.target = some i ∧ i.isMaterialized = true) →
        s.Extends t ∧ List.Forall₂ (fun p u => TakesCopy p → ∀ k, u = .object k → t.Owned [] k)
          o.sig.params us) := by
  have hexec : ConservesAll (Script.interpreter budget).exec :=
    (Script.interpreter_conservesAll budget).exec
  obtain ⟨-, htakes⟩ := Selection.forall₂_of_pick hpick
  have haccepts := Selection.accepts_of_pick hpick
  have hfit : List.Forall₂ (Passable s) o.sig.params binding.values :=
    haccepts.imp fun p v hv => passable_of_accepts hv
  obtain ⟨hpassed, hapart⟩ := forall₂_of_prepare hexec hs hfit hprepare
  have ht : t.Arises us := (conserves_prepare hexec _ _).arises hs hprepare
  refine ⟨receives_of_prepare hprepare, ?_, hpassed, hapart, ?_, ?_⟩
  · refine htakes.imp fun given v hv => ⟨hv, ?_⟩
    rintro hobject h rfl
    exact hv.behind_eq hobject
  · intro h k hcopy
    refine ⟨hcopy.anchor_ne hs, fun hk i hi p hp hp' => ?_⟩
    have hkp : k.proxy ∈ (t.custody us).proxies :=
      State.mem_proxies_of_mem_hand hk List.mem_cons_self
    exact State.not_sameObject ht hp' hkp hi (hcopy.anchor_ne hs p hp)
  · exact fun hready => extends_of_prepare hexec hs haccepts.length_eq hready hprepare

/-! ## The object of a session as an argument -/

/-- A method that takes an object by value, by a const reference and by a reference. -/
def threeWays : Overload :=
  ⟨{ params := [{ name := "copied", type := .object "Node" },
                { name := "shown", type := .object "Node", passing := .constRef },
                { name := "aliased", type := .object "Node", passing := .ref }] }, .native []⟩

/-- A method that takes a list of objects by value. -/
def listed : Overload :=
  ⟨{ params := [{ name := "items", type := .list (.object "Node") }] }, .native []⟩

/-- What the parameters of a method without defaults are bound to is in use with the arguments. -/
theorem arises_binding {args : CallArgs} {o : Overload} {binding : Binding} {method : String}
    (hargs : ∀ v ∈ args.values, crossingRun.2.Covers [] v) (hdefaults : o.defaults = [])
    (hpick : Selection.pick crossingRun.2.toWorld "Node" method [o] args = .ok (o, binding)) :
    crossingRun.2.Arises binding.values := by
  refine between_crossingRun.arises.of_covers fun v hv => ?_
  refine Dispatch.covers_binding rfl hargs (fun o' ho' u hu => ?_) hpick v hv
  rw [List.mem_singleton.mp ho', hdefaults] at hu
  cases hu

theorem exists_pick {args : CallArgs} {o : Overload} {method : String} {β : Type}
    {f : Binding → β} {y : β}
    (h : (Selection.pick crossingRun.2.toWorld "Node" method [o] args).toOption.map
      (fun picked => f picked.2) = some y) :
    ∃ binding, Selection.pick crossingRun.2.toWorld "Node" method [o] args = .ok (o, binding) ∧
      f binding = y := by
  obtain ⟨⟨o', binding⟩, hpicked, hy⟩ := Option.map_eq_some_iff.mp h
  have hpick := eq_ok_of_toOption hpicked
  obtain ⟨hmem, -⟩ := Selection.exists_of_pick hpick
  obtain rfl := List.mem_singleton.mp hmem
  exact ⟨binding, hpick, hy⟩

/-- An object that is passed in three ways arrives as a new object, as a const view and as itself. -/
theorem delivered_three_ways :
    ∃ (binding : Binding) (k : Handle) (t : State),
      (prepare (Script.interpreter 6).exec threeWays.sig.params binding.values).outcome crossingRun.2 =
        (.ok [.object k, .object crossingObject.asConst, .object crossingObject], t) ∧
      t.Owned [] k ∧ crossingRun.2.Extends t ∧ k.target ≠ crossingObject.target := by
  have hchosen : (Selection.pick crossingRun.2.toWorld "Node" "call" [threeWays]
      ⟨List.replicate 3 (.object crossingObject), []⟩).toOption.map
        (fun picked => picked.2.values.map Value.handle?) =
      some (List.replicate 3 crossingObject |>.map some) := by
    decide +kernel
  obtain ⟨binding, hpick, hbound⟩ := exists_pick (f := fun b => b.values.map Value.handle?) hchosen
  have hvalues : binding.values = (List.replicate 3 crossingObject).map .object :=
    Value.eq_objects_of_handle? hbound
  have hrun : ((prepare (Script.interpreter 6).exec threeWays.sig.params
      ((List.replicate 3 crossingObject).map .object)).outcome crossingRun.2).1.toOption.map
        (fun us => us.map Value.handle?) =
      some ([⟨⟨1, ⟨1, ⟨1, 0⟩⟩, 0, "Node"⟩, false⟩, crossingObject.asConst, crossingObject].map some) := by
    decide +kernel
  rw [← hvalues] at hrun
  obtain ⟨us, t, hprepare, hhandles⟩ := exists_of_toOption hrun
  obtain rfl := Value.eq_objects_of_handle? hhandles
  have hs : crossingRun.2.Arises binding.values := by
    refine arises_binding (fun v hv => ?_) rfl hpick
    obtain rfl : v = .object crossingObject := by simpa [CallArgs.values] using hv
    exact covers_crossingObject []
  obtain ⟨-, -, -, -, -, hready⟩ := arguments_delivered 6 hs hpick hprepare
  have hthere : (crossingRun.2.arena.get? crossingObject.target).any Instance.isMaterialized = true := by
    decide +kernel
  obtain ⟨hextends, howned⟩ := hready fun h hh => by
    obtain rfl : h = crossingObject := by simpa [hvalues] using hh
    exact (Option.any_eq_true _ _).mp hthere
  obtain ⟨hfirst, -⟩ := List.forall₂_cons.mp howned
  exact ⟨binding, _, t, hprepare, hfirst ⟨rfl, rfl⟩ _ rfl, hextends, by decide⟩

/-- Objects in a list that is passed by value arrive as the objects of the caller. -/
theorem listed_not_copied :
    ¬∀ budget s t owner method overloads args o binding us, s.Arises binding.values →
      Selection.pick s.toWorld owner method overloads args = .ok (o, binding) →
      (prepare (Script.interpreter budget).exec o.sig.params binding.values).outcome s = (.ok us, t) →
      ∀ p u, (p, u) ∈ o.sig.params.zip us → p.type.HoldsObjects → p.passing = .value →
        ∀ k ∈ u.handles, ∀ q ∈ (s.custody binding.values).proxies, q.anchor ≠ k.proxy.anchor := by
  intro hclaim
  have hchosen : (Selection.pick crossingRun.2.toWorld "Node" "call" [listed]
      ⟨[.list [.object crossingObject]], []⟩).toOption.map
        (fun picked => picked.2.values.map Value.handles) = some [[crossingObject]] := by
    decide +kernel
  obtain ⟨binding, hpick, hbound⟩ := exists_pick (f := fun b => b.values.map Value.handles) hchosen
  obtain ⟨v, hvalues, hhandles⟩ := List.map_eq_singleton_iff.mp hbound
  have hs : crossingRun.2.Arises binding.values := by
    refine arises_binding (fun v hv => ?_) rfl hpick
    obtain rfl : v = .list [.object crossingObject] := by simpa [CallArgs.values] using hv
    refine Cells.covers_list_iff.mpr fun u hu => ?_
    rw [List.mem_singleton.mp hu]
    exact covers_crossingObject []
  have hprepare : (prepare (Script.interpreter 6).exec listed.sig.params binding.values).outcome
      crossingRun.2 = (.ok [v], crossingRun.2) := by
    rw [hvalues]
    rfl
  refine hclaim 6 _ _ _ _ _ _ _ _ _ hs hpick hprepare _ v List.mem_cons_self trivial rfl crossingObject
    (by rw [hhandles]; exact List.mem_cons_self) crossingObject.proxy ?_ rfl
  exact State.mem_proxies_of_mem_handles crossingObject_mem_handles

end ObjectBridge.Session
