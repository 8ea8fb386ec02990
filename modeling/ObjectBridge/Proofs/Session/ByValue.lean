import ObjectBridge.Proofs.Call.Returns
import ObjectBridge.Proofs.Session.Reachable

/-!
# Objects that sessions return by value

`returns_by_value` says what the caller of a body, of an override or of an iteration gets that returns objects
by value.  The exception is a result in a box, which comes back as the body has it (`alias_not_owned`).
-/

namespace ObjectBridge.Session

open Run

/-- By value come back handles of different managed objects, none of which is const or has another handle.  The
first part is about a native body or an override, the second one about the items of an iteration that are
collected, and the third one about any result or item that is delivered, also to a block. -/
theorem returns_by_value (budget : Nat) {type : Ty} (htype : type.HoldsObjects) :
    (∀ s t recv chosen method args allowOverride u after,
      s.Arises (args.values ++ chosen.binding.values) → (∀ h ∈ recv, .object h ∈ s.kept) →
      chosen.overload.sig.result = some (type, .value) →
      (Dispatch.execute (Script.interpreter budget).exec recv chosen method args
        allowOverride).outcome s = (.ok (u, after), t) →
      ∃ v updated s₁ s₂,
        (holding args.values (Dispatch.runBody (Script.interpreter budget).exec recv chosen method
          allowOverride)).outcome s = (.ok (v, updated), s₁) ∧
        (Delivery.settle chosen.overload.sig.params chosen.binding.sources updated args).outcome s₁ =
          (.ok after, s₂) ∧
        (v.boxes = [] → Delivery.ByValue after.values s₂ t v u)) ∧
    (∀ s t owner method stream hand us, (withHeld s hand).Arises stream.values →
      (Stream.collect (Script.interpreter budget).exec (some (type, .value)) owner method
        stream).outcome (withHeld s hand) = (.ok us, t) →
      (∀ v ∈ stream.values, v.boxes = []) →
      Delivery.ByValue hand s (withoutHeld t) (.list stream.values) (.list us)) ∧
    (∀ s t owner method hand v u, (withHeld s hand).Arises [v] →
      (Delivery.giveBack (Script.interpreter budget).exec (some (type, .value)) owner method
        v).outcome (withHeld s hand) = (.ok u, t) →
      v.boxes = [] → Delivery.ByValue hand s (withoutHeld t) v u) := by
  have hexec : ConservesAll (Script.interpreter budget).exec :=
    (Script.interpreter_conservesAll budget).exec
  refine ⟨?_, ?_, ?_⟩
  · intro s t recv chosen method args allowOverride u after hs hrecv hresult hrun
    obtain ⟨v, updated, s₁, s₂, t', hbody, hsettle, hgive, rfl⟩ :=
      Dispatch.exists_of_outcome_execute hrun
    obtain ⟨-, hsettled⟩ := Dispatch.arises_phases hexec hs hrecv hbody hsettle
    refine ⟨v, updated, s₁, s₂, hbody, hsettle, fun hbox => ?_⟩
    rw [hresult] at hgive
    refine Delivery.byValue_of_give hexec htype (Delivery.arises_withHeld ?_) hbox hgive
    refine hsettled.of_covers fun w hw => State.covers_of_mem_hand ?_
    simp only [List.mem_append, List.mem_cons, List.not_mem_nil, or_false] at hw ⊢
    tauto
  · exact fun s t owner method stream hand us hs hrun hbox =>
      Stream.byValue_of_collect hexec htype hs hbox hrun
  · exact fun s t owner method hand v u hs hrun hbox =>
      Delivery.byValue_of_give hexec htype hs hbox hrun

theorem crossingObject_kept :
    ∀ h ∈ some crossingObject, .object h ∈ (withHeld crossingRun.2 [.object crossingObject]).kept := by
  rintro h ⟨⟩
  rw [withHeld, State.kept_cons_held]
  exact List.mem_append_left _ List.mem_cons_self

/-- A selected method that returns the receiver. -/
def receiverMethod (passing : Passing) : Dispatch.Selected :=
  ⟨"Node", ⟨{ result := some (.object "Node", passing) }, .native [.ret .receiver]⟩, ⟨0, [], []⟩⟩

theorem arises_crossingObject (passing : Passing) :
    (withHeld crossingRun.2 [.object crossingObject]).Arises
      (({} : CallArgs).values ++ (receiverMethod passing).binding.values) := by
  have hnothing : ({} : CallArgs).values ++ (receiverMethod passing).binding.values = [] := rfl
  rw [hnothing]
  refine Delivery.arises_withHeld (between_crossingRun.arises.of_covers fun v hv => ?_)
  obtain rfl := List.mem_singleton.mp hv
  exact covers_crossingObject []

theorem eq_of_outcome_receiverMethod {passing : Passing} {v : Value} {updated : List Value} {s' : State}
    (hbody : (holding ({} : CallArgs).values (Dispatch.runBody (Script.interpreter 6).exec
      (some crossingObject) (receiverMethod passing) "same" true)).outcome
        (withHeld crossingRun.2 [.object crossingObject]) = (.ok (v, updated), s')) :
    v = .object crossingObject := by
  have hleft : ((holding ({} : CallArgs).values (Dispatch.runBody (Script.interpreter 6).exec
      (some crossingObject) (receiverMethod passing) "same" true)).outcome
        (withHeld crossingRun.2 [.object crossingObject])).1.toOption.map (fun x => x.1.handle?) =
      some (some crossingObject) := by
    cases passing <;> decide +kernel
  rw [hbody] at hleft
  exact Value.eq_object_of_handle? (Option.some.inj hleft)

/-- A method that returns the receiver by value returns a copy. -/
theorem owned_of_same :
    ∃ k after t,
      (Dispatch.execute (Script.interpreter 6).exec (some crossingObject) (receiverMethod .value) "same"
        {} true).outcome (withHeld crossingRun.2 [.object crossingObject]) =
        (.ok (.object k, after), t) ∧
      t.Owned after.values k ∧ k.target ≠ crossingObject.target := by
  have hrun : ((Dispatch.execute (Script.interpreter 6).exec (some crossingObject)
      (receiverMethod .value) "same" {} true).outcome
        (withHeld crossingRun.2 [.object crossingObject])).1.toOption.map (fun x => x.1.handle?) =
      some (some ⟨⟨1, ⟨1, ⟨1, 0⟩⟩, 0, "Node"⟩, false⟩) := by
    decide +kernel
  obtain ⟨⟨u, after⟩, t, hexecute, hhandle⟩ := exists_of_toOption hrun
  obtain rfl := Value.eq_object_of_handle? (v := u) hhandle
  have hnode : (Ty.object "Node").HoldsObjects := trivial
  obtain ⟨v, updated, s₁, s₂, hbody, -, hvalue⟩ := (returns_by_value 6 hnode).1 _ _ _ _ _ _ _ _ _
    (arises_crossingObject .value) crossingObject_kept rfl hexecute
  obtain rfl := eq_of_outcome_receiverMethod hbody
  refine ⟨_, after, t, hexecute, ((hvalue rfl).owned (Or.inl ⟨_, rfl⟩) _ List.mem_cons_self).1, ?_⟩
  decide

/-- An object that is returned by value in a box is the one that the body has, and a variable keeps another
handle of it. -/
theorem alias_not_owned :
    ¬∀ s, Between s → ∀ budget name method h k, s.globals.lookup name = some (.object h) →
      DeclaresObjects s h method .value →
      (andThen s budget (callOn name method [])).1 = .ok (.object k) →
      (andThen s budget (callOn name method [])).2.Owned [] k := by
  intro hclaim
  have hresult : (andThen crossingRun.2 8 (callOn "x" "alias" [])).1.toOption.bind Value.handle? =
      some crossingObject := by
    decide +kernel
  have hkept : ((andThen crossingRun.2 8 (callOn "x" "alias" [])).2.globals.lookup "x").bind
      Value.handle? = some crossingObject := by
    decide +kernel
  obtain ⟨v, hv, hobject⟩ := Option.bind_eq_some_iff.mp hresult
  obtain rfl := Value.eq_object_of_handle? hobject
  obtain ⟨u, hu, hobject'⟩ := Option.bind_eq_some_iff.mp hkept
  obtain rfl := Value.eq_object_of_handle? hobject'
  have howned := hclaim _ between_crossingRun 8 "x" "alias" crossingObject crossingObject
    lookup_crossingObject (declaresObjects_of_all "Node" (by decide +kernel))
    (eq_ok_of_toOption hv)
  have hhandle : crossingObject ∈ (andThen crossingRun.2 8 (callOn "x" "alias" [])).2.handles :=
    (State.Occurs.variable (mem_of_lookup hu)).mem_handles (by simp)
  exact howned.anchor_ne crossingObject.proxy (State.mem_proxies_of_mem_handles hhandle) rfl

end ObjectBridge.Session
