import ObjectBridge.Call.Dispatch
import ObjectBridge.Proofs.Call.Stream

/-!
# Calls and the handles that exist

A call is made with its arguments in hand, and ends with its result and the arguments as they were left.
The object it is made on is in use by the caller, for as long as the call lasts.

* `conserves_choose` and `conserves_chooseStatic` — the selection of an overload.
* `conserves_runBody` and `conserves_execute` — the body or its override, and what it leaves.
* `conserves_call`, `conserves_callStatic` and `conserves_each` — the calls.
-/

namespace ObjectBridge.Dispatch

open Run

variable {s : State} {hand : List Value} {exec : Exec}

/-- The values that a binding gives to the parameters are covered with the arguments. -/
theorem covers_binding {t : ClassTable} (ht : t = s.classes) {owner method : String}
    {args : CallArgs} {overloads : List Overload} {o : Overload} {binding : Binding}
    (hargs : ∀ v ∈ args.values, s.Covers hand v)
    (hoverloads : ∀ o ∈ overloads, ∀ v ∈ o.defaults, v ∈ t.heldValues)
    (hpick : Selection.pick s.toWorld owner method overloads args = .ok (o, binding)) :
    ∀ v ∈ binding.values, s.Covers hand v := by
  subst ht
  exact Cells.covers_pick rfl hargs
    (fun o ho v hv => covers_of_mem_classes (hoverloads o ho v hv)) hpick

/-- A static method is selected with the arguments in hand. -/
theorem conserves_chooseStatic {cls : ClassId} {method : String} {args : CallArgs}
    (hargs : ∀ v ∈ args.values, s.Covers hand v) :
    Conserves (chooseStatic cls method args) s hand
      fun chosen => chosen.binding.values ++ hand := by
  refine conserves_get (conserves_bind_orFail ?_)
  intro candidates hfound
  refine conserves_unless fun _ => conserves_bind_ofExcept ?_
  rintro ⟨o, binding⟩ hpick
  refine conserves_unless fun _ => conserves_pure ?_
  intro v hv
  rcases List.mem_append.mp hv with hv | hv
  · refine covers_binding rfl hargs ?_ hpick v hv
    intro o ho u hu
    exact ClassTable.mem_heldValues_of_findMethod hfound (List.mem_of_mem_filter ho) hu
  · exact State.covers_of_mem_hand hv

/-- What stands in for an overload comes from the object, and captured what is in use. -/
theorem conserves_bind_overrideFor {α : Type} {recv : Option Handle} {sig : Signature}
    {method : String} {allowOverride : Bool} {k : Option (Handle × Callable) → Run α}
    {out : α → List Value} (hnone : Conserves (k none) s hand out)
    (hsome : ∀ h f, recv = some h → (∀ v ∈ f.values, s.Covers hand v) →
      Conserves (k (some (h, f))) s hand out) :
    Conserves (overrideFor recv sig method allowOverride >>= k) s hand out := by
  cases recv with
  | none => exact conserves_bind_pure hnone
  | some h =>
      rw [overrideFor]
      split
      · rw [bind_assoc]
        refine Lifetime.conserves_bind_resolve ?_
        intro i hi
        refine conserves_bind_pure ?_
        cases hfound : i.overrides.bind fun o => o.get? method with
        | none => exact hnone
        | some f =>
            refine hsome h f rfl ?_
            intro v hv
            obtain ⟨o, ho, hf⟩ := Option.bind_eq_some_iff.mp hfound
            exact Lifetime.covers_instance_overrides hi ho
              (List.mem_flatMap.mpr ⟨(method, f), mem_of_lookup hf, hv⟩)
      · exact conserves_bind_pure hnone

section Bodies

variable (hexec : ConservesAll exec)

include hexec

/-- An overload is selected after a deferred construction, so the arguments are held meanwhile. -/
theorem conserves_choose {recv : Handle} {method : String} {args : CallArgs}
    (hargs : ∀ v ∈ args.values, v ∈ s.kept) :
    Conserves (choose exec recv method args) s [] fun chosen => chosen.binding.values := by
  refine (Lifetime.conserves_materialize hexec recv method).bind ?_
  intro _ t _ hlevel
  refine conserves_get (conserves_bind_orFail ?_)
  intro candidates hfound
  refine conserves_unless fun _ => conserves_unless fun _ => conserves_bind_ofExcept ?_
  rintro ⟨o, binding⟩ hpick
  refine conserves_unless fun _ => conserves_pure ?_
  -- A bound value is an argument, or a default that the classes hold.
  refine covers_binding rfl (fun v hv => State.covers_of_mem_kept ?_ []) ?_ hpick
  · rw [hlevel.kept_eq]
    exact hargs v hv
  · intro o ho u hu
    refine ClassTable.mem_heldValues_of_findMethod hfound ?_ hu
    split at ho
    · exact List.mem_of_mem_filter (List.mem_of_mem_filter ho)
    · exact List.mem_of_mem_filter ho

/-- An override starts with what it captured and with the arguments in hand, and leaves its result and
what it made of the arguments. -/
theorem conserves_runOverride {recv : Handle} {f : Callable} {params : List Param}
    {values : List Value} (hrecv : .object recv ∈ s.kept) :
    Conserves (runOverride exec recv f params values) s (values ++ f.values)
      fun left => left.1 :: left.2 := by
  refine (Delivery.conserves_outward params fun v hv => List.mem_append_left _ hv).bind ?_
  intro sent t _ hlevel
  have hbody : Conserves
      (holding (values ++ sent)
        (inHostFrame (.override recv.target) (Run.invoke exec f (some recv) sent))) t
      (sent ++ (values ++ f.values)) fun body => (values ++ sent) ++ body.values := by
    refine Conserves.of_hand (Conserves.inHostFrame (conserves_invoke hexec f (some recv) sent)).holding ?_
    intro v hv
    simp only [List.mem_append, Option.map_some, Option.toList_some, List.mem_singleton] at hv
    rcases hv with (hv | hv) | hv | rfl | hv
    · exact State.covers_of_mem_hand (by simp [hv])
    · exact State.covers_of_mem_hand (by simp [hv])
    · exact State.covers_of_mem_hand (by simp [hv])
    · rw [← hlevel.kept_eq] at hrecv
      exact State.covers_of_mem_kept hrecv _
    · exact State.covers_of_mem_hand (by simp [hv])
  refine hbody.bind ?_
  intro body u _ _
  refine conserves_get (conserves_pure ?_)
  intro v hv
  rcases List.mem_cons.mp hv with rfl | hv
  · exact (State.covers_result body).hand_mono fun v hv => by simp [hv]
  · refine Delivery.covers_inward (s := u) ?_ ?_ v hv
    · exact fun v hv => State.covers_of_mem_hand (by simp [hv])
    · exact fun v hv => State.covers_of_mem_hand (by simp [hv])

/-- A body or the override that stands in for it starts with the values of its parameters in hand. -/
theorem conserves_runBody {recv : Option Handle} {chosen : Selected} {method : String}
    {allowOverride : Bool} (hrecv : ∀ h ∈ recv, .object h ∈ s.kept) :
    Conserves (runBody exec recv chosen method allowOverride) s chosen.binding.values
      fun left => left.1 :: left.2 := by
  refine (Delivery.conserves_prepare hexec _ _).bind ?_
  intro values t _ hlevel
  rw [← hlevel.kept_eq] at hrecv
  refine conserves_bind_overrideFor ?_ ?_
  · simp only
    split
    · refine (Lifetime.conserves_runNative_of_kept hexec hrecv).bind ?_
      intro body u _ _
      refine conserves_pure ?_
      intro v hv
      rcases List.mem_cons.mp hv with rfl | hv
      · exact State.covers_result body
      · exact State.covers_args hv
    · exact conserves_fail
  · rintro h f rfl hf
    refine (conserves_runOverride hexec (hrecv h rfl)).of_hand ?_
    intro v hv
    rcases List.mem_append.mp hv with hv | hv
    · exact State.covers_of_mem_hand hv
    · exact hf v hv

/-- A call that was selected, with the arguments and the values of the parameters in hand. -/
theorem conserves_execute {recv : Option Handle} {chosen : Selected} {method : String}
    {args : CallArgs} {allowOverride : Bool} (hrecv : ∀ h ∈ recv, .object h ∈ s.kept) :
    Conserves (execute exec recv chosen method args allowOverride) s
      (args.values ++ chosen.binding.values) fun left => left.1 :: left.2.values := by
  have hbody : Conserves (holding args.values (runBody exec recv chosen method allowOverride)) s
      (args.values ++ chosen.binding.values) fun left => args.values ++ (left.1 :: left.2) := by
    refine Conserves.holding (conserves_runBody hexec ?_)
    intro h hh
    rw [State.kept_cons_held]
    exact List.mem_append_right _ (hrecv h hh)
  refine hbody.bind ?_
  rintro ⟨value, updated⟩ t _ _
  refine (Delivery.conserves_settle (fun v hv => State.covers_of_mem_hand (by simp [hv]))
    fun v hv => State.covers_of_mem_hand (by simp [hv])).bind ?_
  intro after u _ _
  have hresult := (Delivery.conserves_giveBack hexec (s := { u with held := after.values :: u.held })
    chosen.overload.sig.result chosen.owner method value).holding
  refine conserves_map (g := fun v => (v, after)) (Conserves.of_out_subset
    (Conserves.of_hand hresult ?_) ?_)
  · intro v hv
    refine State.covers_of_mem_hand ?_
    simp only [List.mem_append, List.mem_singleton] at hv
    rcases hv with hv | rfl
    · simp [hv]
    · simp
  · intro v u hu
    simpa [or_comm] using hu

/-- A call on an object, with the arguments in hand. -/
theorem conserves_invoke {recv : Handle} {method : String} {args : CallArgs}
    {allowOverride : Bool} (hrecv : .object recv ∈ s.kept) :
    Conserves (invoke exec recv method args allowOverride) s args.values
      fun left => left.1 :: left.2.values := by
  have hchoose : Conserves (holding args.values (choose exec recv method args)) s args.values
      fun chosen => args.values ++ chosen.binding.values := by
    refine Conserves.holding_nil (conserves_choose hexec ?_)
    intro v hv
    rw [State.kept_cons_held]
    exact List.mem_append_left _ hv
  refine hchoose.bind ?_
  intro chosen t _ hlevel
  rw [← hlevel.kept_eq] at hrecv
  split
  · -- An iterator: the items are collected while the stream is open.
    have hitems : Conserves
        (holding args.values
          (Stream.withStream exec recv chosen.overload method chosen.binding.values
            (Stream.collect exec chosen.overload.sig.result chosen.owner method))) t
        (args.values ++ chosen.binding.values) fun items => args.values ++ items := by
      refine Conserves.holding (Stream.conserves_withStream hexec ?_ ?_)
      · rw [State.kept_cons_held]
        exact List.mem_append_right _ hrecv
      · exact fun stream u => Stream.conserves_collect hexec stream
    refine hitems.bind ?_
    intro items u _ _
    refine conserves_pure ?_
    intro v hv
    rcases List.mem_cons.mp hv with rfl | hv
    · exact Cells.covers_list_iff.mpr fun w hw => State.covers_of_mem_hand (by simp [hw])
    · exact State.covers_of_mem_hand (by simp [hv])
  · refine conserves_execute hexec ?_
    rintro h ⟨⟩
    exact hrecv

/-- A call of a static method, with the arguments in hand. -/
theorem conserves_callStatic {cls : ClassId} {method : String} {args : CallArgs} :
    Conserves (callStatic exec cls method args) s args.values
      fun left => left.1 :: left.2.values := by
  refine (conserves_chooseStatic fun v hv => State.covers_of_mem_hand hv).bind ?_
  intro chosen t _ _
  have hrecv : ∀ h ∈ (none : Option Handle), .object h ∈ t.kept := by simp
  refine (conserves_execute hexec hrecv).of_hand ?_
  intro v hv
  exact State.covers_of_mem_hand (by simpa [or_comm] using hv)

/-- The items of an enumerable method are given to a block, with the arguments in use meanwhile. -/
theorem conserves_each {recv : Handle} {method : String} {args : CallArgs}
    {block : Value → Run (Option Value)} (hrecv : .object recv ∈ s.kept)
    (hblock : ∀ v s, Conserves (block v) s [v] fun stopped => stopped.toList) :
    Conserves (each exec recv method args block) s args.values fun v => [v] := by
  refine Conserves.of_out_subset (Conserves.holding_nil ?_) fun v u hu =>
    List.mem_append_right _ hu
  refine (conserves_choose hexec ?_).bind ?_
  · intro v hv
    rw [State.kept_cons_held]
    exact List.mem_append_left _ hv
  · intro chosen t _ hlevel
    have hrecv' : .object recv ∈ t.kept := by
      rw [hlevel.kept_eq, State.kept_cons_held]
      exact List.mem_append_right _ hrecv
    refine (Stream.conserves_withStream hexec hrecv' fun stream u =>
      Stream.conserves_drive hexec hblock stream).bind ?_
    intro stopped u _ hlevel'
    refine conserves_pure ?_
    intro v hv
    obtain rfl := List.mem_singleton.mp hv
    -- Without a stop the receiver is answered, which was held all along.
    cases stopped with
    | none =>
        rw [← hlevel'.kept_eq] at hrecv'
        exact State.covers_of_mem_kept hrecv' _
    | some v => exact State.covers_of_mem_hand (by simp)

end Bodies

end ObjectBridge.Dispatch
