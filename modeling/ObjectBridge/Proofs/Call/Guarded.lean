import ObjectBridge.Call.Construction
import ObjectBridge.Call.Dispatch
import ObjectBridge.Proofs.Call.Passing
import ObjectBridge.Proofs.Call.Stream
import ObjectBridge.Proofs.Run.Guarded

/-!
# The bodies that calls run

To deliver arguments and results, no body runs but for the deferred constructors of the objects that are copied.

* `Lifetime.traced_dup` — the copy of an object.
* `Delivery.traced_prepare` — the arguments of a body.
* `Delivery.traced_giveBack` — the result of a body.
* `Dispatch.traced_choose` — the selection of an overload.
-/

namespace ObjectBridge

open Run

variable {R : State → State → Prop} {G : World → World → Prop} {exec : Exec} {s : State}

namespace Lifetime

theorem reads_resolve (h : Handle) (operation : String) : Reads (resolve h operation) :=
  fun _ => ⟨_, outcome_ofExcept _ _⟩

/-- The state in which the code of a native body starts. -/
def nativeStart (s : State) (recv : Option Handle) (args : List Value) : State :=
  { s with
    frames := .native :: s.frames
    activations := { mode := .native, receiver := recv, args := args } :: s.activations }

/-- The state in which a native body leaves its caller. -/
def nativeEnd (t : State) : State :=
  { t with frames := t.frames.tail, activations := t.activations.tail }

/-- A native body ends as its code does. -/
theorem outcome_runNative (exec : Exec) (recv : Option Handle) (args : List Value) (code : Code)
    (s : State) :
    (runNative exec recv args code).outcome s =
      match (exec code).outcome (nativeStart s recv args) with
      | (.ok (), t) =>
          (.ok (t.activations.headD { mode := .native, receiver := recv, args := args }), nativeEnd t)
      | (.error (.raised e), t) => (.error (.raised e), nativeEnd t)
      | (.error .exhausted, t) => (.error .exhausted, t) := by
  rcases hcode : (exec code).outcome (nativeStart s recv args) with ⟨r, t⟩
  rw [runNative, inNativeFrame, outcome_within, activate, outcome_within, outcome_bind]
  erw [hcode]
  match r with
  | .ok () => rfl
  | .error (.raised e) => rfl
  | .error .exhausted => rfl

/-- A native body does not run under a guard that allows nothing. -/
theorem not_obeys_runNative (hnothing : ∀ w w', ¬G w w') {recv : Option Handle} {args : List Value} {code : Code} :
    ¬Obeys G exec (fun exec => runNative exec recv args code) s := by
  have hstop : (guarded G exec code).outcome (nativeStart s recv args) = (.error .exhausted, nativeStart s recv args) :=
    outcome_guarded_of_not_allowed (hnothing _ _)
  rw [Obeys, outcome_runNative, hstop]
  exact not_not_intro rfl

/-- The deferred constructor of an object may run. -/
theorem traced_materialize (hR : Steady R G) (h : Handle) (operation : String) :
    Traced R G exec (fun exec => materialize exec h operation) s := by
  refine traced_bind_of_reads hR (reads_resolve h operation) fun i hi => ?_
  obtain ⟨hi, -⟩ := eq_of_outcome_ofExcept hi
  split
  · exact traced_pure hR _
  · rename_i hdeferred
    refine traced_get (traced_bind_of_reads hR (reads_orFail _ _) fun d hd => ?_)
    obtain ⟨hd, -⟩ := eq_of_outcome_orFail hd
    have hbody : (runNative (guarded G exec) none [] d.code).outcome s =
        (runNative exec none [] d.code).outcome s ∧ G s.toWorld
          ((exec d.code).outcome (nativeStart s none [])).2.toWorld ∨
        ((runNative (guarded G exec) none [] d.code).outcome s).1 = .error .exhausted := by
      rw [outcome_runNative, outcome_runNative]
      by_cases hallowed : G s.toWorld ((exec d.code).outcome (nativeStart s none [])).2.toWorld
      · exact Or.inl ⟨by rw [outcome_guarded_of_allowed (s := nativeStart s none []) hallowed], hallowed⟩
      · exact Or.inr (by rw [outcome_guarded_of_not_allowed (s := nativeStart s none []) hallowed])
    rcases hbody with ⟨hsame, hallowed⟩ | hstops
    · refine ⟨fun _ => by rw [outcome_bind, outcome_bind, hsame], fun hended => ?_⟩
      rw [Obeys, outcome_bind, hsame, outcome_runNative] at hended
      rw [outcome_bind, hsame, outcome_runNative]
      rcases hrun : (exec d.code).outcome (nativeStart s none []) with ⟨r, t⟩
      rw [hrun] at hended hallowed
      -- A state is stored only after a body that is allowed, so storing goes with the body and is no step of its own.
      have hran : R s (nativeEnd t) := hR.body hallowed
      cases r with
      | error fault =>
          cases fault with
          | raised e => exact hran
          | exhausted => exact absurd rfl hended
      | ok u =>
          simp only
          rw [outcome_bind, outcome_ofExcept]
          cases stateOf d.shape (t.activations.headD { mode := .native }) with
          | error e => exact hran
          | ok state =>
              show R s ((ofExcept ((nativeEnd t).arena.materialize h.target state) >>= setArena).outcome
                (nativeEnd t)).2
              rw [outcome_bind, outcome_ofExcept]
              cases hstored : (nativeEnd t).arena.materialize h.target state with
              | error e => exact hran
              | ok a => exact hR.made (t := nativeEnd t) hallowed hstored
    · exact traced_of_stops fun hended => hended.of_bind hstops

/-- The copy of an object is registered, and no body runs but for the deferred constructor of the object. -/
theorem traced_dup (hR : Steady R G) {h : Handle} (hcopy : ∀ {s t k}, Copied s h t k → R s t) :
    Traced R G exec (fun exec => dup exec h) s := by
  refine (traced_materialize hR h "dup").bind hR fun _ t _ => ?_
  refine traced_bind_of_reads hR (reads_resolve h "dup") fun i hi => ?_
  refine traced_bind_of_reads hR (reads_orFail _ _) fun copy hsome => traced_get ?_
  refine traced_bind_of_reads hR (reads_ofExcept _) fun c _ => traced_get ?_
  refine traced_bind_of_reads hR (reads_ofExcept _) fun registered hreg => traced_of_step ?_
  obtain ⟨hi, -⟩ := eq_of_outcome_ofExcept hi
  obtain ⟨hsome, -⟩ := eq_of_outcome_orFail hsome
  obtain ⟨hreg, -⟩ := eq_of_outcome_ofExcept hreg
  exact hcopy (s := t) (k := registered.1) (t := { t with arena := registered.2 })
    ⟨i, copy, c, registered.2, Arena.resolve_eq_ok_iff.mp hi, Instance.native_eq_of_copy? hsome, hreg, rfl⟩

end Lifetime

namespace Delivery

/-- Nothing is done to deliver a value for a parameter that takes no object. -/
theorem prepareOne_of_not_isObject {p : Param} (hobject : p.type.isObject = false) (v : Value) :
    prepareOne exec p v = pure v := by
  unfold prepareOne
  split
  · rename_i htype
    rw [htype] at hobject
    cases hobject
  · rfl

theorem isObject_of_isOutput {p : Param} (houtput : isOutput p = true) : p.type.isObject = false := by
  cases hobject : p.type.isObject with
  | false => rfl
  | true =>
      rw [isOutput_eq_false_of_isObject hobject] at houtput
      cases houtput

/-- Values may be passed to a body: objects among them may be copied, and they may be put into new boxes. -/
structure MayPass (R : State → State → Prop) (values : List Value) : Prop where
  copy : ∀ {s t h k}, .object h ∈ values → Lifetime.Copied s h t k → R s t
  box : ∀ {v}, v ∈ values → ∀ s, R s { s with cells := s.cells.push v }

/-- What arrives for a parameter that takes no object was bound to one. -/
theorem mem_values_of_prepare {params : List Param} {values us : List Value} {t : State} {p : Param} {u : Value}
    (hrun : (prepare exec params values).outcome s = (.ok us, t)) (hu : (p, u) ∈ params.zip us)
    (hobject : p.type.isObject = false) : u ∈ values := by
  induction params generalizing values us s t with
  | nil => cases hu
  | cons q params ih =>
      cases values with
      | nil =>
          obtain ⟨rfl, -⟩ := eq_of_outcome_pure hrun
          cases hu
      | cons v rest =>
          rw [prepare_cons] at hrun
          obtain ⟨first, s₁, hone, hothers⟩ := exists_of_outcome_bind hrun
          obtain ⟨others, s₂, hrest, hpure⟩ := exists_of_outcome_bind hothers
          obtain ⟨rfl, -⟩ := eq_of_outcome_pure hpure
          rcases List.mem_cons.mp hu with heq | hu
          · obtain ⟨rfl, rfl⟩ := Prod.mk.inj heq
            obtain ⟨t', hdelivered, -⟩ := exists_of_outcome_holding hone
            rw [prepareOne_of_not_isObject hobject] at hdelivered
            exact (eq_of_outcome_pure hdelivered).1 ▸ List.mem_cons_self
          · obtain ⟨t', hprepared, -⟩ := exists_of_outcome_holding hrest
            exact List.mem_cons_of_mem _ (ih hprepared hu)

variable (hR : Steady R G)

include hR

/-! ## Arguments -/

theorem traced_prepareOne {v : Value}
    (hcopy : ∀ {s t h k}, .object h = v → Lifetime.Copied s h t k → R s t) (p : Param) :
    Traced R G exec (fun exec => prepareOne exec p v) s := by
  unfold prepareOne
  split
  · rename_i h _
    cases p.passing with
    | value => exact (Lifetime.traced_dup hR (hcopy rfl)).bind hR fun k t _ => traced_pure hR _
    | _ => exact traced_pure hR _
  · exact traced_pure hR _

theorem traced_prepare {values : List Value} (hpass : MayPass R values) (params : List Param) :
    Traced R G exec (fun exec => prepare exec params values) s := by
  induction params generalizing values s with
  | nil => exact traced_pure hR _
  | cons p params ih =>
      cases values with
      | nil => exact traced_pure hR _
      | cons v rest =>
          simp only [prepare_cons]
          have hone : Traced R G exec (fun exec => prepareOne exec p v) (withHeld s (v :: rest)) :=
            traced_prepareOne hR (fun heq => hpass.copy (heq ▸ List.mem_cons_self)) p
          have hrest : MayPass R rest :=
            ⟨fun hh => hpass.copy (List.mem_cons_of_mem _ hh), fun hv => hpass.box (List.mem_cons_of_mem _ hv)⟩
          exact (hone.holding hR).bind hR fun u t _ =>
            ((ih hrest).holding hR).bind hR fun us t' _ => traced_pure hR _

/-- The arguments are put into boxes for an override. -/
theorem traced_outward {us : List Value} (params : List Param)
    (hbox : ∀ p v, (p, v) ∈ params.zip us → isOutput p = true → ∀ s, R s { s with cells := s.cells.push v }) :
    Traced R G exec (fun _ => outward params us) s := by
  induction params generalizing us s with
  | nil => exact traced_pure hR _
  | cons p params ih =>
      cases us with
      | nil => exact traced_pure hR _
      | cons v rest =>
          have hrest (sent : Value) (t : State) :
              Traced R G exec (fun _ => outward params rest >>= fun others => pure (sent :: others)) t :=
            (ih fun q w hw => hbox q w (List.mem_cons_of_mem _ hw)).bind hR (f := fun _ others => pure (sent :: others))
              fun others t' _ => traced_pure hR _
          unfold outward
          split
          · rename_i houtput
            have hboxed : Traced R G exec (fun _ => newBox v) s :=
              traced_of_step (hbox p v List.mem_cons_self houtput s)
            exact hboxed.bind hR (f := fun _ sent => outward params rest >>= fun others => pure (sent :: others))
              fun sent t _ => hrest sent t
          · exact hrest v s

/-! ## Results -/

theorem traced_issueFor (harena : ∀ s a, R s { s with arena := a }) (h : Handle) (c : Constness) :
    Traced R G exec (fun _ => Lifetime.issueFor h c) s := by
  refine Traced.bind hR (f := fun _ issued => orFail (Arena.useAfterFree h "return") issued) ?_
    fun issued t _ => traced_of_reads hR (reads_orFail _ _)
  refine traced_of_step ?_
  rw [Lifetime.issue?, outcome_get_bind]
  split
  · exact hR.refl _
  · exact harena _ _

theorem traced_giveObject (harena : ∀ s a, R s { s with arena := a }) (cls : String) (passing : Passing)
    (h : Handle) (method : String) :
    Traced R G exec (fun exec => giveObject exec cls passing h method) s := by
  refine traced_get (traced_bind_of_reads hR (reads_ofExcept _) fun expected _ => traced_get ?_)
  refine traced_unless hR fun _ => ?_
  refine traced_bind_of_reads hR (Lifetime.reads_resolve h method) fun i _ => traced_get ?_
  have hissued (c : Constness) : Traced R G exec (fun _ => do
      return Value.object (← Lifetime.issueFor h c)) s :=
    (traced_issueFor hR harena h c).bind hR (f := fun _ k => pure (Value.object k))
      fun k t _ => traced_pure hR _
  have hshown : Traced R G exec (fun _ => if isSoleAlias s h then do
        setArena (s.arena.setConst h.proxy true)
        return Value.object h
      else return Value.object (← Lifetime.issueFor h .const)) s := by
    split
    · exact traced_of_step (harena _ _)
    · exact hissued .const
  cases passing with
  | value =>
      dsimp only
      split
      · exact traced_pure hR _
      · refine Traced.bind hR (Traced.holding hR (Lifetime.traced_dup hR ?_)) fun k t _ => traced_pure hR _
        rintro s t k ⟨i, state, c, a, -, -, -, rfl⟩
        exact harena _ _
  | ref => exact hissued .nonConst
  | ptr => exact hissued .nonConst
  | constRef => exact hshown
  | constPtr => exact hshown

theorem traced_converted (type : Ty) (v : Value) :
    Traced R G exec (fun _ => give.converted type v) s := by
  have hreads : Reads (give.converted type v) := by
    refine fun t => ?_
    rw [give.converted, outcome_get_bind]
    split
    · exact reads_pure _ t
    · exact reads_fail _ t
  exact traced_of_reads hR hreads

theorem traced_give (harena : ∀ s a, R s { s with arena := a }) (owner method : String) (type : Ty)
    (passing : Passing) (v : Value) :
    Traced R G exec (fun exec => give exec owner method type passing v) s := by
  induction type generalizing v s with
  | any => exact traced_pure hR _
  | object cls =>
      unfold give
      split
      · exact traced_giveObject hR harena cls passing _ method
      · split
        · exact traced_pure hR _
        · exact traced_fail hR _
      · exact traced_converted hR (.object cls) _
  | list item ih =>
      unfold give
      split
      · exact (traced_mapHeld hR (fun u t => ih u) _ s).bind hR fun us t _ => traced_pure hR _
      · exact traced_converted hR (.list item) _
  | _ => exact traced_converted hR _ v

/-- A result is delivered, and no body runs but for the deferred constructors of the objects that are copied. -/
theorem traced_giveBack (harena : ∀ s a, R s { s with arena := a }) (result : Result) (owner method : String)
    (v : Value) : Traced R G exec (fun exec => giveBack exec result owner method v) s := by
  cases result with
  | none => exact traced_pure hR _
  | some declared => exact traced_give hR harena owner method declared.1 declared.2 v

omit hR in
/-- The boxes stay as they are while a result is delivered, if no deferred constructor runs for it. -/
theorem cells_of_giveBack {result : Result} {owner method : String} {v : Value} {r : Except Fault Value}
    {t : State} (hquiet : ((giveBack noBody result owner method v).outcome s).1 ≠ .error .exhausted)
    (hrun : (giveBack exec result owner method v).outcome s = (r, t)) : t.cells = s.cells :=
  cells_of_noBody (traced_giveBack steady_cells (fun _ _ => rfl) result owner method v) hquiet hrun

end Delivery

namespace Dispatch

/-! ## Selection -/

/-- An overload is selected, and no body runs but for the deferred constructor of the object. -/
theorem traced_choose (hR : Steady R G) (recv : Handle) (method : String) (args : CallArgs) :
    Traced R G exec (fun exec => choose exec recv method args) s := by
  refine (Lifetime.traced_materialize hR recv method).bind hR fun _ t _ => traced_get ?_
  refine traced_bind_of_reads hR (reads_orFail _ _) fun candidates _ => ?_
  refine traced_unless hR fun _ => traced_unless hR fun _ => ?_
  refine traced_bind_of_reads hR (reads_ofExcept _) fun picked _ => ?_
  exact traced_unless hR fun _ => traced_pure hR _

/-- To select a static overload changes nothing. -/
theorem reads_chooseStatic (cls : ClassId) (method : String) (args : CallArgs) :
    Reads (chooseStatic cls method args) :=
  reads_get.bind fun _ => (reads_orFail _ _).bind fun _ => reads_unless fun _ =>
    (reads_ofExcept _).bind fun _ => reads_unless fun _ => reads_pure _

/-- The boxes stay as they are while an overload is selected, if no deferred constructor runs. -/
theorem cells_of_choose {recv : Handle} {method : String} {args : CallArgs} {r : Except Fault Selected}
    {t : State}
    (hquiet : ((holding args.values (choose noBody recv method args)).outcome s).1 ≠ .error .exhausted)
    (hrun : (holding args.values (choose exec recv method args)).outcome s = (r, t)) : t.cells = s.cells :=
  cells_of_noBody ((traced_choose steady_cells recv method args).holding steady_cells) hquiet hrun

/-! ## Bodies and overrides -/

theorem reads_overrideFor (recv : Option Handle) (sig : Signature) (method : String) (allowOverride : Bool) :
    Reads (overrideFor recv sig method allowOverride) := by
  unfold overrideFor
  split
  · split
    · exact (Lifetime.reads_resolve _ _).bind fun i => reads_pure _
    · exact reads_pure _
  · exact reads_pure _

theorem traced_runOverride (hR : Steady R G) {recv : Handle} {f : Callable} {params : List Param} {us : List Value}
    (hbox : ∀ p v, (p, v) ∈ params.zip us → Delivery.isOutput p = true → ∀ s,
      R s { s with cells := s.cells.push v }) :
    Traced R G exec (fun exec => runOverride exec recv f params us) s := by
  have hbody (sent : List Value) (t : State) : Traced R G exec (fun exec => do
      let body ← holding (us ++ sent) (inHostFrame (.override recv.target) (Run.invoke exec f (some recv) sent))
      return (body.result, Delivery.inward (← get).cells sent us)) t :=
    (Traced.holding hR (Traced.inHostFrame hR fun _ _ => traced_invoke hR f _ _)).bind hR fun body u _ =>
      traced_get (f := fun _ s => pure (body.result, Delivery.inward s.cells sent us)) (traced_pure hR _)
  exact (Delivery.traced_outward hR params hbox).bind hR (f := fun exec sent => do
    let body ← holding (us ++ sent) (inHostFrame (.override recv.target) (Run.invoke exec f (some recv) sent))
    return (body.result, Delivery.inward (← get).cells sent us)) fun sent t _ => hbody sent t

/-- What was selected for a call runs, and what the parameters are bound to is passed to it. -/
theorem traced_runBody (hR : Steady R G) {recv : Option Handle} {chosen : Selected} {method : String}
    {allowOverride : Bool} (hpass : Delivery.MayPass R chosen.binding.values) :
    Traced R G exec (fun exec => runBody exec recv chosen method allowOverride) s := by
  refine (Delivery.traced_prepare hR hpass _).bind hR fun us t hprepare => ?_
  refine traced_bind_of_reads hR (reads_overrideFor _ _ _ _) fun standIn _ => ?_
  match standIn with
  | some (h, f) =>
      refine traced_runOverride hR fun p v hv houtput => hpass.box ?_
      exact Delivery.mem_values_of_prepare hprepare hv (Delivery.isObject_of_isOutput houtput)
  | none =>
      dsimp only
      split
      · exact (traced_runNative hR _ recv us).bind hR fun body u _ => traced_pure hR _
      · exact traced_fail hR _

end Dispatch

namespace Stream

/-- The items of a stream are delivered. -/
theorem traced_collect (hR : Steady R G) (harena : ∀ s a, R s { s with arena := a }) (result : Result)
    (owner method : String) (stream : Stream) :
    Traced R G exec (fun exec => collect exec result owner method stream) s := by
  induction stream using collect.induct generalizing s with
  | case1 stream hnext =>
      simp only [collect_of_none hnext]
      exact traced_pure hR _
  | case2 stream item rest hnext ih =>
      simp only [collect_of_some hnext]
      have hitem (t : State) : Traced R G exec
          (fun exec => do Delivery.giveBack exec result owner method (← ofExcept item)) t :=
        traced_bind_of_reads hR (reads_ofExcept _) fun v _ => Delivery.traced_giveBack hR harena result owner method v
      exact ((hitem _).holding hR).bind hR fun u t _ => (ih.holding hR).bind hR fun us t' _ => traced_pure hR _

/-- An enumerable body runs, and then something is done with its stream. -/
theorem traced_withStream {α : Type} (hR : Steady R G) {recv : Handle} {overload : Overload} {method : String}
    {values : List Value} {act : Exec → Stream → Run α} (hpass : Delivery.MayPass R values)
    (hact : (∀ w w', ¬G w w') ∨ ∀ stream u, Traced R G exec (fun exec => act exec stream) u) :
    Traced R G exec (fun exec => withStream exec recv overload method values (act exec)) s := by
  unfold withStream
  split
  · rename_i code source _
    refine (Delivery.traced_prepare hR hpass _).bind hR fun us t _ => ?_
    rcases hact with hnothing | hstream
    · exact traced_of_stops fun hended => Lifetime.not_obeys_runNative hnothing hended.of_bind
    · refine (traced_runNative hR _ _ _).bind hR fun body t' _ => ?_
      refine traced_bind_of_reads hR (reads_ofExcept _) fun stream _ => ?_
      cases source with
      | items failAt => exact hstream stream t'
      | counting => exact (hstream stream _).within hR rfl (fun _ => rfl) fun _ => rfl
  · exact (Delivery.traced_prepare hR hpass _).bind hR fun us t _ => traced_fail hR _

end Stream

namespace Construction

/-- The code of a constructor runs with what was passed to it. -/
theorem traced_constructor (hR : Steady R G) (owner : String) (overload : Overload) (us : List Value) :
    Traced R G exec (fun exec => match overload.body with
      | .constructor code shape => do
          let body ← Lifetime.runNative exec none us code
          return (← ofExcept (Lifetime.stateOf shape body), body.args)
      | _ => fail (.native (owner ++ "::new is not a constructor"))) s := by
  split
  · refine (traced_runNative hR _ none us).bind hR fun body u _ => ?_
    exact traced_bind_of_reads hR (reads_ofExcept _) fun state _ => traced_pure hR _
  · exact traced_fail hR _

/-- A constructor runs, and what its parameters are bound to is passed to it. -/
theorem traced_runConstructor (hR : Steady R G) {owner : String} {overload : Overload} {values : List Value}
    (hpass : Delivery.MayPass R values) :
    Traced R G exec (fun exec => runConstructor exec owner overload values) s :=
  (Delivery.traced_prepare hR hpass _).bind hR fun us _ _ => traced_constructor hR owner overload us

end Construction

end ObjectBridge
