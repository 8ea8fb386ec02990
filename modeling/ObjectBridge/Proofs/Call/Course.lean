import ObjectBridge.Call.Construction
import ObjectBridge.Proofs.Call.Event
import ObjectBridge.Proofs.Call.Guarded
import ObjectBridge.Proofs.Lifetime.Passes
import ObjectBridge.Proofs.Run.Course

/-!
# The course of operations

Every operation on objects takes a course, if the bodies that it runs do.

* `takes_construct`, `takes_create` and `takes_dup` — the three ways in which an object is stored.
* `takes_runNative` and `takes_materialize` — native bodies and deferred constructors.
* `takes_call`, `takes_callStatic` and `takes_each` — the calls.
* `takes_modifyHandlers` and `takes_trigger` — events.
-/

namespace ObjectBridge

open Run

variable {C : Course} {s : State} {exec : Exec}

namespace Lifetime

/-! ## New objects -/

theorem takes_register {new : NewInstance}
    (hleads : ∀ h a, s.arena.register new = .ok (h, a) → C.Leads s True { s with arena := a }) :
    Takes C (register new) s := by
  refine takes_get (takes_bind_ofExcept ?_)
  rintro ⟨h, arena⟩ hreg
  exact (takes_setArena (hleads h arena hreg)).map

/-- A new object gets the overrides that its class had at an earlier time.  They are looked up under the number of
the class or under the one that it was asked for by, which are the same where classes are numbered. -/
theorem takes_registerAs {t : State} {cls id : ClassId} {c : ClassInfo} {native : Option NativeState} {keep : Keep}
    (hfrom : C.From s) (hlater : C.Leads s True t) (hclass : s.classes.descriptor cls = .ok c)
    (hid : c.id = cls → id = cls) : Takes C (registerAs c native keep (s.classes.overrides id)) t := by
  refine takes_register fun h arena hreg => C.store hfrom hlater hclass (fun hnum => ?_) hreg
  rw [NewInstance.lineage, ClassTable.overrides, hid hnum, ClassTable.descriptor_eq_ok_iff.mp hclass]
  rfl

theorem takes_create (cls : ClassId) (native : NativeState) (keep : Keep) :
    Takes C (create cls native keep) s :=
  .of_from fun hfrom => takes_get (takes_bind_ofExcept fun _ hc =>
    takes_registerAs hfrom (C.refl s) hc fun _ => rfl)

/-! ## Handles and removals -/

theorem takes_bind_resolve {α : Type} {h : Handle} {operation : String} {f : Instance → Run α}
    (hf : ∀ i, s.arena.get? h.target = some i → Takes C (f i) s) :
    Takes C (resolve h operation >>= f) s :=
  takes_bind_of_reads (reads_resolve h operation) fun i hi =>
    hf i (Arena.resolve_eq_ok_iff.mp (eq_of_outcome_ofExcept hi).1)

theorem takes_issue? (inHand : List Handle) (r : Reference) (c : Constness) :
    Takes C (issue? inHand r c) s := by
  refine takes_get ?_
  split
  · exact takes_pure none
  · rename_i h arena hissue
    exact (takes_setArena (C.quiet (.issue _ r c h hissue))).map

theorem takes_issueFor (h : Handle) (c : Constness) : Takes C (issueFor h c) s :=
  (takes_issue? [h] h.target c).bind fun _ _ _ _ => takes_of_reads (reads_orFail _ _)

theorem takes_upgrade (r : Reference) : Takes C (upgrade r) s :=
  takes_issue? [] r .keep

theorem takes_destroy (h : Handle) : Takes C (destroy h) s := by
  refine takes_get (takes_bind_ofExcept ?_)
  rintro ⟨i, arena⟩ hdes
  exact takes_setArena (C.quiet (.destroy h.target i (Arena.destroy_eq_ok_iff.mp hdes)))

theorem takes_manage (h : Handle) : Takes C (manage h) s :=
  takes_get (takes_bind_ofExcept fun _ hkeep => takes_setArena (C.quiet (.keep h _ _ hkeep)))

theorem takes_unmanage (h : Handle) : Takes C (unmanage h) s :=
  takes_get (takes_bind_ofExcept fun _ hkeep => takes_setArena (C.quiet (.keep h _ _ hkeep)))

/-- Seating an object removes one at most. -/
theorem does_install {seat seat' : Seat} {a a' : Arena} {next : Option Handle} {evicted : Option Instance}
    (hins : seat.install a next = .ok (evicted, seat', a')) : a.Does [] a' := by
  obtain ⟨b, hfrozen, hevicted⟩ := Seat.install_cases hins
  have hfirst : a.Does [] b := by
    rcases hfrozen with rfl | ⟨h, -, hkeep⟩
    · exact .refl _
    · exact (Arena.Act.keep h _ _ hkeep).does
  rcases hevicted with ⟨-, rfl⟩ | ⟨r, i, -, hdes, -⟩
  · exact hfirst
  · exact hfirst.tail (.destroy r i hdes)

/-- A change of the arena together with a change of values. -/
theorem leads_of_arena {t : State} (hdoes : s.arena.Does [] t.arena) (hclasses : t.classes = s.classes)
    (hrunning : t.running = s.running) : C.Leads s True t :=
  C.trans (C.leads_of_does hdoes) (C.vary hclasses rfl hrunning)

theorem takes_install (cls : ClassId) (name : String) (next : Option Handle) :
    Takes C (install cls name next) s := by
  refine takes_get (takes_bind_ofExcept ?_)
  rintro ⟨evicted, seat, arena⟩ hins
  exact takes_of_leads rfl (leads_of_arena (does_install hins) rfl rfl)

theorem takes_occupant (cls : ClassId) (name : String) : Takes C (occupant cls name) s := by
  refine takes_get ?_
  split
  · exact takes_pure none
  · rename_i h arena hcurrent
    obtain ⟨r, -, hissue⟩ := Option.bind_eq_some_iff.mp hcurrent
    exact (takes_setArena (C.quiet (.issue _ r _ h hissue))).map

theorem does_without (a : Arena) (rs : List Reference) : a.Does [] (a.without rs) := by
  induction rs generalizing a with
  | nil => exact .refl a
  | cons r rest ih =>
      cases hdes : a.destroy? r with
      | none =>
          rw [Arena.without_cons_of_gone hdes]
          exact ih a
      | some removed =>
          rw [Arena.without_cons_of_destroy? hdes]
          exact (Arena.Act.destroy r removed.1 hdes).does.trans (ih removed.2)

theorem takes_reclaim : Takes C reclaim s := by
  refine takes_tick.bind fun _ t _ _ => takes_get ?_
  obtain ⟨gone, hsweep, -⟩ := sweep_spec sweepPasses t 0
  rw [hsweep]
  exact takes_of_leads rfl (leads_of_arena (does_without t.arena gone) rfl rfl)

theorem takes_countConstruction : Takes C countConstruction s := by
  refine takes_get ?_
  split
  · exact takes_pure _
  · refine (takes_modify (f := fun s => { s with constructions := s.constructions + 1 }) rfl rfl
      rfl).bind fun _ t _ _ => ?_
    split
    · exact takes_reclaim.map
    · exact takes_pure _

/-! ## Native states -/

section Bodies

variable (hexec : TakesAll C exec)

include hexec

theorem takes_runNative (recv : Option Handle) (args : List Value) (code : Code) :
    Takes C (runNative exec recv args code) s :=
  Takes.inNativeFrame (starts_activation { mode := .native, receiver := recv, args := args })
    (takes_code hexec _ code)

theorem takes_materialize (h : Handle) (operation : String) :
    Takes C (materialize exec h operation) s := by
  refine takes_bind_resolve fun i _ => ?_
  split
  · exact takes_pure _
  · refine takes_get (takes_bind_orFail fun deferred _ => ?_)
    refine (takes_runNative hexec none [] deferred.code).bind fun body t _ _ => ?_
    refine takes_bind_ofExcept fun state _ => takes_get (takes_bind_ofExcept fun arena hmat => ?_)
    exact takes_setArena (C.quiet (.materialize h.target state hmat))

/-- A copy gets the class and the overrides of the object that it is a copy of. -/
theorem takes_dup (h : Handle) : Takes C (dup exec h) s := by
  refine (takes_materialize hexec h "dup").bind fun _ t _ _ => ?_
  refine takes_bind_resolve fun i hi => takes_bind_orFail fun state _ => ?_
  refine takes_get (takes_bind_ofExcept fun c hc => ?_)
  exact takes_register fun k arena hreg => C.copy hi hc rfl hreg

omit hexec in
/-- What is left to be done when both objects have their native states. -/
theorem takes_assignState (target source : Handle) : Takes C (do
    if !s.classes.isSubclassOf source.cls target.cls then
      Run.fail (.typeMismatch target.className source.className 1 target.className "assign")
    if target.sameObject source then
      return
    let (x, y) ← Run.orFail (.native "assign: instance state unavailable")
      (s.arena.pair? target.target source.target)
    let z ← Run.orFail (.native ("Class " ++ target.className ++ " does not support assign"))
      (x.assignFrom? y)
    Run.setArena (s.arena.setNative target.target z)) s := by
  refine takes_unless fun _ => ?_
  split
  · exact takes_pure _
  · refine takes_bind_orFail fun pair hpair => takes_bind_orFail fun z _ => ?_
    obtain ⟨i, j, hi, -, hx, -⟩ := pair?_eq_some hpair
    exact takes_setArena (C.quiet (.native target.target z i hi
      (Option.isSome_iff_exists.mpr ⟨_, hx⟩)))

theorem takes_assign (target source : Handle) : Takes C (assign exec target source) s := by
  refine takes_get (takes_unless fun _ => ?_)
  refine (takes_materialize hexec target "assign").bind fun _ t _ _ => ?_
  exact (takes_materialize hexec source "assign").bind fun _ u _ _ =>
    takes_get (takes_assignState target source)

theorem takes_equals (left right : Handle) : Takes C (equals exec left right) s := by
  refine (takes_materialize hexec left "==").bind fun _ t _ _ => ?_
  refine (takes_materialize hexec right "==").bind fun _ u _ _ => ?_
  exact takes_bind_resolve fun i _ => takes_bind_resolve fun j _ => takes_get (takes_pure _)

theorem takes_typedState (h : Handle) (type operation : String) :
    Takes C (typedState exec h type operation) s := by
  refine (takes_materialize hexec h operation).bind fun _ t _ _ => ?_
  exact takes_bind_resolve fun i _ => takes_of_reads (reads_orFail _ _)

theorem takes_modifyNative (h : Handle) (type : String) (f : NativeState → NativeState) :
    Takes C (modifyNative exec h type f) s := by
  refine takes_get (takes_unless fun _ => ?_)
  refine (takes_typedState hexec h type "native_mut").bind fun state t hstate _ => takes_get ?_
  obtain ⟨i, hi, hnative⟩ := exists_native_of_typedState hstate
  exact takes_setArena (C.quiet (.native h.target (f state) i hi
    (Option.isSome_iff_exists.mpr ⟨_, hnative⟩)))

end Bodies

end Lifetime

/-! ## Arguments and results -/

namespace Delivery

theorem takes_settle (params : List Param) (sources : List Source) (updated : List Value)
    (args : CallArgs) : Takes C (settle params sources updated args) s :=
  takes_of_leads rfl (C.vary rfl rfl rfl)

theorem takes_newBox (content : Value) : Takes C (newBox content) s :=
  takes_of_leads rfl (C.vary rfl rfl rfl)

theorem takes_outward (params : List Param) (values : List Value) :
    Takes C (outward params values) s := by
  induction params generalizing values s with
  | nil => exact takes_pure []
  | cons p params ih =>
      cases values with
      | nil => exact takes_pure []
      | cons v rest =>
          have hrest (sent : Value) (t : State) :
              Takes C (outward params rest >>= fun others => pure (sent :: others)) t :=
            (ih rest).map
          unfold outward
          split
          · exact (takes_newBox v).bind fun sent t _ _ => hrest sent t
          · exact hrest v s

section Bodies

variable (hexec : TakesAll C exec)

include hexec

theorem takes_prepareObject (passing : Passing) (h : Handle) :
    Takes C (prepareObject exec passing h) s := by
  cases passing with
  | value => exact (Lifetime.takes_dup hexec h).map
  | ref | ptr | constRef | constPtr => exact takes_pure _

theorem takes_prepare (params : List Param) (values : List Value) :
    Takes C (prepare exec params values) s := by
  induction params generalizing values s with
  | nil => exact takes_pure []
  | cons p params ih =>
      cases values with
      | nil => exact takes_pure []
      | cons v rest =>
          rw [prepare_cons]
          have hone (t : State) : Takes C (prepareOne exec p v) t := by
            unfold prepareOne
            split
            · exact takes_prepareObject hexec p.passing _
            · exact takes_pure _
          exact (hone _).holding.bind fun _ _ _ _ =>
            (ih rest).holding.map

theorem takes_giveObject (cls : String) (passing : Passing) (h : Handle) (method : String) :
    Takes C (giveObject exec cls passing h method) s := by
  refine takes_get (takes_bind_ofExcept fun expected _ => takes_get (takes_unless fun _ => ?_))
  refine Lifetime.takes_bind_resolve fun i _ => takes_get ?_
  have hissued (c : Constness) :
      Takes C (do return Value.object (← Lifetime.issueFor h c)) s :=
    (Lifetime.takes_issueFor h c).map
  have hshown : Takes C (if isSoleAlias s h then do
        setArena (s.arena.setConst h.proxy true)
        return Value.object h
      else return Value.object (← Lifetime.issueFor h .const)) s := by
    split
    · exact (takes_setArena (C.quiet (.flag _ _))).map
    · exact hissued .const
  cases passing with
  | value =>
      dsimp only
      split
      · exact takes_pure _
      · exact (Lifetime.takes_dup hexec h).holding.map
  | ref => exact hissued .nonConst
  | ptr => exact hissued .nonConst
  | constRef => exact hshown
  | constPtr => exact hshown

omit hexec in
theorem takes_converted (type : Ty) (v : Value) : Takes C (give.converted type v) s := by
  refine takes_get ?_
  split
  · exact takes_pure _
  · exact takes_fail _

theorem takes_give (owner method : String) (type : Ty) (passing : Passing) (v : Value) :
    Takes C (give exec owner method type passing v) s := by
  induction type generalizing v s with
  | any => exact takes_pure v
  | object cls =>
      unfold give
      split
      · exact takes_giveObject hexec cls passing _ method
      · split
        · exact takes_pure _
        · exact takes_fail _
      · exact takes_converted (.object cls) _
  | list item ih =>
      unfold give
      split
      · exact (takes_mapHeld (fun u t => ih u) _).map
      · exact takes_converted (.list item) _
  | _ => exact takes_converted _ v

theorem takes_giveBack (result : Result) (owner method : String) (v : Value) :
    Takes C (giveBack exec result owner method v) s := by
  cases result with
  | none => exact takes_pure _
  | some declared => exact takes_give hexec owner method declared.1 declared.2 v

end Bodies

end Delivery

/-! ## Streams -/

namespace Stream

theorem takes_opened {α : Type} {source : ItemSource} {act : Run α} (hact : ∀ t, Takes C act t) :
    Takes C (opened source act) s := by
  cases source with
  | items failAt => exact hact s
  | counting => exact Takes.within_values (hact _) (fun _ => ⟨rfl, rfl⟩) fun _ => ⟨rfl, rfl⟩

variable (hexec : TakesAll C exec)

include hexec

/-- A block runs for one item after the other. -/
theorem takes_drive (result : Result) (owner method : String) {block : Value → Run (Option Value)}
    (hblock : ∀ item t, Takes C (inHostFrame .host (block item)) t) (stream : Stream) :
    Takes C (drive exec result owner method block stream) s := by
  -- The induction is on the items that are left, as `drive` goes on with the rest of the stream.
  induction hsize : stream.size using Nat.strong_induction_on generalizing stream s with
  | _ n ih =>
      rcases hnext : stream.next? with _ | ⟨item, rest⟩
      · rw [drive_of_none hnext]
        exact takes_pure none
      · rw [drive_of_some hnext]
        have hitem (t : State) : Takes C (do
            let item ← Delivery.giveBack exec result owner method (← ofExcept item)
            inHostFrame .host (block item)) t :=
          takes_bind_ofExcept fun v _ =>
            (Delivery.takes_giveBack hexec result owner method v).bind fun u t' _ _ => hblock u t'
        refine (hitem _).holding.bind fun stopped t _ _ => ?_
        cases stopped with
        | some v => exact takes_pure _
        | none => exact ih rest.size (hsize ▸ size_lt_of_next? hnext) rest rfl

theorem takes_collect (result : Result) (owner method : String) (stream : Stream) :
    Takes C (collect exec result owner method stream) s := by
  induction hsize : stream.size using Nat.strong_induction_on generalizing stream s with
  | _ n ih =>
      rcases hnext : stream.next? with _ | ⟨item, rest⟩
      · rw [collect_of_none hnext]
        exact takes_pure []
      · rw [collect_of_some hnext]
        have hitem (t : State) : Takes C (do
            Delivery.giveBack exec result owner method (← ofExcept item)) t :=
          takes_bind_ofExcept fun v _ => Delivery.takes_giveBack hexec result owner method v
        refine (hitem _).holding.bind fun u t _ _ => ?_
        refine (ih rest.size (hsize ▸ size_lt_of_next? hnext) rest rfl).holding.map

theorem takes_withStream {α : Type} (recv : Handle) (overload : Overload) (method : String)
    (values : List Value) {act : Stream → Run α} (hact : ∀ stream t, Takes C (act stream) t) :
    Takes C (withStream exec recv overload method values act) s := by
  unfold withStream
  split
  · refine (Delivery.takes_prepare hexec _ values).bind fun us t _ _ => ?_
    refine (Lifetime.takes_runNative hexec _ us _).bind fun body u _ _ => ?_
    exact takes_bind_ofExcept fun stream _ => takes_opened (hact stream)
  · refine (Delivery.takes_prepare hexec _ values).bind fun us t _ _ => ?_
    exact takes_fail _

end Stream

/-! ## Construction -/

namespace Construction

variable (hexec : TakesAll C exec)

include hexec

theorem takes_runConstructor (owner : String) (overload : Overload) (values : List Value) :
    Takes C (runConstructor exec owner overload values) s := by
  refine (Delivery.takes_prepare hexec _ values).bind fun us t _ _ => ?_
  split
  · refine (Lifetime.takes_runNative hexec none us _).bind fun body u _ _ => ?_
    exact takes_bind_ofExcept fun state _ => takes_pure _
  · exact takes_fail _

/-- The overrides of the class are looked up at the beginning, before anything is run. -/
theorem takes_constructWith {cls : ClassId} {c : ClassInfo} (hclass : s.classes.descriptor cls = .ok c)
    (args : CallArgs) : Takes C (constructWith exec c args) s := by
  refine .of_from fun hfrom => ?_
  refine takes_get (takes_bind_orFail fun candidates _ => takes_bind_ofExcept fun picked _ => ?_)
  refine (takes_runConstructor hexec _ _ _).holding.bind fun made t _ ht => ?_
  refine (Delivery.takes_settle _ _ _ _).bind fun args' u _ hu => ?_
  refine Lifetime.takes_countConstruction.holding.bind fun _ w _ hw => ?_
  exact (Lifetime.takes_registerAs hfrom (C.trans ht (C.trans hu hw)) hclass id).map

theorem takes_construct (cls : ClassId) (args : CallArgs) :
    Takes C (construct exec cls args) s := by
  refine .of_from fun hfrom => takes_get (takes_bind_ofExcept fun c hc => ?_)
  split
  · refine Lifetime.takes_countConstruction.holding.bind fun _ t _ ht => ?_
    exact (Lifetime.takes_registerAs hfrom ht hc fun _ => rfl).map
  · exact takes_constructWith hexec hc args

end Construction

/-! ## Calls -/

namespace Dispatch

variable (hexec : TakesAll C exec)

include hexec

theorem takes_choose (recv : Handle) (method : String) (args : CallArgs) :
    Takes C (choose exec recv method args) s := by
  refine (Lifetime.takes_materialize hexec recv method).bind fun _ t _ _ => takes_get ?_
  refine takes_bind_orFail fun candidates _ => takes_unless fun _ => takes_unless fun _ => ?_
  exact takes_bind_ofExcept fun picked _ => takes_unless fun _ => takes_pure _

theorem takes_runOverride (recv : Handle) (f : Callable) (params : List Param)
    (values : List Value) : Takes C (runOverride exec recv f params values) s := by
  refine (Delivery.takes_outward params values).bind fun sent t _ _ => ?_
  exact (takes_override hexec recv f sent).holding.look

theorem takes_runBody (recv : Option Handle) (chosen : Selected) (method : String)
    (allowOverride : Bool) : Takes C (runBody exec recv chosen method allowOverride) s := by
  refine (Delivery.takes_prepare hexec _ _).bind fun values t _ _ => ?_
  refine takes_bind_of_reads (reads_overrideFor _ _ _ _) fun override _ => ?_
  split
  · exact takes_runOverride hexec _ _ _ values
  · split
    · refine (Lifetime.takes_runNative hexec recv values _).bind fun body u _ _ => ?_
      exact takes_pure _
    · exact takes_fail _

theorem takes_execute (recv : Option Handle) (chosen : Selected) (method : String) (args : CallArgs)
    (allowOverride : Bool) : Takes C (execute exec recv chosen method args allowOverride) s := by
  refine (takes_runBody hexec recv chosen method allowOverride).holding.bind fun left t _ _ => ?_
  refine (Delivery.takes_settle _ _ _ _).bind fun args' u _ _ => ?_
  refine (Delivery.takes_giveBack hexec _ _ _ _).holding.bind fun value w _ _ => ?_
  exact takes_pure _

theorem takes_invoke (recv : Handle) (method : String) (args : CallArgs) (allowOverride : Bool) :
    Takes C (invoke exec recv method args allowOverride) s := by
  refine (takes_choose hexec recv method args).holding.bind fun chosen t _ _ => ?_
  split
  · refine Takes.bind (Takes.holding ?_) fun items u _ _ => takes_pure _
    exact Stream.takes_withStream hexec recv _ method _ fun stream t' =>
      Stream.takes_collect hexec _ _ _ stream
  · exact takes_execute hexec (some recv) chosen method args allowOverride

theorem takes_call (recv : Handle) (method : String) (args : CallArgs) :
    Takes C (call exec recv method args) s :=
  takes_invoke hexec recv method args true

theorem takes_callBase (recv : Handle) (method : String) (args : CallArgs) :
    Takes C (callBase exec recv method args) s :=
  takes_invoke hexec recv method args false

theorem takes_callStatic (cls : ClassId) (method : String) (args : CallArgs) :
    Takes C (callStatic exec cls method args) s :=
  takes_bind_of_reads (reads_chooseStatic cls method args) fun chosen _ =>
    takes_execute hexec none chosen method args false

theorem takes_each (recv : Handle) (method : String) (args : CallArgs)
    {block : Value → Run (Option Value)}
    (hblock : ∀ item t, Takes C (inHostFrame .host (block item)) t) :
    Takes C (each exec recv method args block) s := by
  refine Takes.holding ((takes_choose hexec recv method args).bind fun chosen t _ _ => ?_)
  refine Takes.bind ?_ fun stopped u _ _ => takes_pure _
  exact Stream.takes_withStream hexec recv _ method _ fun stream t' =>
    Stream.takes_drive hexec _ _ _ hblock stream

end Dispatch

/-! ## Events -/

namespace Event

variable (hexec : TakesAll C exec)

include hexec

omit hexec in
theorem reads_declaration (h : Handle) (event : String) : Reads (declaration h event) :=
  reads_get.bind fun _ => reads_orFail _ _

theorem takes_modifyHandlers {h : Handle} {event operation : String} {f : Handlers → Handlers}
    (hallowed : C.Allows h.target event f) : Takes C (modifyHandlers exec h event operation f) s := by
  refine (Lifetime.takes_materialize hexec h operation).bind fun _ t _ _ => ?_
  refine takes_bind_of_reads (reads_declaration h event) fun _ _ => ?_
  refine Lifetime.takes_bind_resolve fun i hi => takes_get ?_
  exact (takes_setArena (C.edit hi hallowed)).map

theorem takes_runHandlers (h : Handle) (values : List Value) (handlers : Handlers) :
    Takes C (runHandlers exec h values handlers) s := by
  induction handlers generalizing s with
  | nil => exact takes_pure _
  | cons f rest ih => exact (takes_handler hexec h f values).holding.bind fun _ _ _ _ => ih

theorem takes_trigger (h : Handle) (event : String) (args : List Value) :
    Takes C (trigger exec h event args) s := by
  refine (Lifetime.takes_materialize hexec h event).holding.bind fun _ t _ _ => ?_
  refine takes_bind_of_reads (reads_declaration h event) fun info _ => takes_unless fun _ => ?_
  refine takes_get (takes_bind_ofExcept fun values _ => ?_)
  refine Lifetime.takes_bind_resolve fun i _ => ?_
  exact (takes_runHandlers hexec h values _).holding

end Event

end ObjectBridge
