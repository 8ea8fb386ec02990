import ObjectBridge.Proofs.Arena.Staying
import ObjectBridge.Proofs.Call.Deferral

/-!
# Operations that use an object

An operation that needs the native state of an object asks for it.  So if it ends with a result, the object was asked for
its native state in the history that the operation adds to.

* `Run.Asks` — a run that asks an object for its native state, unless it fails.
* `Asks.bind` and `asks_bind` — a run asks if one of its parts does.
* `UsesObject` — the operations that ask.
* `AllocatesOnce` — what becomes of native states.
-/

namespace ObjectBridge

namespace Run

/-- Any change of handlers. -/
def AnyChange : Reference → String → Handlers.Change → Prop :=
  fun _ _ _ => True

variable {α β : Type} {act : Run α} {f : α → Run β} {h : Handle} {s t : State}

/-- What a run does is a history. -/
theorem Takes.exists_uses {result : Except Fault α} (hact : Takes (.performing AnyChange) act s)
    (hrun : act.outcome s = (result, t)) : ∃ us, s.arena.Uses us t.arena := by
  have hperforms := hact.performs
  rw [Performs, hrun] at hperforms
  obtain ⟨ds, -, hdoes⟩ := hperforms
  exact hdoes.path.exists_uses

/-- A run that ends with a result has asked an object for its native state. -/
def Asks (h : Handle) (act : Run α) (s : State) : Prop :=
  ∀ x t, act.outcome s = (.ok x, t) → ∃ us, s.arena.Uses us t.arena ∧ .ask h.target ∈ us

/-- A run asks if its first part asks. -/
theorem Asks.bind (hact : Asks h act s)
    (hf : ∀ x t, act.outcome s = (.ok x, t) → Takes (.performing AnyChange) (f x) t) : Asks h (act >>= f) s := by
  intro y t hrun
  obtain ⟨x, u, hx, hy⟩ := exists_of_outcome_bind hrun
  obtain ⟨us, hus, hmem⟩ := hact x u hx
  obtain ⟨vs, hvs⟩ := (hf x u hx).exists_uses hy
  exact ⟨us ++ vs, hus.trans hvs, List.mem_append_left vs hmem⟩

/-- A run asks if its last part asks. -/
theorem asks_bind (hact : Takes (.performing AnyChange) act s)
    (hf : ∀ x t, act.outcome s = (.ok x, t) → Asks h (f x) t) : Asks h (act >>= f) s := by
  intro y t hrun
  obtain ⟨x, u, hx, hy⟩ := exists_of_outcome_bind hrun
  obtain ⟨us, hus⟩ := hact.exists_uses hx
  obtain ⟨vs, hvs, hmem⟩ := hf x u hx y t hy
  exact ⟨us ++ vs, hus.trans hvs, List.mem_append_right us hmem⟩

theorem asks_get {f : State → Run β} (hf : Asks h (f s) s) : Asks h (get >>= f) s := hf

/-- A run that goes on unless it fails at once. -/
theorem asks_unless {c : Prop} [Decidable c] {e : Error} {f : PUnit → Run β} (hf : Asks h (f ⟨⟩) s) :
    Asks h (if c then fail e >>= f else f ⟨⟩) s :=
  fun x t hrun => hf x t (outcome_of_unless hrun).2

theorem Asks.holding {values : List Value} (hact : Asks h act (withHeld s values)) : Asks h (holding values act) s := by
  intro x t hrun
  obtain ⟨u, hu, rfl⟩ := exists_of_outcome_holding hrun
  exact hact x u hu

end Run

open Run

variable {exec : Exec} {s t : State} {h : Handle}

/-- The operations that need the native state of an object ask for it. -/
structure UsesObject (exec : Exec) (h : Handle) (s : State) : Prop where
  invoke : ∀ method args allowOverride, Asks h (Dispatch.invoke exec h method args allowOverride) s
  each : ∀ method args (block : Value → Run (Option Value)),
    (∀ item t, Performs AnyChange (inHostFrame .host (block item)) t) →
    Asks h (Dispatch.each exec h method args block) s
  /-- Handlers are connected or taken away. -/
  handlers : ∀ event operation f c, Event.Makes f c → Asks h (Event.modifyHandlers exec h event operation f) s
  trigger : ∀ event args, Asks h (Event.trigger exec h event args) s
  dup : Asks h (Lifetime.dup exec h) s
  assignTo : ∀ source, Asks h (Lifetime.assign exec h source) s
  assignFrom : ∀ target, Asks h (Lifetime.assign exec target h) s
  equalsLeft : ∀ right, Asks h (Lifetime.equals exec h right) s
  equalsRight : ∀ left, Asks h (Lifetime.equals exec left h) s
  native : ∀ type, Asks h (Lifetime.native exec h type) s
  modifyNative : ∀ type f, Asks h (Lifetime.modifyNative exec h type f) s

/-- What becomes of native states, at any moment. -/
structure AllocatesOnce (exec : Exec) (s : State) : Prop where
  /-- An object whose construction is deferred is stored without a native state. -/
  deferred : ∀ cls h args t, (s.classes.findLazy cls).isSome = true →
    (Construction.construct exec cls {}).outcome s = (.ok (h, args), t) →
    ∃ us, s.arena.Uses (us ++ [.store h.target false]) t.arena
  /-- It is asked for the native state whenever it is used. -/
  uses : ∀ h, UsesObject exec h s
  /-- An object that was asked is not constructed a second time, as long as it is there: whatever bodies do, there is
  nothing left to be done. -/
  once : ∀ h operation t, (Lifetime.materialize exec h operation).outcome s = (.ok (), t) →
    ∀ u : State, t.arena.Path u.arena →
      (u.arena.slotAt h.target.slot).removals = (t.arena.slotAt h.target.slot).removals →
      ∀ exec' operation', (Lifetime.materialize exec' h operation').outcome u = (.ok (), u)

variable (hexec : TakesAll (.performing AnyChange) exec)

include hexec

namespace Lifetime

/-- To get the native state of an object is to ask for it, and it is the last thing that is done. -/
theorem exists_uses_of_materialize {operation : String} (hrun : (materialize exec h operation).outcome s = (.ok (), t)) :
    ∃ us, s.arena.Uses (us ++ [.ask h.target]) t.arena := by
  obtain ⟨i, hi, ⟨hmade, rfl⟩ | ⟨code, body, u, state, a, -, hbody, hmat, rfl⟩⟩ := materialize_cases hrun
  · -- Nothing is left to be done where the native state is there already.
    obtain ⟨state, -⟩ := Option.isSome_iff_exists.mp hmade
    refine ⟨[], .ask (.refl _) h.target state ?_⟩
    rw [Arena.materialize, hi]
    exact if_pos hmade
  · obtain ⟨us, hus⟩ := (takes_runNative hexec none [] code).exists_uses hbody
    exact ⟨us, hus.ask h.target state hmat⟩

theorem asks_materialize (h : Handle) (operation : String) (s : State) : Asks h (materialize exec h operation) s := by
  intro _ t hrun
  obtain ⟨us, hus⟩ := exists_uses_of_materialize hexec hrun
  exact ⟨_, hus, List.mem_append_right us List.mem_cons_self⟩

theorem asks_dup (h : Handle) : Asks h (dup exec h) s := by
  refine (asks_materialize hexec h "dup" s).bind fun _ t _ => ?_
  refine takes_bind_resolve fun i hi => takes_bind_orFail fun state _ => ?_
  refine takes_get (takes_bind_ofExcept fun c hc => ?_)
  exact takes_register fun k a hreg => Course.copy _ hi hc rfl hreg

theorem asks_assign_target (target source : Handle) : Asks target (assign exec target source) s := by
  refine asks_get (asks_unless ?_)
  refine (asks_materialize hexec target "assign" s).bind fun _ t _ => ?_
  exact (takes_materialize hexec source "assign").bind fun _ u _ _ =>
    takes_get (takes_assignState target source)

theorem asks_assign_source (target source : Handle) : Asks source (assign exec target source) s := by
  refine asks_get (asks_unless (asks_bind (takes_materialize hexec target "assign") fun _ t _ => ?_))
  exact (asks_materialize hexec source "assign" t).bind fun _ u _ =>
    takes_get (takes_assignState target source)

theorem asks_equals_left (left right : Handle) : Asks left (equals exec left right) s := by
  refine (asks_materialize hexec left "==" s).bind fun _ t _ => ?_
  refine (takes_materialize hexec right "==").bind fun _ u _ _ => ?_
  exact takes_bind_resolve fun i _ => takes_bind_resolve fun j _ => takes_get (takes_pure _)

theorem asks_equals_right (left right : Handle) : Asks right (equals exec left right) s := by
  -- The constructor of the left object runs first, and may do anything.
  refine asks_bind (takes_materialize hexec left "==") fun _ t _ => ?_
  refine (asks_materialize hexec right "==" t).bind fun _ u _ => ?_
  exact takes_bind_resolve fun i _ => takes_bind_resolve fun j _ => takes_get (takes_pure _)

theorem asks_typedState (h : Handle) (type operation : String) (s : State) :
    Asks h (typedState exec h type operation) s := by
  refine (asks_materialize hexec h operation s).bind fun _ t _ => ?_
  exact takes_bind_resolve fun i _ => takes_of_reads (reads_orFail _ _)

theorem asks_modifyNative (h : Handle) (type : String) (f : NativeState → NativeState) :
    Asks h (modifyNative exec h type f) s := by
  refine asks_get (asks_unless ?_)
  refine (asks_typedState hexec h type "native_mut" s).bind fun state t hstate => takes_get ?_
  obtain ⟨i, hi, hnative⟩ := exists_native_of_typedState hstate
  exact takes_setArena (Course.quiet _ (.native h.target (f state) i hi
    (Option.isSome_iff_exists.mpr ⟨_, hnative⟩)))

end Lifetime

namespace Dispatch

theorem asks_choose (recv : Handle) (method : String) (args : CallArgs) (s : State) :
    Asks recv (choose exec recv method args) s := by
  refine (Lifetime.asks_materialize hexec recv method s).bind fun _ t _ => takes_get ?_
  refine takes_bind_orFail fun candidates _ => takes_unless fun _ => takes_unless fun _ => ?_
  exact takes_bind_ofExcept fun picked _ => takes_unless fun _ => takes_pure _

theorem asks_invoke (recv : Handle) (method : String) (args : CallArgs) (allowOverride : Bool) :
    Asks recv (invoke exec recv method args allowOverride) s := by
  refine (asks_choose hexec recv method args _).holding.bind fun chosen t _ => ?_
  split
  · refine Takes.bind (Takes.holding ?_) fun items u _ _ => takes_pure _
    exact Stream.takes_withStream hexec recv _ method _ fun stream t' =>
      Stream.takes_collect hexec _ _ _ stream
  · exact takes_execute hexec (some recv) chosen method args allowOverride

theorem asks_each (recv : Handle) (method : String) (args : CallArgs) {block : Value → Run (Option Value)}
    (hblock : ∀ item t, Takes (.performing AnyChange) (inHostFrame .host (block item)) t) :
    Asks recv (each exec recv method args block) s := by
  refine Asks.holding ((asks_choose hexec recv method args _).bind fun chosen t _ => ?_)
  refine Takes.bind ?_ fun stopped u _ _ => takes_pure _
  exact Stream.takes_withStream hexec recv _ method _ fun stream t' =>
    Stream.takes_drive hexec _ _ _ hblock stream

end Dispatch

namespace Event

theorem asks_modifyHandlers {event operation : String} {f : Handlers → Handlers} {c : Option Handlers.Change}
    (hf : Makes f c) : Asks h (modifyHandlers exec h event operation f) s := by
  refine (Lifetime.asks_materialize hexec h operation s).bind fun _ t _ => ?_
  refine takes_bind_of_reads (reads_declaration h event) fun info _ => ?_
  refine Lifetime.takes_bind_resolve fun i hi => takes_get ?_
  have hallowed : (Course.performing AnyChange).Allows h.target event f := ⟨c, hf, fun _ _ => True.intro⟩
  exact (takes_setArena (Course.edit _ hi hallowed)).map

theorem asks_trigger (event : String) (args : List Value) : Asks h (trigger exec h event args) s := by
  refine (Lifetime.asks_materialize hexec h event _).holding.bind fun _ t _ => ?_
  refine takes_bind_of_reads (reads_declaration h event) fun info _ => takes_unless fun _ => ?_
  refine takes_get (takes_bind_ofExcept fun values _ => ?_)
  refine Lifetime.takes_bind_resolve fun i _ => ?_
  exact (takes_runHandlers hexec h values _).holding

end Event

theorem usesObject (h : Handle) (s : State) : UsesObject exec h s where
  invoke method args allowOverride := Dispatch.asks_invoke hexec h method args allowOverride
  each method args _ hblock := Dispatch.asks_each hexec h method args fun item t => (hblock item t).takes
  handlers _ _ _ _ hf := Event.asks_modifyHandlers hexec hf
  trigger event args := Event.asks_trigger hexec event args
  dup := Lifetime.asks_dup hexec h
  assignTo source := Lifetime.asks_assign_target hexec h source
  assignFrom target := Lifetime.asks_assign_source hexec target h
  equalsLeft right := Lifetime.asks_equals_left hexec h right
  equalsRight left := Lifetime.asks_equals_right hexec left h
  native type := Lifetime.asks_typedState hexec h type "native" s
  modifyNative type f := Lifetime.asks_modifyNative hexec h type f

omit hexec in
/-- An object is stored once its construction is counted. -/
theorem Construction.exists_uses_of_registerNew {c : ClassInfo} {native : Option NativeState} {args : CallArgs}
    (hrun : (registerNew c native).outcome s = (.ok (h, args), t)) :
    ∃ us, s.arena.Uses (us ++ [.store h.target native.isSome]) t.arena := by
  rw [registerNew, outcome_get_bind] at hrun
  obtain ⟨_, u, hcount, hrun⟩ := exists_of_outcome_bind hrun
  obtain ⟨us, hus⟩ := (Takes.holding Lifetime.takes_countConstruction).exists_uses hcount
  obtain ⟨k, v, hregister, hrun⟩ := exists_of_outcome_bind hrun
  obtain ⟨hsame, rfl⟩ := eq_of_outcome_pure hrun
  obtain ⟨rfl, -⟩ := Prod.mk.inj hsame
  rw [Lifetime.registerAs, Lifetime.register, outcome_get_bind] at hregister
  obtain ⟨⟨k', a⟩, w, hok, hset⟩ := exists_of_outcome_bind hregister
  obtain ⟨hreg, rfl⟩ := eq_of_outcome_ofExcept hok
  obtain ⟨_, x, hset, hrest⟩ := exists_of_outcome_bind hset
  obtain ⟨rfl, rfl⟩ := eq_of_outcome_pure hrest
  obtain rfl := (Prod.mk.inj hset).2
  exact ⟨us, hus.store _ _ hreg⟩

/-- Native states, where the classes stand under their numbers and the numbers of the arena agree with its slots. -/
theorem allocatesOnce (hnum : s.classes.Numbered) (hbal : s.arena.Balanced) : AllocatesOnce exec s where
  deferred cls h args t hlazy hrun := by
    obtain ⟨l, hl⟩ := Option.isSome_iff_exists.mp hlazy
    obtain ⟨c, hc⟩ : ∃ c, s.classes.descriptor cls = .ok c := by
      have hstart := hrun
      rw [Construction.construct, outcome_get_bind] at hstart
      obtain ⟨c, u, hc, -⟩ := exists_of_outcome_bind hstart
      exact ⟨c, (eq_of_outcome_ofExcept hc).1⟩
    have hid := hnum.id_eq (ClassTable.descriptor_eq_ok_iff.mp hc)
    rw [Construction.outcome_construct_deferred hc hid hl] at hrun
    exact Construction.exists_uses_of_registerNew hrun
  uses h := usesObject hexec h s
  once h operation t hrun u hpath hsame exec' operation' := by
    obtain ⟨us, hus⟩ := Lifetime.exists_uses_of_materialize hexec hrun
    obtain ⟨i, hi, hmade⟩ := hpath.made (hbal.path hus.path) (Lifetime.made_of_materialize hrun) hsame
    exact Lifetime.outcome_materialize hi hmade operation'

end ObjectBridge
