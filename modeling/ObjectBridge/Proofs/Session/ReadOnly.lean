import ObjectBridge.Proofs.Call.Overriding
import ObjectBridge.Proofs.Call.ReadOnly
import ObjectBridge.Proofs.Call.Triggered
import ObjectBridge.Proofs.Session.Protected

/-!
# Const handles

Nothing is changed through a const handle.  A call through it selects among the const overloads alone, and the body
gets the very handle; an object that the body may change is never passed by a const handle.

* `Dispatch.ReadsOnly` — what a call through a const handle may do.
* `Lifetime.Unchanging` — what a const handle refuses at any moment.
* `Dispatch.const_handles_change_nothing` — calls through a const handle on an object that has its native state.
-/

namespace ObjectBridge

open Run

variable {s t u : State} {exec : Exec} {h : Handle} {method : String} {args : CallArgs} {i : Instance}

namespace Lifetime

/-- The object of a handle is not changed through the handle. -/
structure Unchanging (exec : Exec) (s : State) (h : Handle) : Prop where
  modifyNative : ∀ type f, (modifyNative exec h type f).outcome s =
    (.error (.raised (.constViolation h.className "native_mut")), s)
  assign : ∀ source, (assign exec h source).outcome s =
    (.error (.raised (.constViolation h.className "assign")), s)

theorem unchanging_of_isConst (hconst : s.isConst h = true) : Unchanging exec s h where
  modifyNative type f := by
    rw [modifyNative, outcome_get_bind, if_pos hconst]
    rfl
  assign source := by
    rw [assign, outcome_get_bind, if_pos hconst]
    rfl

end Lifetime

/-! ## Objects that a body may change -/

/-- No parameter through which a body may change an object has a const handle. -/
def PassesMutable (w : World) (passed : List (Param × Value)) : Prop :=
  ∀ p g, (p, .object g) ∈ passed → p.type.isObject = true → p.passing.writesBack = true → w.isConst g = false

theorem passesMutable_of_accepts {w : World} {params : List Param} {values : List Value}
    (haccepts : List.Forall₂ (Conversion.Accepts w) params values) : PassesMutable w (params.zip values) := by
  intro p g hg hobject haliases
  obtain ⟨raw, cost, hconv⟩ := (List.forall₂_iff_zip.mp haccepts).2 hg
  obtain ⟨cls, htype⟩ := Ty.eq_object_of_isObject hobject
  rw [htype] at hconv
  rcases Conversion.object_of_convert hconv with ⟨-, hnil⟩ | ⟨k, hk, -, -, hmutable⟩
  · cases hnil
  · cases hk
    exact hmutable haliases

theorem passesMutable_of_bind {w : World} {params : List Param} {b : Bound}
    (hbind : args.bind w params = .bound b) : PassesMutable w (params.zip b.values) := by
  obtain ⟨hsources, htakes⟩ := CallArgs.forall₂_of_bind hbind
  refine passesMutable_of_accepts ?_
  rw [← List.map_fst_zip (CallArgs.length_of_findSources hsources).ge, List.forall₂_map_left_iff]
  exact htakes.imp fun bound v hv => hv.accepts

theorem passesMutable_of_convertArgs {w : World} {cls event : String} {position : Nat} {params : List Param}
    {given values : List Value} (hlength : given.length = params.length)
    (hconv : Event.convertArgs w cls event position (params.zip given) = .ok values) :
    PassesMutable w (params.zip values) := by
  refine passesMutable_of_accepts ?_
  rw [← List.map_fst_zip hlength.ge, List.forall₂_map_left_iff]
  exact (Event.forall₂_of_convertArgs hconv).imp fun e u hu => ⟨e.2, hu.1⟩

namespace Dispatch

/-- Nothing has to run while the arguments are copied for the overload that a call resolves to. -/
def CopiesQuietly (s : State) (h : Handle) (method : String) (args : CallArgs) : Prop :=
  ∀ chosen, Resolves s h method args chosen →
    ((Delivery.prepare noBody chosen.overload.sig.params chosen.binding.values).outcome
      (withHeld s args.values)).1 ≠ .error .exhausted

/-- A call through a handle is about const overloads alone, and leaves no body a way to change the object through the
handle. -/
structure ReadsOnly (exec : Exec) (s : State) (h : Handle) (method : String) (args : CallArgs) : Prop where
  /-- Where no overload is const there is nothing to call. As the state stays as it is, another attempt fails too. -/
  refused : ∀ owner overloads, s.classes.findMethod h.cls method = some ⟨owner, overloads⟩ →
    (∃ o ∈ overloads, o.sig.isStatic = false) →
    (∀ o ∈ overloads, o.sig.isStatic = false → o.sig.isConst = false) →
    Fails exec s h method args (.raised (.constViolation owner method)) s
  /-- A call fails for what is wrong with the const overloads, whatever the others are. -/
  diagnosed : ∀ owner overloads e, s.classes.findMethod h.cls method = some ⟨owner, overloads⟩ →
    constOverloads overloads ≠ [] →
    Selection.Selects s.toWorld owner method ((constOverloads overloads).map Overload.sig) args (.error e) →
    Fails exec s h method args (.raised e) s
  /-- The overload that is selected is the one that is selected among the const ones. -/
  selected : ∀ chosen t, (holding args.values (choose exec h method args)).outcome s = (.ok chosen, t) →
    t = s ∧ chosen.overload.sig.isConst = true ∧
      ∃ overloads, s.classes.findMethod h.cls method = some ⟨chosen.owner, overloads⟩ ∧
        Selection.Selects s.toWorld chosen.owner method ((constOverloads overloads).map Overload.sig) args
          (.ok chosen.binding) ∧
        (constOverloads overloads)[chosen.binding.index]? = some chosen.overload
  /-- A body or an override starts with the handle as its receiver, which is const then. -/
  call : (call (readOnly h exec) h method args).outcome s = (call exec h method args).outcome s
  callBase : (callBase (readOnly h exec) h method args).outcome s = (callBase exec h method args).outcome s
  /-- So does an enumerable body. -/
  each : ∀ block, (each (readOnly h exec) h method args block).outcome s = (each exec h method args block).outcome s
  /-- When the arguments have been passed, the handle refuses changes, and no argument is a const handle for an object
  that the body may change. -/
  passed : ∀ chosen s₀ values u, Ready exec s h method args chosen s₀ values u →
    u.isConst h = true ∧ Lifetime.Unchanging exec u h ∧
      PassesMutable u.toWorld (chosen.overload.sig.params.zip values)

/-! ## Selection -/

section Made

variable (hi : s.arena.get? h.target = some i) (hmade : i.isMaterialized = true) (hconst : s.isConst h = true)

include hi hmade hconst

/-- What a call through a const handle resolves to, or why it fails, depends on the const overloads. -/
theorem outcome_choose_of_isConst {owner : String} {overloads : List Overload}
    (hfind : s.classes.findMethod h.cls method = some ⟨owner, overloads⟩)
    (hsome : ∃ o ∈ overloads, o.sig.isStatic = false) :
    (choose exec h method args).outcome s =
      if constOverloads overloads = [] then (.error (.raised (.constViolation owner method)), s)
      else
        match Selection.pick s.toWorld owner method (constOverloads overloads) args with
        | .error e => (.error (.raised e), s)
        | .ok (overload, binding) =>
            if overload.sig.isProtected && !mayAccess s h then
              (.error (.raised (.protectedAccess owner method)), s)
            else (.ok ⟨owner, overload, binding⟩, s) := by
  have hbound : ¬(overloads.filter fun o => !o.sig.isStatic).isEmpty = true := by
    obtain ⟨o, ho, hstatic⟩ := hsome
    rw [List.isEmpty_iff]
    exact List.ne_nil_of_mem (List.mem_filter.mpr ⟨ho, by simp [hstatic]⟩)
  -- Through a const handle the const overloads are all that is eligible.
  have hallowed := eligible_of_isConst hconst overloads
  unfold eligible at hallowed
  rw [choose, outcome_bind_of_ok (Lifetime.outcome_materialize hi hmade method), outcome_get_bind, hfind]
  simp only [Run.orFail, pure_bind, if_neg hbound]
  rw [hallowed]
  by_cases hempty : constOverloads overloads = []
  · simp only [hempty, List.isEmpty_nil, if_true]
    rfl
  · rw [if_neg hempty, if_neg (by simpa [List.isEmpty_iff] using hempty)]
    cases Selection.pick s.toWorld owner method (constOverloads overloads) args with
    | error e => rfl
    | ok picked =>
        simp only [Run.ofExcept, pure_bind]
        split <;> rfl

/-- The overload that a call through a const handle selects is picked from the const ones, and nothing changes. -/
theorem pick_of_outcome_choose {chosen : Selected}
    (hrun : (choose exec h method args).outcome s = (.ok chosen, t)) :
    t = s ∧ ∃ overloads, s.classes.findMethod h.cls method = some ⟨chosen.owner, overloads⟩ ∧
      Selection.pick s.toWorld chosen.owner method (constOverloads overloads) args =
        .ok (chosen.overload, chosen.binding) := by
  obtain ⟨hmat, ⟨overloads, hfind, hpick⟩, -⟩ := resolves_of_outcome_choose hrun
  obtain rfl : t = s := (Prod.mk.inj (hmat.symm.trans (Lifetime.outcome_materialize hi hmade method))).2
  rw [eligible_of_isConst hconst] at hpick
  exact ⟨rfl, overloads, hfind, hpick⟩

theorem pick_of_outcome_holding_choose {chosen : Selected}
    (hrun : (holding args.values (choose exec h method args)).outcome s = (.ok chosen, t)) :
    t = s ∧ ∃ overloads, s.classes.findMethod h.cls method = some ⟨chosen.owner, overloads⟩ ∧
      Selection.pick s.toWorld chosen.owner method (constOverloads overloads) args =
        .ok (chosen.overload, chosen.binding) := by
  obtain ⟨v, hinner, rfl⟩ := exists_of_outcome_holding hrun
  obtain ⟨rfl, hpicked⟩ := pick_of_outcome_choose (s := withHeld s args.values) hi hmade hconst hinner
  exact ⟨rfl, hpicked⟩

omit hi hmade hconst in
theorem fails_of_outcome_choose {e : Error}
    (hrun : (choose exec h method args).outcome (withHeld s args.values) =
      (.error (.raised e), withHeld s args.values)) : Fails exec s h method args (.raised e) s :=
  fails_of_choose (outcome_holding_of_raised hrun)

/-- Nothing has to run while the arguments are copied for the overload that is selected. -/
theorem quiet_of_outcome_choose (hquiet : CopiesQuietly s h method args) {chosen : Selected}
    (hrun : (holding args.values (choose exec h method args)).outcome s = (.ok chosen, t)) :
    ((Delivery.prepare noBody chosen.overload.sig.params chosen.binding.values).outcome
      (withHeld s args.values)).1 ≠ .error .exhausted := by
  obtain ⟨-, overloads, hfind, hpick⟩ := pick_of_outcome_holding_choose hi hmade hconst hrun
  refine hquiet chosen ⟨overloads, hfind, ?_⟩
  rwa [eligible_of_isConst hconst]

theorem outcome_invoke_readOnly (hquiet : CopiesQuietly s h method args) (allowOverride : Bool) :
    (invoke (readOnly h exec) h method args allowOverride).outcome s =
      (invoke exec h method args allowOverride).outcome s := by
  unfold invoke
  rw [choose_readOnly]
  refine outcome_bind_congr rfl fun chosen t hrun => ?_
  have hcopies := quiet_of_outcome_choose hi hmade hconst hquiet hrun
  obtain ⟨rfl, -⟩ := pick_of_outcome_holding_choose hi hmade hconst hrun
  split
  · rw [Stream.collect_readOnly]
    refine outcome_bind_congr (outcome_within_congr ?_) fun _ _ _ => rfl
    exact Stream.outcome_withStream_readOnly (s := withHeld t args.values) hconst hcopies _
  · exact outcome_execute_readOnly hconst hcopies allowOverride

theorem outcome_each_readOnly (hquiet : CopiesQuietly s h method args) (block : Value → Run (Option Value)) :
    (each (readOnly h exec) h method args block).outcome s = (each exec h method args block).outcome s := by
  unfold each
  rw [choose_readOnly]
  refine outcome_within_congr (outcome_bind_congr rfl fun chosen t hrun => ?_)
  have hcopies := quiet_of_outcome_choose hi hmade hconst hquiet (outcome_holding_of_ok hrun)
  obtain ⟨rfl, -⟩ := pick_of_outcome_choose (s := withHeld s args.values) hi hmade hconst hrun
  rw [Stream.drive_readOnly]
  refine outcome_bind_congr ?_ fun _ _ _ => rfl
  exact Stream.outcome_withStream_readOnly (s := withHeld s args.values) hconst hcopies _

/-- A call through a const handle on an object that has its native state selects a const overload and runs it for the
handle while that is const, or it fails. -/
theorem readsOnly_of_isConst (hquiet : CopiesQuietly s h method args) : ReadsOnly exec s h method args where
  refused owner overloads hfind hsome hnone := by
    have hempty : constOverloads overloads = [] := by
      refine List.filter_eq_nil_iff.mpr fun o ho => ?_
      cases hstatic : o.sig.isStatic with
      | true => simp
      | false => simp [hnone o ho hstatic]
    refine fails_of_outcome_choose ?_
    rw [outcome_choose_of_isConst (s := withHeld s args.values) hi hmade hconst hfind hsome, if_pos hempty]
  diagnosed owner overloads e hfind hsome hselects := by
    have hpick : Selection.pick s.toWorld owner method (constOverloads overloads) args = .error e := by
      rw [Selection.pick, (Selection.select_eq_iff ..).mpr hselects]
      rfl
    obtain ⟨o, ho⟩ := List.exists_mem_of_ne_nil _ hsome
    obtain ⟨hmem, hboth⟩ := List.mem_filter.mp ho
    rw [Bool.and_eq_true, Bool.not_eq_true'] at hboth
    refine fails_of_outcome_choose ?_
    rw [outcome_choose_of_isConst (s := withHeld s args.values) hi hmade hconst hfind ⟨o, hmem, hboth.1⟩,
      if_neg hsome]
    erw [hpick]
  selected chosen t hrun := by
    obtain ⟨ht, overloads, hfind, hpick⟩ := pick_of_outcome_holding_choose hi hmade hconst hrun
    obtain ⟨hmem, -⟩ := Selection.exists_of_pick hpick
    obtain ⟨binding, hselect, hpicked⟩ := bind_eq_ok_iff.mp hpick
    split at hpicked
    · rename_i o hfound
      obtain ⟨rfl, rfl⟩ := Prod.mk.inj (Except.ok.inj hpicked)
      have hboth := (List.mem_filter.mp hmem).2
      rw [Bool.and_eq_true] at hboth
      exact ⟨ht, hboth.2, overloads, hfind, (Selection.select_eq_iff ..).mp hselect, hfound⟩
    · cases hpicked
  call := outcome_invoke_readOnly hi hmade hconst hquiet true
  callBase := outcome_invoke_readOnly hi hmade hconst hquiet false
  each := outcome_each_readOnly hi hmade hconst hquiet
  passed chosen s₀ values u hready := by
    have hcopies := quiet_of_outcome_choose hi hmade hconst hquiet hready.choose
    obtain ⟨rfl, overloads, hfind, hpick⟩ :=
      pick_of_outcome_holding_choose hi hmade hconst hready.choose
    have hsame (g : Handle) : u.isConst g = s₀.isConst g := by
      rw [World.isConst, Arena.isConst, Delivery.constProxies_of_prepare hcopies hready.prepare]
      rfl
    refine ⟨(hsame h).trans hconst, Lifetime.unchanging_of_isConst ((hsame h).trans hconst), ?_⟩
    intro p g hg hobject haliases
    have hbound := passesMutable_of_accepts (Selection.accepts_of_pick hpick)
    exact (hsame g).trans (hbound p g (Delivery.eq_of_prepare hready.prepare hg haliases) hobject haliases)

end Made

/-- Const handles change nothing. A call, a call of the native body or an iteration through a const handle on an object
that has its native state selects among the const overloads and runs a body for the very handle, which is const when
the body starts, so that the body cannot change the object through it; if there is no const overload the call fails
however often it is made. No binding of arguments, be it for a call or for an event, passes a const handle for an object
that may be changed. -/
theorem const_handles_change_nothing (hi : s.arena.get? h.target = some i) (hmade : i.isMaterialized = true)
    (hconst : s.isConst h = true) (hquiet : CopiesQuietly s h method args) (exec : Exec) :
    ReadsOnly exec s h method args ∧
      (∀ (w : World) (given : CallArgs) params b, given.bind w params = .bound b →
        PassesMutable w (params.zip b.values)) ∧
      ∀ (w : World) cls event position (params : List Param) given values, given.length = params.length →
        Event.convertArgs w cls event position (params.zip given) = .ok values →
        PassesMutable w (params.zip values) :=
  ⟨readsOnly_of_isConst hi hmade hconst hquiet, fun _ _ _ _ hbind => passesMutable_of_bind hbind,
    fun _ _ _ _ _ _ _ hlength hconv => passesMutable_of_convertArgs hlength hconv⟩

end Dispatch

namespace Session

/-! ## A session with a const handle -/

/-- A class with a method `look` that has a const overload behind another one, and a method `touch` that has none. -/
def viewedClass : Script.ClassSpec Script.Expr Script.Stmt := {
  name := "Node"
  shape := .script
  members := [
    .method "look" { result := some (.bool, .value) } [.ret (.lit (.bool false))],
    .method "look" { result := some (.bool, .value), isConst := true } [.ret (.lit (.bool true))],
    .method "touch" {} []] }

/-- A session that registers the class and keeps an object of it in a variable `x`. -/
@[irreducible]
def viewedRun : Except Fault Value × State :=
  andThen (start {} []) 6 (.list [
    .perform (.defineClass viewedClass) none,
    .perform (.create (.named "Node") .script (.map []) false) (some "x")])

theorem between_viewedRun : Between viewedRun.2 := by
  unfold viewedRun
  exact (Between.start {} []).andThen (by decide +kernel)

/-- A const view of the object in the variable `x` of the session. -/
def viewedObject : Handle := ⟨⟨0, ⟨0, ⟨0, 0⟩⟩, 0, "Node"⟩, true⟩

/-- Methods are called through the const view. -/
theorem viewed_unchanged :
    Reachable viewedRun.2 ∧ Dispatch.ReadsOnly (Script.interpreter 6).exec viewedRun.2 viewedObject "look" {} := by
  obtain ⟨i, hi, hmade, -⟩ : ∃ i, viewedRun.2.arena.get? viewedObject.target = some i ∧
      i.isMaterialized = true ∧ i.cls = 0 := exists_instance (by decide +kernel)
  refine ⟨.between between_viewedRun,
    (Dispatch.const_handles_change_nothing hi hmade (by decide +kernel) ?_ _).1⟩
  -- No overload has a parameter, so nothing is copied.
  have hall : ((viewedRun.2.classes.findMethod 0 "look").map fun candidates =>
      candidates.overloads.all fun o => o.sig.params.isEmpty) = some true := by
    decide +kernel
  obtain ⟨⟨owner, overloads⟩, hfind, hempty⟩ := Option.map_eq_some_iff.mp hall
  rintro chosen ⟨others, hfound, hpick⟩
  obtain ⟨-, rfl⟩ := Candidates.mk.inj (Option.some.inj (hfind.symm.trans hfound))
  have hparams := List.all_eq_true.mp hempty _
    (Dispatch.mem_of_mem_eligible (Selection.exists_of_pick hpick).1).1
  rw [List.isEmpty_iff.mp hparams]
  intro hstopped
  cases hstopped

end Session

end ObjectBridge
