import ObjectBridge.Proofs.Call.Failing
import ObjectBridge.Proofs.Session.WrittenBack

/-!
# Calls that fail

A call that fails returns no arguments, so the caller keeps those that it passed.  What is in the boxes stays there,
except for what a body stores into a box that it got hold of, and this goes for the body that was called and for the
deferred constructors of objects that the call needs.  When the body has returned, the arguments are written back
before the result is delivered, and before the object that was constructed is registered.

* `Session.failing_spares` — a call or a construction that fails has left boxes and objects alone.
* `Session.box_changed_by_failing` — two calls that fail after a box was changed.
-/

namespace ObjectBridge.Session

open Run

/-- All boxes and all objects are as they were, and further objects are managed copies that the next sweep removes,
also while the caller holds the arguments. -/
structure Undisturbed (s t : State) (args : CallArgs) : Prop where
  box : ∀ (b : BoxId) (v : Value), s.cells[b]? = some v → t.cells[b]? = some v
  kept : ∀ r i, s.arena.get? r = some i → t.arena.get? r = some i
  copied : ∀ r i, t.arena.get? r = some i → s.arena.get? r = none →
    i.keep = .managed ∧ ∃ q j, s.arena.get? q = some j ∧ i.native = j.native ∧ i.overrides = j.overrides
  collectable : ∀ r i, t.arena.get? r = some i → s.arena.get? r = none → ∀ hand : List Value,
    (∀ v ∈ hand, v ∈ args.values) → r ∈ (withHeld t hand).collectable
  swept : ∀ r i, t.arena.get? r = some i → s.arena.get? r = none → ∀ hand : List Value,
    (∀ v ∈ hand, v ∈ args.values) → t.stepsLeft ≠ some 0 →
      ∃ n u, (holding hand Lifetime.reclaim).outcome t = (.ok n, u) ∧ u.arena.get? r = none

/-- What has failed has left alone what the bodies that it ran left alone: the content of a box has any property that
it had, if every body left it so, and nothing is disturbed if no body had to run. -/
structure Spared {α : Type} (exec : Exec) (act : Exec → Run α) (s t : State) (args : CallArgs) : Prop where
  box : ∀ b P, Obeys (World.KeepsBox b P) exec act s → World.KeepsBox b P s.toWorld t.toWorld
  quiet : s.Arises args.values → ((act noBody).outcome s).1 ≠ .error .exhausted → Undisturbed s t args

variable {s t : State} {args : CallArgs}

theorem undisturbed_of_widened (hs : s.Arises args.values) (ht : t = s.withWorld t.toWorld)
    (hwidened : s.toWorld.Widened (s.Covers args.values) t.toWorld) : Undisturbed s t args := by
  refine ⟨hwidened.box_eq, hwidened.get?_eq hs.balanced, fun r i hi hnone => ?_, fun r i hi hnone hand hsub => ?_,
    fun r i hi hnone hand hsub => ?_⟩
  · rcases hwidened.get?_new hs.balanced r i hi with hold | ⟨hkeep, -, horiginal⟩
    · rw [hnone] at hold
      cases hold
    · exact ⟨hkeep, horiginal⟩
  · exact (State.swept_of_widened hs ht hwidened hsub hi hnone).1
  · exact (State.swept_of_widened hs ht hwidened hsub hi hnone).2

/-- What has failed has spared boxes and objects or came late, if that holds of each box and of the objects. -/
theorem spared_or {α : Type} {exec : Exec} {act : Exec → Run α} {late : Prop}
    (hbox : ∀ b P, Obeys (World.KeepsBox b P) exec act s → World.KeepsBox b P s.toWorld t.toWorld ∨ late)
    (hquiet : Obeys (fun _ _ => False) exec act s →
      (t = s.withWorld t.toWorld ∧ s.toWorld.Widened (s.Covers args.values) t.toWorld) ∨ late) :
    Spared exec act s t args ∨ late := by
  by_cases hlate : late
  · exact Or.inr hlate
  · refine Or.inl ⟨fun b P hobeys => (hbox b P hobeys).resolve_right hlate, fun hs hended => ?_⟩
    obtain ⟨ht, hwidened⟩ := (hquiet (obeys_nothing_iff.mpr hended)).resolve_right hlate
    exact undisturbed_of_widened hs ht hwidened

/-- Where no body runs, the world is only widened to pass the arguments on. -/
theorem steady_widened (s : State) (args : CallArgs) :
    Steady (fun t u => u = t.withWorld u.toWorld ∧ t.toWorld.Widened (s.Covers args.values) u.toWorld)
      fun _ _ => False :=
  steady_of_nothing (World.Widened.refl _) World.Widened.trans

/-- A call that fails has spared boxes and objects, or else its body has returned and the result cannot be delivered.
A construction that fails has spared them too, or else the object cannot be registered; and an object that comes up in
it, but in no body, is the copy of an argument. -/
theorem failing_spares (exec : Exec) :
    (∀ s t recv method args allowOverride e,
      (Dispatch.invoke exec recv method args allowOverride).outcome s = (.error (.raised e), t) →
      Spared exec (fun exec => Dispatch.invoke exec recv method args allowOverride) s t args ∨
        ∃ chosen s₁, (holding args.values (Dispatch.choose exec recv method args)).outcome s = (.ok chosen, s₁) ∧
          Dispatch.FailsToDeliver exec (some recv) chosen method args allowOverride s₁ e t) ∧
    (∀ s t cls method args e,
      (Dispatch.callStatic exec cls method args).outcome s = (.error (.raised e), t) →
      Spared exec (fun exec => Dispatch.callStatic exec cls method args) s t args ∨
        ∃ chosen, (Dispatch.chooseStatic cls method args).outcome s = (.ok chosen, s) ∧
          Dispatch.FailsToDeliver exec none chosen method args false s e t) ∧
    (∀ s t cls args e,
      (Construction.construct exec cls args).outcome s = (.error (.raised e), t) →
      (Spared exec (fun exec => Construction.construct exec cls args) s t args ∨
        Construction.FailsToRegister exec cls args s e t) ∧
      ∀ r, s.arena.get? r = none → t.arena.get? r ≠ none →
        Obeys (World.KeepsVacant r) exec (fun exec => Construction.construct exec cls args) s →
        ∃ x : Construction.Selected s cls args,
          Delivery.CopiedFor exec (withHeld s x.held) x.overload.sig.params x.binding.values r) := by
  -- Each kind of call is argued twice alike: for what every body keeps of a box, and for quiet bodies.
  refine ⟨?_, ?_, ?_⟩
  · intro s t recv method args allowOverride e hrun
    refine spared_or (fun b P hobeys => ?_) fun hquiet => ?_
    · exact Dispatch.related_of_raised_invoke (World.steady_keepsBox b P) (Or.inr fun _ _ v hv hP => ⟨v, hv, hP⟩)
        (fun _ _ _ _ => Delivery.mayPass_keepsBox b P _) hobeys hrun
    · exact Dispatch.related_of_raised_invoke (steady_widened s args) (Or.inl fun _ _ => id)
        (fun _ _ hchoose hselect => Delivery.mayPass_widened (Dispatch.covers_of_quiet_choose hchoose hselect))
        hquiet hrun
  · intro s t cls method args e hrun
    refine spared_or (fun b P hobeys => ?_) fun hquiet => ?_
    · exact Dispatch.related_of_raised_callStatic (World.steady_keepsBox b P)
        (fun _ _ => Delivery.mayPass_keepsBox b P _) hobeys hrun
    · exact Dispatch.related_of_raised_callStatic (steady_widened s args)
        (fun _ hselect => Delivery.mayPass_widened
          (Dispatch.covers_of_chooseStatic hselect fun v hv => State.covers_of_mem_hand hv)) hquiet hrun
  · intro s t cls args e hrun
    refine ⟨?_, fun r hnone hnew hobeys => Construction.copiedFor_of_raised hobeys hrun hnone hnew⟩
    refine spared_or (fun b P hobeys => ?_) fun hquiet => ?_
    · exact Construction.related_of_raised (World.steady_keepsBox b P) (fun _ => Delivery.mayPass_keepsBox b P _)
        hobeys hrun
    · exact Construction.related_of_raised (steady_widened s args) (fun x => Delivery.mayPass_widened x.covers)
        hquiet hrun

/-! ## Objects of a session -/

/-- Two parameters for objects that are passed by value. -/
def twoObjects : List (Script.ParamSpec Script.Expr) :=
  [{ name := "a", type := .object "Node" }, { name := "b", type := .object "Node" }]

/-- A class whose constructor and whose methods `pair` and `both` do nothing with two objects, and whose method `give`
replaces its argument and returns the receiver, which it has destroyed. -/
def failingClass : Script.ClassSpec Script.Expr Script.Stmt := {
  name := "Node"
  shape := .script
  members := [
    .constructor { params := twoObjects } [],
    .method "pair" { params := twoObjects } [],
    .method "both" { params := twoObjects, isStatic := true } [],
    .method "give" { params := [{ name := "n", type := .bool, passing := .ref }],
                     result := some (.object "Node", .value) }
      [.perform (.setArg 0 (.lit (.bool true))) none, .perform (.destroy .receiver) none, .ret .receiver]] }

/-- A class with a deferred constructor, which replaces the content of a box. -/
def lateClass : Script.ClassSpec Script.Expr Script.Stmt := {
  name := "Late"
  shape := .script
  members := [.lazy [.perform (.boxSet (.var "b") (.lit (.bool true))) none, .ret (.map [])]] }

/-- A session that registers the classes and keeps an object, one that cannot be copied, one of which the constructor
is deferred, and a box with a truth value. -/
def failingRun : Except Fault Value × State :=
  andThen (start {} []) 6 (.list [
    .perform (.defineClass failingClass) none,
    .perform (.defineClass lateClass) none,
    .perform (.create (.named "Node") .script (.map []) false) (some "x"),
    .perform (.create (.named "Node") { name := "Rigid" } (.map []) false) (some "y"),
    .perform (.call (.construct (.named "Late") [] [])) (some "z"),
    .perform (.set (.box (.lit (.bool false)))) (some "b")])

theorem between_failingRun : Between failingRun.2 :=
  (Between.start {} []).andThen (by decide +kernel)

/-- The object that cannot be copied. -/
def rigidObject : Handle :=
  ⟨⟨1, ⟨1, ⟨1, 0⟩⟩, 0, "Node"⟩, false⟩

/-- The object of which the constructor is deferred. -/
def lateObject : Handle :=
  ⟨⟨2, ⟨2, ⟨2, 0⟩⟩, 1, "Late"⟩, false⟩

/-- An object and one that cannot be copied, as arguments. -/
def twoGiven : CallArgs :=
  ⟨[.object crossingObject, .object rigidObject], []⟩

theorem arises_failingRun : failingRun.2.Arises twoGiven.values := by
  have hcovers (name : String) {h : Handle}
      (hlookup : (failingRun.2.globals.lookup name).bind Value.handle? = some h) :
      failingRun.2.Covers [] (.object h) := by
    obtain ⟨v, hv, hobject⟩ := Option.bind_eq_some_iff.mp hlookup
    rw [Value.eq_object_of_handle? hobject] at hv
    exact State.covers_of_mem_roots
      (State.mem_roots_iff.mpr (Or.inl (List.mem_map.mpr ⟨_, mem_of_lookup hv, rfl⟩))) []
  have hx : failingRun.2.Covers [] (.object crossingObject) := hcovers "x" (by decide +kernel)
  have hy : failingRun.2.Covers [] (.object rigidObject) := hcovers "y" (by decide +kernel)
  refine between_failingRun.arises.of_covers fun v hv => ?_
  have hcases : v = .object crossingObject ∨ v = .object rigidObject := by
    simpa [twoGiven, CallArgs.values] using hv
  rcases hcases with rfl | rfl
  · exact hx
  · exact hy

theorem eq_some_bool {v? : Option Value} {b : Bool} (hv : v?.bind Value.bool? = some b) : v? = some (.bool b) := by
  obtain ⟨v, rfl, hb⟩ := Option.bind_eq_some_iff.mp hv
  rw [Value.eq_bool_of_bool? hb]

/-- Whether a run ends in an error that can be caught. -/
def raises {α : Type} : Except Fault α → Bool
  | .error (.raised _) => true
  | _ => false

theorem exists_of_raises {α : Type} (act : Run α) (s : State) (hraises : raises (act.outcome s).1 = true) :
    ∃ e t, act.outcome s = (.error (.raised e), t) := by
  rcases hrun : act.outcome s with ⟨result, t⟩
  rw [hrun] at hraises
  match result with
  | .error (.raised e) => exact ⟨e, t, rfl⟩

theorem ne_exhausted_of_raises {α : Type} {result : Except Fault α} (hraises : raises result = true) :
    result ≠ .error .exhausted := by
  rintro rfl
  cases hraises

/-- The fourth slot, which was free, has been taken. -/
def TakesFourth (t : State) : Prop :=
  (t.arena.get? ⟨3, 0⟩).isSome = true ∧ t.stepsLeft = none

/-- The object in the fourth slot goes with the next sweep. -/
def SweptFourth (t : State) : Prop :=
  ∃ n u, (holding twoGiven.values Lifetime.reclaim).outcome t = (.ok n, u) ∧ u.arena.get? ⟨3, 0⟩ = none

instance : DecidablePred TakesFourth :=
  fun _ => inferInstanceAs (Decidable (_ ∧ _))

theorem fourth_free : failingRun.2.arena.get? ⟨3, 0⟩ = none :=
  Option.isNone_iff_eq_none.mp (by decide +kernel)

theorem sweptFourth_of_spared {α : Type} {exec : Exec} {act : Exec → Run α}
    (hspared : Spared exec act failingRun.2 t twoGiven) (hquiet : raises ((act noBody).outcome failingRun.2).1 = true)
    (htakes : TakesFourth t) : SweptFourth t := by
  obtain ⟨i, hi⟩ := Option.isSome_iff_exists.mp htakes.1
  refine (hspared.quiet arises_failingRun (ne_exhausted_of_raises hquiet)).swept _ i hi fourth_free _
    (fun _ hv => hv) ?_
  rw [htakes.2]
  exact fun h => by cases h

/-- Calls and a construction fail to copy their second argument.  The copy of the first one that they leave goes with
the next sweep. -/
theorem failing_copy_swept :
    (∃ e t, (Dispatch.invoke (Script.interpreter 6).exec crossingObject "pair" twoGiven true).outcome
      failingRun.2 = (.error (.raised e), t) ∧ TakesFourth t ∧ SweptFourth t) ∧
    (∃ e t, (Dispatch.callStatic (Script.interpreter 6).exec 0 "both" twoGiven).outcome failingRun.2 =
      (.error (.raised e), t) ∧ TakesFourth t ∧ SweptFourth t) ∧
    ∃ e t, (Construction.construct (Script.interpreter 6).exec 0 twoGiven).outcome failingRun.2 =
      (.error (.raised e), t) ∧ TakesFourth t ∧ SweptFourth t ∧
        ∃ x : Construction.Selected failingRun.2 0 twoGiven,
          Delivery.CopiedFor (Script.interpreter 6).exec (withHeld failingRun.2 x.held) x.overload.sig.params
            x.binding.values ⟨3, 0⟩ := by
  refine ⟨?_, ?_, ?_⟩
  · have hbody : raises ((holding twoGiven.values (Dispatch.choose (Script.interpreter 6).exec crossingObject "pair"
        twoGiven) >>= fun chosen => holding twoGiven.values (Dispatch.runBody (Script.interpreter 6).exec
          (some crossingObject) chosen "pair" true)).outcome failingRun.2).1 = true := by
      decide +kernel
    have htakes : TakesFourth ((Dispatch.invoke (Script.interpreter 6).exec crossingObject "pair" twoGiven
        true).outcome failingRun.2).2 := by
      decide +kernel
    obtain ⟨e, t, hrun⟩ := exists_of_raises (Dispatch.invoke (Script.interpreter 6).exec crossingObject "pair"
      twoGiven true) failingRun.2 (by decide +kernel)
    rw [hrun] at htakes
    refine ⟨e, t, hrun, htakes, ?_⟩
    rcases (failing_spares (Script.interpreter 6).exec).1 _ _ _ _ _ _ _ hrun with
      hspared | ⟨chosen, s₁, hchoose, v, updated, s₂, after, s₃, hreturned, -⟩
    · exact sweptFourth_of_spared hspared (by decide +kernel) htakes
    · rw [outcome_bind_of_ok hchoose, hreturned] at hbody
      cases hbody
  · have hbody : raises ((Dispatch.chooseStatic 0 "both" twoGiven >>= fun chosen => holding twoGiven.values
        (Dispatch.runBody (Script.interpreter 6).exec none chosen "both" false)).outcome failingRun.2).1 = true := by
      decide +kernel
    have htakes : TakesFourth ((Dispatch.callStatic (Script.interpreter 6).exec 0 "both" twoGiven).outcome
        failingRun.2).2 := by
      decide +kernel
    obtain ⟨e, t, hrun⟩ := exists_of_raises (Dispatch.callStatic (Script.interpreter 6).exec 0 "both" twoGiven)
      failingRun.2 (by decide +kernel)
    rw [hrun] at htakes
    refine ⟨e, t, hrun, htakes, ?_⟩
    rcases (failing_spares (Script.interpreter 6).exec).2.1 _ _ _ _ _ _ hrun with
      hspared | ⟨chosen, hchoose, v, updated, s₂, after, s₃, hreturned, -⟩
    · exact sweptFourth_of_spared hspared (by decide +kernel) htakes
    · rw [outcome_bind_of_ok hchoose, hreturned] at hbody
      cases hbody
  · have hregister : (((Construction.construct (Script.interpreter 6).exec 0 twoGiven).outcome
        failingRun.2).2.arena.register ⟨0, "Node", .object, none, .managed, none⟩).isOk = true := by
      decide +kernel
    have htakes : TakesFourth ((Construction.construct (Script.interpreter 6).exec 0 twoGiven).outcome
        failingRun.2).2 := by
      decide +kernel
    have hquiet : raises ((Construction.construct noBody 0 twoGiven).outcome failingRun.2).1 = true := by
      decide +kernel
    obtain ⟨e, t, hrun⟩ := exists_of_raises (Construction.construct (Script.interpreter 6).exec 0 twoGiven)
      failingRun.2 (by decide +kernel)
    rw [hrun] at hregister htakes
    obtain ⟨hspared, hcopied⟩ := (failing_spares (Script.interpreter 6).exec).2.2 _ _ _ _ _ hrun
    refine ⟨e, t, hrun, htakes, ?_, hcopied _ fourth_free (Option.isSome_iff_ne_none.mp htakes.1) ?_⟩
    · rcases hspared with hspared | ⟨-, new, hfull⟩
      · exact sweptFourth_of_spared hspared hquiet htakes
      -- The arena has room, so it is not the registration that failed.
      · rw [Arena.isOk_register _ _ new, hfull] at hregister
        cases hregister
    · exact obeys_of_noBody (fun _ => Construction.traced_construct) (ne_exhausted_of_raises hquiet)

/-- A box changes in a call for which no overload is selected, as the deferred constructor of the object stores into
it.  A box that the body left as it was changes in a call of which the result cannot be delivered. -/
theorem box_changed_by_failing :
    (¬∀ budget s t recv method args allowOverride fault s' e, Reachable s →
      (holding args.values (Dispatch.choose (Script.interpreter budget).exec recv method args)).outcome s =
        (.error fault, s') →
      (Dispatch.invoke (Script.interpreter budget).exec recv method args allowOverride).outcome s =
        (.error (.raised e), t) →
      ∀ (b : BoxId) (w : Value), s.cells[b]? = some w → t.cells[b]? = some w) ∧
    ¬∀ budget s t recv method args allowOverride chosen s₀ v updated s₁ e, Reachable s →
      (holding args.values (Dispatch.choose (Script.interpreter budget).exec recv method args)).outcome s =
        (.ok chosen, s₀) →
      (holding args.values (Dispatch.runBody (Script.interpreter budget).exec (some recv) chosen method
        allowOverride)).outcome s₀ = (.ok (v, updated), s₁) →
      (Dispatch.invoke (Script.interpreter budget).exec recv method args allowOverride).outcome s =
        (.error (.raised e), t) →
      ∀ (b : BoxId) (w : Value), s.cells[b]? = some w → s₁.cells[b]? = some w → t.cells[b]? = some w := by
  have hbefore : failingRun.2.cells[0]? = some (.bool false) := eq_some_bool (by decide +kernel)
  refine ⟨fun hclaim => ?_, fun hclaim => ?_⟩
  · have hafter : ((Dispatch.invoke (Script.interpreter 6).exec lateObject "nothing" boxed true).outcome
        failingRun.2).2.cells[0]? = some (.bool true) := eq_some_bool (by decide +kernel)
    obtain ⟨e', s', hchoose⟩ := exists_of_raises (holding boxed.values (Dispatch.choose (Script.interpreter 6).exec
      lateObject "nothing" boxed)) failingRun.2 (by decide +kernel)
    obtain ⟨e, t, hrun⟩ := exists_of_raises (Dispatch.invoke (Script.interpreter 6).exec lateObject "nothing" boxed
      true) failingRun.2 (by decide +kernel)
    rw [hrun] at hafter
    have hkept := hclaim 6 _ _ _ _ _ _ _ _ _ (.between between_failingRun) hchoose hrun 0 _ hbefore
    rw [hafter] at hkept
    cases hkept
  · have hafter : ((Dispatch.invoke (Script.interpreter 6).exec crossingObject "give" boxed true).outcome
        failingRun.2).2.cells[0]? = some (.bool true) := eq_some_bool (by decide +kernel)
    have hreturned : ((holding boxed.values (Dispatch.choose (Script.interpreter 6).exec crossingObject "give"
        boxed) >>= fun chosen => holding boxed.values (Dispatch.runBody (Script.interpreter 6).exec
          (some crossingObject) chosen "give" true)).outcome failingRun.2).1.toOption.map (fun _ => ()) =
        some () := by
      decide +kernel
    have hbetween : ((holding boxed.values (Dispatch.choose (Script.interpreter 6).exec crossingObject "give"
        boxed) >>= fun chosen => holding boxed.values (Dispatch.runBody (Script.interpreter 6).exec
          (some crossingObject) chosen "give" true)).outcome failingRun.2).2.cells[0]? = some (.bool false) :=
      eq_some_bool (by decide +kernel)
    have hchosen : ((holding boxed.values (Dispatch.choose (Script.interpreter 6).exec crossingObject "give"
        boxed)).outcome failingRun.2).1.toOption.map (fun _ => ()) = some () := by
      decide +kernel
    obtain ⟨chosen, s₀, hchoose, -⟩ := exists_of_toOption hchosen
    rw [outcome_bind_of_ok hchoose] at hreturned hbetween
    obtain ⟨⟨v, updated⟩, s₁, hbody, -⟩ := exists_of_toOption hreturned
    obtain ⟨e, t, hrun⟩ := exists_of_raises (Dispatch.invoke (Script.interpreter 6).exec crossingObject "give" boxed
      true) failingRun.2 (by decide +kernel)
    rw [hbody] at hbetween
    rw [hrun] at hafter
    have hkept := hclaim 6 _ _ _ _ _ _ _ _ _ _ _ _ (.between between_failingRun) hchoose hbody hrun 0 _ hbefore
      hbetween
    rw [hafter] at hkept
    cases hkept

end ObjectBridge.Session
