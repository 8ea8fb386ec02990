import ObjectBridge.Proofs.Call.Guarded
import ObjectBridge.Proofs.Call.Phases
import ObjectBridge.Proofs.Lifetime.Widening

/-!
# Calls and constructions that fail

A call fails while an overload is selected, while values are passed to its body or in the body, or else its result
cannot be delivered when the arguments are written back already.  A construction fails before its constructor has
returned, or else the object cannot be registered.

* `Dispatch.related_of_raised_invoke` and its companions — what a call that fails has done.
* `Construction.related_of_raised` — what a construction that fails has done.
* `Construction.copiedFor_of_raised` — the objects that come up in a construction that fails.
-/

namespace ObjectBridge

open Run

variable {R : State → State → Prop} {G : World → World → Prop} {exec : Exec} {s t : State} {args : CallArgs}
  {e : Error} {values : List Value}

/-! ## What is left as it was -/

namespace World

/-- A property of the content of a box is kept. -/
def KeepsBox (b : BoxId) (P : Value → Prop) (w w' : World) : Prop :=
  ∀ v : Value, w.cells[b]? = some v → P v → ∃ u : Value, w'.cells[b]? = some u ∧ P u

/-- No object comes up for a reference that names none. -/
def KeepsVacant (r : Reference) (w w' : World) : Prop :=
  w.arena.get? r = none → w'.arena.get? r = none

theorem steady_keepsBox (b : BoxId) (P : Value → Prop) :
    Steady (fun s t => KeepsBox b P s.toWorld t.toWorld) (KeepsBox b P) := by
  refine steady_of_world (fun _ v hv hP => ⟨v, hv, hP⟩) ?_ id fun h _ => h
  intro w₁ w₂ w₃ hfirst hrest v hv hP
  obtain ⟨u, hu, hP⟩ := hfirst v hv hP
  exact hrest u hu hP

theorem steady_keepsVacant (r : Reference) :
    Steady (fun s t => KeepsVacant r s.toWorld t.toWorld) (KeepsVacant r) := by
  refine steady_of_world (fun _ hnone => hnone) (fun hfirst hrest hnone => hrest (hfirst hnone)) id ?_
  intro w w' q state a hbody hmade hnone
  have hvacant := hbody hnone
  obtain ⟨i, hi, ⟨-, rfl⟩ | ⟨-, rfl⟩⟩ := Arena.materialize_cases hmade
  · exact hvacant
  · have hne : r ≠ q := by
      rintro rfl
      rw [hvacant] at hi
      cases hi
    exact ((Arena.get?_setOccupant hi _ r).trans (if_neg hne)).trans hvacant

end World

/-- Whatever happens is allowed. -/
theorem steady_anything (G : World → World → Prop) : Steady (fun _ _ => True) G :=
  ⟨fun _ => trivial, fun _ _ => trivial, fun _ _ _ _ => trivial, fun _ => trivial, fun _ _ => trivial⟩

namespace Delivery

theorem mayPass_anything (values : List Value) : MayPass (fun _ _ => True) values :=
  ⟨fun _ _ => trivial, fun _ _ => trivial⟩

theorem mayPass_keepsBox (b : BoxId) (P : Value → Prop) (values : List Value) :
    MayPass (fun s t => World.KeepsBox b P s.toWorld t.toWorld) values := by
  refine ⟨?_, fun _ s v hv hP => ⟨v, (World.widened_of_box (P := fun _ => True) trivial).box_eq b v hv, hP⟩⟩
  rintro s t h k - ⟨i, state, c, arena, -, -, -, rfl⟩ v hv hP
  exact ⟨v, hv, hP⟩

theorem mayPass_widened {P : Value → Prop} (hvalues : ∀ v ∈ values, P v) :
    MayPass (fun s t => t = s.withWorld t.toWorld ∧ s.toWorld.Widened P t.toWorld) values := by
  refine ⟨fun _ hcopied => ⟨?_, World.widened_of_copied hcopied⟩,
    fun hv s => ⟨rfl, World.widened_of_box (hvalues _ hv)⟩⟩
  obtain ⟨i, state, c, arena, -, -, -, rfl⟩ := hcopied
  rfl

theorem exists_outcome_settle (params : List Param) (sources : List Source) (updated : List Value)
    (args : CallArgs) (s : State) :
    ∃ after cells, (settle params sources updated args).outcome s = (.ok after, { s with cells := cells }) :=
  ⟨_, _, rfl⟩

end Delivery

/-! ## Objects that come up -/

namespace Lifetime

/-- The registration of an object fails without a change. -/
theorem eq_of_raised_registerAs {c : ClassInfo} {native : Option NativeState} {keep : Keep}
    {overrides : Option Overrides} {fault : Fault}
    (hrun : (registerAs c native keep overrides).outcome s = (.error fault, t)) :
    t = s ∧ ∃ new e, s.arena.register new = .error e ∧ fault = .raised e := by
  rw [registerAs, register, outcome_get_bind] at hrun
  rcases cases_of_outcome_bind_error hrun with hregister | ⟨registered, s₁, -, hstore⟩
  · rw [outcome_ofExcept] at hregister
    obtain ⟨hresult, rfl⟩ := Prod.mk.inj hregister
    cases hnew : s.arena.register { cls := c.id, className := c.name, kind := c.kind, native, keep, overrides } with
    | ok registered =>
        rw [hnew] at hresult
        cases hresult
    | error e =>
        rw [hnew] at hresult
        exact ⟨rfl, _, e, hnew, (Except.error.inj hresult).symm⟩
  · cases hstore

/-- An object that comes up when an object is copied is the copy, if the deferred constructor does not make it. -/
theorem eq_target_of_dup {r : Reference} {h : Handle} {result : Except Fault Handle}
    (hobeys : Obeys (World.KeepsVacant r) exec (fun exec => dup exec h) s)
    (hrun : (dup exec h).outcome s = (result, t)) (hs : s.arena.get? r = none) (ht : t.arena.get? r ≠ none) :
    ∃ k, result = .ok k ∧ k.target = r := by
  have hmat : Traced (fun s t => World.KeepsVacant r s.toWorld t.toWorld) (World.KeepsVacant r) exec
      (fun exec => materialize exec h "dup") s := traced_materialize (World.steady_keepsVacant r) h "dup"
  cases result with
  | ok k =>
      obtain ⟨u, hmaterialize, i, state, c, arena, -, -, hreg, rfl⟩ := exists_of_outcome_dup hrun
      have hu : u.arena.get? r = none := hmat.related_of_outcome hobeys.of_bind hmaterialize hs
      obtain ⟨j, hj⟩ := Option.ne_none_iff_exists'.mp ht
      rcases Arena.eq_target_or_get?_of_register hreg hj with rfl | hold
      · exact ⟨k, rfl, rfl⟩
      · rw [hu] at hold
        cases hold
  | error fault =>
      refine absurd ?_ ht
      rcases cases_of_outcome_bind_error hrun with hmaterialize | ⟨_, u, hmaterialize, hcopy⟩
      · exact hmat.related_of_outcome hobeys.of_bind hmaterialize hs
      · have hu : u.arena.get? r = none := hmat.related_of_outcome hobeys.of_bind hmaterialize hs
        -- Whatever fails after the deferred constructor has only read the state.
        suffices heq : t = u by rw [heq]; exact hu
        rcases (reads_resolve h "dup").cases_of_outcome_bind_error hcopy with heq | ⟨i, -, hcopy⟩
        · exact heq
        rcases (reads_orFail _ _).cases_of_outcome_bind_error hcopy with heq | ⟨copy, -, hcopy⟩
        · exact heq
        rw [outcome_get_bind] at hcopy
        rcases (reads_ofExcept _).cases_of_outcome_bind_error hcopy with heq | ⟨c, -, hregister⟩
        · exact heq
        exact (eq_of_raised_registerAs hregister).1

end Lifetime

namespace Delivery

/-- While values are prepared for the parameters from one state on, it is the turn of one of them in another state. -/
inductive Turn (exec : Exec) : State → List Param → List Value → State → Param → Value → Prop
  | now {s : State} {p : Param} {params : List Param} {v : Value} {rest : List Value} :
      Turn exec s (p :: params) (v :: rest) (withHeld s (v :: rest)) p v
  | later {s t now : State} {p q : Param} {params : List Param} {v u w : Value} {rest : List Value}
      (hone : (holding (v :: rest) (prepareOne exec p v)).outcome s = (.ok u, t))
      (hturn : Turn exec (withHeld t [u]) params rest now q w) : Turn exec s (p :: params) (v :: rest) now q w

/-- A reference names the copy of an object that is made because it is passed by value. -/
def CopiedFor (exec : Exec) (s : State) (params : List Param) (values : List Value) (r : Reference) : Prop :=
  ∃ now p h k after, Turn exec s params values now p (.object h) ∧ TakesCopy p ∧
    (Lifetime.dup exec h).outcome now = (.ok k, after) ∧ k.target = r

variable {r : Reference} {params : List Param}

theorem exists_dup_of_prepareOne {p : Param} {v : Value} {result : Except Fault Value}
    (hobeys : Obeys (World.KeepsVacant r) exec (fun exec => prepareOne exec p v) s)
    (hrun : (prepareOne exec p v).outcome s = (result, t)) (hs : s.arena.get? r = none)
    (ht : t.arena.get? r ≠ none) :
    TakesCopy p ∧ ∃ h k after, v = .object h ∧ (Lifetime.dup exec h).outcome s = (.ok k, after) ∧ k.target = r := by
  have hpure {u : Value} (hrun : (pure u : Run Value).outcome s = (result, t)) : False := by
    obtain ⟨-, rfl⟩ := Prod.mk.inj hrun
    exact ht hs
  unfold prepareOne at hrun hobeys
  split at hrun
  · rename_i cls h htype
    unfold prepareObject at hrun hobeys
    cases hpassing : p.passing with
    | value =>
        simp only [htype, hpassing] at hrun hobeys
        rcases hdup : (Lifetime.dup exec h).outcome s with ⟨result', after⟩
        have hafter : after = t := by
          rw [outcome_bind, hdup] at hrun
          cases result' <;> exact (Prod.mk.inj hrun).2
        obtain ⟨k, rfl, hk⟩ := Lifetime.eq_target_of_dup hobeys.of_bind hdup hs (hafter ▸ ht)
        exact ⟨⟨by rw [htype]; rfl, hpassing⟩, h, k, after, rfl, hdup, hk⟩
    | _ =>
        simp only [hpassing] at hrun
        exact (hpure hrun).elim
  · exact (hpure hrun).elim

/-- An object that comes up while values are passed to a body is a copy, if no deferred constructor makes it. -/
theorem copiedFor_of_prepare {result : Except Fault (List Value)}
    (hobeys : Obeys (World.KeepsVacant r) exec (fun exec => prepare exec params values) s)
    (hrun : (prepare exec params values).outcome s = (result, t)) (hs : s.arena.get? r = none)
    (ht : t.arena.get? r ≠ none) : CopiedFor exec s params values r := by
  induction params generalizing values s t result with
  | nil =>
      obtain ⟨-, rfl⟩ := Prod.mk.inj hrun
      exact absurd hs ht
  | cons p params ih =>
      cases values with
      | nil =>
          obtain ⟨-, rfl⟩ := Prod.mk.inj hrun
          exact absurd hs ht
      | cons v rest =>
          simp only [prepare_cons] at hobeys hrun
          rcases hone : (holding (v :: rest) (prepareOne exec p v)).outcome s with ⟨result₁, s₁⟩
          have hworld := toWorld_outcome_holding (prepareOne exec p v) (v :: rest) s
          rw [hone] at hworld
          -- The object comes up with the first value or with the others, as the state between the two tells.
          by_cases hs₁ : s₁.arena.get? r = none
          · cases result₁ with
            | error fault =>
                rw [outcome_bind, hone] at hrun
                rw [← (Prod.mk.inj hrun).2] at ht
                exact absurd hs₁ ht
            | ok u =>
                have hfirst : Traced (fun _ _ => True) (World.KeepsVacant r) exec
                    (fun exec => holding (v :: rest) (prepareOne exec p v)) s :=
                  (traced_prepareOne (steady_anything _) (fun _ _ => trivial) p).holding (steady_anything _)
                have hobeys' := (hfirst.obeys_of_bind hobeys hone).of_bind
                rw [outcome_bind_of_ok hone] at hrun
                have ht' : ((prepare exec params rest).outcome (withHeld s₁ [u])).2.arena.get? r ≠ none := by
                  rw [← toWorld_outcome_holding, ← state_outcome_map _ (List.cons u), hrun]
                  exact ht
                obtain ⟨now, q, h, k, after, hturn, htakes, hdup, hk⟩ :=
                  ih hobeys'.of_within (Prod.eta _).symm hs₁ ht'
                exact ⟨now, q, h, k, after, .later hone hturn, htakes, hdup, hk⟩
          · have hs₁' : ((prepareOne exec p v).outcome (withHeld s (v :: rest))).2.arena.get? r ≠ none := by
              rw [← hworld]
              exact hs₁
            obtain ⟨htakes, h, k, after, rfl, hdup, hk⟩ :=
              exists_dup_of_prepareOne hobeys.of_bind.of_within (Prod.eta _).symm hs hs₁'
            exact ⟨_, p, h, k, after, .now, htakes, hdup, hk⟩

end Delivery

/-! ## Calls -/

namespace Dispatch

variable {recv : Option Handle} {chosen : Selected} {method : String} {allowOverride : Bool} {hand : List Value}

/-- The body of a call has returned and the arguments are written back, but the result cannot be delivered. -/
def FailsToDeliver (exec : Exec) (recv : Option Handle) (chosen : Selected) (method : String) (args : CallArgs)
    (allowOverride : Bool) (s : State) (e : Error) (t : State) : Prop :=
  ∃ v updated s₁ after s₂,
    (holding args.values (runBody exec recv chosen method allowOverride)).outcome s = (.ok (v, updated), s₁) ∧
    (Delivery.settle chosen.overload.sig.params chosen.binding.sources updated args).outcome s₁ = (.ok after, s₂) ∧
    (holding after.values (Delivery.giveBack exec chosen.overload.sig.result chosen.owner method v)).outcome s₂ =
      (.error (.raised e), t)

/-- What is passed to the body of a call is in use with the arguments. -/
theorem covers_of_choose {h : Handle} (hrun : (choose exec h method args).outcome s = (.ok chosen, t))
    (hargs : ∀ v ∈ args.values, t.Covers hand v) : ∀ v ∈ chosen.binding.values, t.Covers hand v := by
  obtain ⟨-, ⟨overloads, hfound, hpick⟩, -⟩ := resolves_of_outcome_choose hrun
  refine covers_binding rfl hargs (fun o ho v hv => ?_) hpick
  exact ClassTable.mem_heldValues_of_findMethod hfound (mem_of_mem_eligible ho).1 hv

/-- If no body runs while an overload is selected, nothing has changed, and what is passed to the body is in use with
the arguments. -/
theorem covers_of_quiet_choose {h : Handle}
    (hquiet : Obeys (fun _ _ => False) exec (fun exec => holding args.values (choose exec h method args)) s)
    (hrun : (holding args.values (choose exec h method args)).outcome s = (.ok chosen, t)) :
    ∀ v ∈ chosen.binding.values, s.Covers args.values v := by
  obtain ⟨t', hinner, -⟩ := exists_of_outcome_holding hrun
  have hsame : t' = (withHeld s args.values).withWorld t'.toWorld ∧ t'.toWorld = (withHeld s args.values).toWorld :=
    (traced_choose (steady_of_nothing (R := fun w w' => w' = w) (fun _ => rfl) fun hfirst hrest => hrest.trans hfirst)
      h method args).related_of_outcome hquiet.of_within hinner
  obtain rfl : t' = withHeld s args.values := by
    rw [hsame.1, hsame.2]
    rfl
  intro v hv
  exact State.covers_of_withHeld (covers_of_choose hinner (fun u hu => State.covers_of_mem_hand hu) v hv)

theorem covers_of_chooseStatic {cls : ClassId} (hrun : (chooseStatic cls method args).outcome s = (.ok chosen, t))
    (hargs : ∀ v ∈ args.values, t.Covers hand v) : ∀ v ∈ chosen.binding.values, t.Covers hand v := by
  obtain ⟨rfl, ⟨overloads, hfound, hpick⟩, -⟩ := resolves_of_outcome_chooseStatic hrun
  refine covers_binding rfl hargs (fun o ho v hv => ?_) hpick
  exact ClassTable.mem_heldValues_of_findMethod hfound (List.mem_of_mem_filter ho) hv

/-- A selected call that fails has done what may be done before the arguments are written back. -/
theorem related_of_raised_execute (hR : Steady R G) (hpass : Delivery.MayPass R chosen.binding.values)
    (hobeys : Obeys G exec (fun exec => execute exec recv chosen method args allowOverride) s)
    (hrun : (execute exec recv chosen method args allowOverride).outcome s = (.error (.raised e), t)) :
    R s t ∨ FailsToDeliver exec recv chosen method args allowOverride s e t := by
  rcases cases_of_outcome_bind_error hrun with hbody | ⟨⟨v, updated⟩, s₁, hbody, hrest⟩
  · exact Or.inl (((traced_runBody hR hpass).holding hR).related_of_outcome hobeys.of_bind hbody)
  · obtain ⟨after, cells, hsettle⟩ := Delivery.exists_outcome_settle chosen.overload.sig.params
      chosen.binding.sources updated args s₁
    rw [outcome_bind_of_ok hsettle] at hrest
    rcases cases_of_outcome_bind_error hrest with hgive | ⟨u, s₃, -, hpure⟩
    · exact Or.inr ⟨v, updated, s₁, after, _, hbody, hsettle, hgive⟩
    · cases hpure

/-- A call that fails has done what may be done before the arguments are written back. -/
theorem related_of_raised_invoke (hR : Steady R G)
    (hafter : (∀ w w', ¬G w w') ∨ ∀ (s : State) a, R s { s with arena := a }) {h : Handle}
    (hpass : ∀ chosen s₁, Obeys G exec (fun exec => holding args.values (choose exec h method args)) s →
      (holding args.values (choose exec h method args)).outcome s = (.ok chosen, s₁) →
      Delivery.MayPass R chosen.binding.values)
    (hobeys : Obeys G exec (fun exec => invoke exec h method args allowOverride) s)
    (hrun : (invoke exec h method args allowOverride).outcome s = (.error (.raised e), t)) :
    R s t ∨ ∃ chosen s₁, (holding args.values (choose exec h method args)).outcome s = (.ok chosen, s₁) ∧
      FailsToDeliver exec (some h) chosen method args allowOverride s₁ e t := by
  have hchoose : Traced R G exec (fun exec => holding args.values (choose exec h method args)) s :=
    (traced_choose hR h method args).holding hR
  rcases cases_of_outcome_bind_error hrun with hselect | ⟨chosen, s₁, hselect, hrest⟩
  · exact Or.inl (hchoose.related_of_outcome hobeys.of_bind hselect)
  · have hfirst : R s s₁ := hchoose.related_of_outcome hobeys.of_bind hselect
    have hpassed := hpass chosen s₁ hobeys.of_bind hselect
    have hobeys' := hchoose.obeys_of_bind hobeys hselect
    have hexecute (hobeys : Obeys G exec (fun exec => execute exec (some h) chosen method args allowOverride) s₁)
        (hrun : (execute exec (some h) chosen method args allowOverride).outcome s₁ = (.error (.raised e), t)) :
        R s t ∨ ∃ chosen s₁, (holding args.values (choose exec h method args)).outcome s = (.ok chosen, s₁) ∧
          FailsToDeliver exec (some h) chosen method args allowOverride s₁ e t :=
      (related_of_raised_execute hR hpassed hobeys hrun).imp (hR.trans hfirst)
        fun hfails => ⟨chosen, s₁, hselect, hfails⟩
    cases hbody : chosen.overload.body with
    | native code =>
        simp only [hbody] at hrest hobeys'
        exact hexecute hobeys' hrest
    | constructor code shape =>
        simp only [hbody] at hrest hobeys'
        exact hexecute hobeys' hrest
    | iterator code source =>
        -- Nothing is written back for an enumerable body, so no failure of it comes late.
        simp only [hbody] at hrest hobeys'
        rcases cases_of_outcome_bind_error hrest with hitems | ⟨items, s₂, -, hpure⟩
        · have hstream : Traced R G exec (fun exec => holding args.values
              (Stream.withStream exec h chosen.overload method chosen.binding.values
                (Stream.collect exec chosen.overload.sig.result chosen.owner method))) s₁ := by
            refine Traced.holding hR (Stream.traced_withStream hR hpassed (hafter.imp id fun harena => ?_))
            exact fun stream u => Stream.traced_collect hR harena _ _ _ stream
          exact Or.inl (hR.trans hfirst (hstream.related_of_outcome hobeys'.of_bind hitems))
        · cases hpure

/-- A static call that fails has done what may be done before the arguments are written back. -/
theorem related_of_raised_callStatic (hR : Steady R G) {cls : ClassId}
    (hpass : ∀ chosen, (chooseStatic cls method args).outcome s = (.ok chosen, s) →
      Delivery.MayPass R chosen.binding.values)
    (hobeys : Obeys G exec (fun exec => callStatic exec cls method args) s)
    (hrun : (callStatic exec cls method args).outcome s = (.error (.raised e), t)) :
    R s t ∨ ∃ chosen, (chooseStatic cls method args).outcome s = (.ok chosen, s) ∧
      FailsToDeliver exec none chosen method args false s e t := by
  have hchoose : Traced R G exec (fun _ => chooseStatic cls method args) s :=
    traced_of_reads hR (reads_chooseStatic cls method args)
  rcases cases_of_outcome_bind_error hrun with hselect | ⟨chosen, s₁, hselect, hrest⟩
  · exact Or.inl (hchoose.related_of_outcome hobeys.of_bind hselect)
  · have hobeys' := hchoose.obeys_of_bind hobeys hselect
    obtain ⟨rfl, -, -⟩ := resolves_of_outcome_chooseStatic hselect
    exact (related_of_raised_execute hR (hpass chosen hselect) hobeys' hrest).imp id
      fun hfails => ⟨chosen, hselect, hfails⟩

end Dispatch

/-! ## Constructions -/

namespace Construction

/-- The constructor that is selected for a construction, with the values of its parameters. -/
structure Selected (s : State) (cls : ClassId) (args : CallArgs) where
  c : ClassInfo
  candidates : Candidates
  overload : Overload
  binding : Binding
  descriptor_eq : s.classes.descriptor cls = .ok c
  candidates_eq : s.classes.findConstructors c.id = some candidates
  pick_eq : Selection.pick s.toWorld candidates.owner "new" candidates.overloads args = .ok (overload, binding)
  runs : ¬(args.isEmpty && (s.classes.findLazy cls).isSome) = true

variable {cls : ClassId} {r : Reference}

namespace Selected

/-- What is in use while the constructor runs: the arguments, and what the overrides captured. -/
def held (x : Selected s cls args) : List Value :=
  args.values ++ ((s.classes.overrides x.c.id).map Overrides.values).getD []

/-- To run the constructor. -/
def run (x : Selected s cls args) (exec : Exec) : Run (NativeState × List Value) :=
  holding x.held (runConstructor exec x.candidates.owner x.overload x.binding.values)

/-- What is passed to a constructor is in use with the arguments. -/
theorem covers (x : Selected s cls args) : ∀ v ∈ x.binding.values, s.Covers args.values v := by
  refine Cells.covers_pick rfl (fun v hv => State.covers_of_mem_hand hv) ?_ x.pick_eq
  intro o ho v hv
  exact covers_of_mem_classes (ClassTable.mem_heldValues_of_findConstructors x.candidates_eq ho hv)

theorem traced_run (x : Selected s cls args) (hR : Steady R G) (hpass : Delivery.MayPass R x.binding.values) :
    Traced R G exec (fun exec => x.run exec) s :=
  (traced_runConstructor hR hpass).holding hR

theorem obeys_run (x : Selected s cls args) (hobeys : Obeys G exec (fun exec => construct exec cls args) s) :
    Obeys G exec (fun exec => x.run exec) s := by
  have hdescriptor : (ofExcept (s.classes.descriptor cls)).outcome s = (.ok x.c, s) := by
    rw [x.descriptor_eq]
    rfl
  have hfind : (orFail (.noSuchMethod x.c.name "new") (s.classes.findConstructors x.c.id)).outcome s =
      (.ok x.candidates, s) := by
    rw [x.candidates_eq]
    rfl
  have hpick : (ofExcept (Selection.pick s.toWorld x.candidates.owner "new" x.candidates.overloads args)).outcome s =
      (.ok (x.overload, x.binding), s) := by
    rw [x.pick_eq]
    rfl
  have hruns := x.runs
  rw [Obeys, construct, outcome_get_bind, outcome_bind_of_ok hdescriptor] at hobeys
  simp only [if_neg hruns] at hobeys
  rw [constructWith, outcome_get_bind, outcome_bind_of_ok hfind, outcome_bind_of_ok hpick] at hobeys
  exact ended_of_bind hobeys

end Selected

/-- A construction comes to its end, as it is deferred or its constructor has returned, but the object cannot be
registered. -/
def FailsToRegister (exec : Exec) (cls : ClassId) (args : CallArgs) (s : State) (e : Error) (t : State) : Prop :=
  (args.isEmpty = true ∧ (s.classes.findLazy cls).isSome = true ∨
    ∃ (x : Selected s cls args) (left : NativeState × List Value) (s₁ : State),
      (x.run exec).outcome s = (.ok left, s₁)) ∧
  ∃ new, t.arena.register new = .error e

/-- The last part of a construction fails at the registration, and nothing comes up. -/
theorem register_of_raised {held : List Value} {c : ClassInfo} {native : Option NativeState} {keep : Keep}
    {overrides : Option Overrides} {after : CallArgs}
    (hrun : (do
      holding held Lifetime.countConstruction
      let h ← Lifetime.registerAs c native keep overrides
      return (h, after)).outcome s = (.error (.raised e), t)) :
    (∃ new, t.arena.register new = .error e) ∧ ∀ r, s.arena.get? r = none → t.arena.get? r = none := by
  rcases cases_of_outcome_bind_error hrun with hcount | ⟨_, s₁, hcount, hregister⟩
  · obtain ⟨s₁, hinner, -⟩ := exists_of_outcome_holding_raised hcount
    exact absurd rfl ((Lifetime.get?_of_countConstruction hinner).1 e)
  · obtain ⟨s₁', hinner, rfl⟩ := exists_of_outcome_holding hcount
    have hget := (Lifetime.get?_of_countConstruction hinner).2
    rcases cases_of_outcome_bind_error hregister with hfails | ⟨h, s₂, -, hpure⟩
    · obtain ⟨rfl, new, e', hnew, he⟩ := Lifetime.eq_of_raised_registerAs hfails
      obtain rfl := Fault.raised.inj he
      refine ⟨⟨new, hnew⟩, fun r hnone => Option.eq_none_iff_forall_ne_some.mpr fun i hi => ?_⟩
      have hold : s.arena.get? r = some i := hget r i hi
      rw [hnone] at hold
      cases hold
    · cases hpure

/-- A construction fails at once, or in its constructor, or at the registration. -/
theorem cases_of_raised (hrun : (construct exec cls args).outcome s = (.error (.raised e), t)) :
    t = s ∨ (∃ x : Selected s cls args, (x.run exec).outcome s = (.error (.raised e), t)) ∨
      FailsToRegister exec cls args s e t ∧ ((∀ r, s.arena.get? r = none → t.arena.get? r = none) ∨
        ∃ (x : Selected s cls args) (left : NativeState × List Value) (s₁ : State),
          (x.run exec).outcome s = (.ok left, s₁) ∧ ∀ r, s₁.arena.get? r = none → t.arena.get? r = none) := by
  rw [construct, outcome_get_bind] at hrun
  rcases (reads_ofExcept _).cases_of_outcome_bind_error hrun with heq | ⟨c, hdescriptor, hrun⟩
  · exact Or.inl heq
  obtain ⟨hclass, -⟩ := eq_of_outcome_ofExcept hdescriptor
  split at hrun
  · rename_i hdeferred
    obtain ⟨hempty, hlazy⟩ := Bool.and_eq_true_iff.mp hdeferred
    obtain ⟨hnew, hvacant⟩ := register_of_raised hrun
    exact Or.inr (Or.inr ⟨⟨Or.inl ⟨hempty, hlazy⟩, hnew⟩, Or.inl hvacant⟩)
  · rename_i hruns
    rw [constructWith, outcome_get_bind] at hrun
    rcases (reads_orFail _ _).cases_of_outcome_bind_error hrun with heq | ⟨candidates, hfind, hrun⟩
    · exact Or.inl heq
    obtain ⟨hfound, -⟩ := eq_of_outcome_orFail hfind
    rcases (reads_ofExcept _).cases_of_outcome_bind_error hrun with heq | ⟨⟨overload, binding⟩, hpick, hrun⟩
    · exact Or.inl heq
    obtain ⟨hpicked, -⟩ := eq_of_outcome_ofExcept hpick
    let x : Selected s cls args := ⟨c, candidates, overload, binding, hclass, hfound, hpicked, hruns⟩
    -- Either the body fails, or what is left to fail is the registering.
    rcases cases_of_outcome_bind_error hrun with hbody | ⟨⟨state, updated⟩, s₁, hbody, hrest⟩
    · exact Or.inr (Or.inl ⟨x, hbody⟩)
    · obtain ⟨after, cells, hsettle⟩ := Delivery.exists_outcome_settle overload.sig.params binding.sources updated
        args s₁
      rw [outcome_bind_of_ok hsettle] at hrest
      obtain ⟨hnew, hvacant⟩ := register_of_raised hrest
      exact Or.inr (Or.inr ⟨⟨Or.inr ⟨x, _, s₁, hbody⟩, hnew⟩, Or.inr ⟨x, _, s₁, hbody, hvacant⟩⟩)

/-- A construction ends as it does without a guard that does not stop it. -/
theorem traced_construct :
    Traced (fun _ _ => True) G exec (fun exec => construct exec cls args) s := by
  have hR : Steady (fun _ _ => True) G := steady_anything G
  refine traced_get (traced_bind_of_reads hR (reads_ofExcept _) fun c _ => ?_)
  split
  · exact traced_of_step trivial
  · refine traced_get (traced_bind_of_reads hR (reads_orFail _ _) fun candidates _ => ?_)
    refine traced_bind_of_reads hR (reads_ofExcept _) fun picked _ => ?_
    refine ((traced_runConstructor hR (Delivery.mayPass_anything _)).holding hR).bind hR fun left t _ => ?_
    exact traced_of_step trivial

/-- A construction that fails has done what may be done before the arguments are written back. -/
theorem related_of_raised (hR : Steady R G) (hpass : ∀ x : Selected s cls args, Delivery.MayPass R x.binding.values)
    (hobeys : Obeys G exec (fun exec => construct exec cls args) s)
    (hrun : (construct exec cls args).outcome s = (.error (.raised e), t)) :
    R s t ∨ FailsToRegister exec cls args s e t := by
  rcases cases_of_raised hrun with rfl | ⟨x, hbody⟩ | ⟨hfails, -⟩
  · exact Or.inl (hR.refl _)
  · exact Or.inl ((x.traced_run hR (hpass x)).related_of_outcome (x.obeys_run hobeys) hbody)
  · exact Or.inr hfails

/-- An object that comes up while a constructor runs is a copy that was made to be passed to it, if no body makes
it. -/
theorem Selected.copiedFor_of_run (x : Selected s cls args) {result : Except Fault (NativeState × List Value)}
    (hobeys : Obeys (World.KeepsVacant r) exec (fun exec => x.run exec) s)
    (hrun : (x.run exec).outcome s = (result, t)) (hs : s.arena.get? r = none) (ht : t.arena.get? r ≠ none) :
    Delivery.CopiedFor exec (withHeld s x.held) x.overload.sig.params x.binding.values r := by
  have hinner := toWorld_outcome_holding (runConstructor exec x.candidates.owner x.overload x.binding.values) x.held s
  have hend : ((x.run exec).outcome s).2.arena.get? r ≠ none := by
    rw [hrun]
    exact ht
  rw [Selected.run, hinner] at hend
  have hobeys' := hobeys.of_within
  rcases hprepare : (Delivery.prepare exec x.overload.sig.params x.binding.values).outcome (withHeld s x.held)
    with ⟨result₁, s₁⟩
  -- If the arguments did not bring the object up, what runs afterwards would have to.
  by_cases hs₁ : s₁.arena.get? r = none
  · refine absurd ?_ hend
    cases result₁ with
    | error fault =>
        rw [runConstructor, outcome_bind, hprepare]
        exact hs₁
    | ok us =>
        have hfirst : Traced (fun _ _ => True) (World.KeepsVacant r) exec
            (fun exec => Delivery.prepare exec x.overload.sig.params x.binding.values) (withHeld s x.held) :=
          Delivery.traced_prepare (steady_anything _) (Delivery.mayPass_anything _) _
        have hrest := (traced_constructor (World.steady_keepsVacant r) _ x.overload us).related_of_outcome
          (hfirst.obeys_of_bind hobeys' hprepare) (Prod.eta _).symm
        rw [runConstructor, outcome_bind_of_ok hprepare]
        exact hrest hs₁
  · exact Delivery.copiedFor_of_prepare hobeys'.of_bind hprepare hs hs₁

/-- An object that comes up in a construction that fails is a copy that was made to be passed to the constructor, if
no body makes it. -/
theorem copiedFor_of_raised (hobeys : Obeys (World.KeepsVacant r) exec (fun exec => construct exec cls args) s)
    (hrun : (construct exec cls args).outcome s = (.error (.raised e), t)) (hs : s.arena.get? r = none)
    (ht : t.arena.get? r ≠ none) : ∃ x : Selected s cls args,
      Delivery.CopiedFor exec (withHeld s x.held) x.overload.sig.params x.binding.values r := by
  rcases cases_of_raised hrun with rfl | ⟨x, hbody⟩ | ⟨-, hvacant | ⟨x, left, s₁, hbody, hvacant⟩⟩
  · exact absurd hs ht
  · exact ⟨x, x.copiedFor_of_run (x.obeys_run hobeys) hbody hs ht⟩
  · exact absurd (hvacant r hs) ht
  · exact ⟨x, x.copiedFor_of_run (x.obeys_run hobeys) hbody hs fun hnone => ht (hvacant r hnone)⟩

end Construction

end ObjectBridge
