import ObjectBridge.Proofs.Call.Lent
import ObjectBridge.Proofs.Call.Overriding
import ObjectBridge.Proofs.Call.Spare

/-!
# Overrides that do what native bodies do

An override receives the arguments that it may change in boxes, and a native body has them in a list.  If the override
stores values in its boxes and the native body sets the same arguments to the same values, and if both return the
same result, then a caller cannot tell which of them has run.

* `Dispatch.Interchangeable` — such an override and such a native body.
* `Dispatch.Indistinguishable` — ends of a call between which there is no difference for the caller.
* `Dispatch.call_indistinguishable` — calls of virtual methods.
-/

namespace ObjectBridge.Dispatch

open Run Delivery

variable {exec : Exec} {deferred : Code → Prop} {s s₀ u : State} {recv : Handle} {f : Callable} {method : String}
  {params : List Param} {args : CallArgs} {chosen : Selected} {values : List Value} {code : Code}
  {changes : List (Nat × Value)} {r : Value}

/-- The state in which the code of an override starts, with the boxes that are lent to it. -/
def entered (recv : Handle) (params : List Param) (values : List Value) (u : State) : State :=
  { u with
    cells := u.cells ++ (outputs params values).toArray
    held := (values ++ sentFrom u.cells.size params values) :: u.held
    frames := .override recv.target :: u.frames
    hostDepth := u.hostDepth + 1 }

/-- A native body and an override make the same changes of the arguments and return the same result, and they do
nothing else. -/
structure Interchangeable (exec : Exec) (u : State) (recv : Handle) (params : List Param) (values : List Value)
    (code : Code) (f : Callable) (changes : List (Nat × Value)) (r : Value) : Prop where
  /-- Objects are no outputs, and neither is what is passed by value or by a const reference. -/
  allowed : Allowed params changes
  /-- The native body sets arguments. -/
  native : ∃ body, (Lifetime.runNative exec (some recv) values code).outcome u = (.ok body, u) ∧
    body.result = r ∧ body.args = setArgs changes values
  /-- The override stores in the boxes that it received. -/
  override : ∃ body,
    (Run.invoke exec f (some recv) (sentFrom u.cells.size params values)).outcome (entered recv params values u) =
      (.ok body, { entered recv params values u with
        cells := setBoxes (sentFrom u.cells.size params values) changes (entered recv params values u).cells }) ∧
    body.result = r

/-- Two ways in which a call may end that are the same for the caller: with the same result or error and the same
arguments, and in the same state, apart from spare cells.  The boxes of the arguments keep their numbers. -/
structure Indistinguishable (deferred : Code → Prop) (args : CallArgs)
    (first second : Except Fault (Value × CallArgs) × State) : Prop where
  result : second.1 = first.1
  state : second.2 = first.2 ∨
    ∃ n k, (∀ v ∈ args.values, v.Below n) ∧ State.Spare n k deferred first.2 second.2

theorem indistinguishable_refl (deferred : Code → Prop) (args : CallArgs)
    (ended : Except Fault (Value × CallArgs) × State) : Indistinguishable deferred args ended ended :=
  ⟨rfl, Or.inl rfl⟩

/-- The boxes of the arguments hold the same values, but for the numbers of boxes that were made meanwhile. -/
theorem Indistinguishable.content_eq {first second : Except Fault (Value × CallArgs) × State}
    (h : Indistinguishable deferred args first second) {v : Value} (hv : v ∈ args.values) {b : BoxId}
    (hb : b ∈ v.boxes) :
    ∃ n k, second.2.cells.content b = (first.2.cells.content b).renumber (Cells.skip n k) := by
  rcases h.state with hsame | ⟨n, k, hargs, hspare⟩
  · refine ⟨0, 0, ?_⟩
    rw [hsame, Value.renumber_eq_self fun c _ => ?_]
    simp [Cells.skip]
  · have hcontent := hspare.cells.content b
    rw [Cells.skip_of_lt (hargs v hv b hb)] at hcontent
    exact ⟨n, k, hcontent⟩

/-! ## Bodies -/

theorem Interchangeable.outcome_runPlain (h : Interchangeable exec u recv params values code f changes r) :
    (runPlain exec recv values code).outcome u = (.ok (r, setArgs changes values), u) := by
  obtain ⟨body, hrun, rfl, hargs⟩ := h.native
  rw [runPlain, outcome_bind_of_ok hrun, hargs]
  rfl

/-- The override makes of the arguments what it left in the boxes. -/
theorem Interchangeable.outcome_runOverride (h : Interchangeable exec u recv params values code f changes r)
    (hdepth : u.hostDepth < u.options.maxDepth) :
    (runOverride exec recv f params values).outcome u =
      (.ok (r, inward (u.cells ++ (outputs params (setArgs changes values)).toArray)
          (sentFrom u.cells.size params values) values),
        { u with cells := u.cells ++ (outputs params (setArgs changes values)).toArray }) := by
  obtain ⟨body, hrun, rfl⟩ := h.override
  have hstored : setBoxes (sentFrom u.cells.size params values) changes (entered recv params values u).cells =
      u.cells ++ (outputs params (setArgs changes values)).toArray := setBoxes_eq h.allowed rfl
  rw [hstored] at hrun
  let lent : State := { u with cells := u.cells ++ (outputs params values).toArray }
  let hand := values ++ sentFrom u.cells.size params values
  -- The frame and the values that are held are gone at the end.
  have hframe := outcome_inFrame_of_ok (u := withHeld lent hand) hrun
  have hheld := outcome_holding_of_ok (s := lent)
    ((outcome_inHostFrame_of_below (u := withHeld lent hand) _ _ hdepth).trans hframe)
  rw [runOverride, outcome_bind_of_ok (outcome_outward params values u), outcome_bind_of_ok hheld]
  rfl

/-! ## After the body -/

/-- What is done after the body does not depend on the boxes that were lent to an override. -/
theorem indistinguishable_afterBody
    (hblind : ∀ type, chosen.overload.sig.result = some (type, .value) → type.HoldsObjects → Blind exec deferred)
    (hintact : u.Intact (args.values ++ values ++ r :: changes.map Prod.snd))
    (hdeferred : ∀ id c, u.classes.findLazy id = some c → deferred c.code) :
    Indistinguishable deferred args
      (afterBody exec chosen method args (.ok (r, setArgs changes values), u))
      (afterBody exec chosen method args
        (.ok (r, inward (u.cells ++ (outputs chosen.overload.sig.params (setArgs changes values)).toArray)
            (sentFrom u.cells.size chosen.overload.sig.params values) values),
          { u with
            cells := u.cells ++ (outputs chosen.overload.sig.params (setArgs changes values)).toArray })) := by
  generalize hparams : chosen.overload.sig.params = params
  have hargs : ∀ v ∈ args.values, v.Below u.cells.size := fun v hv => hintact.below_hand (by simp [hv])
  have hset : ∀ v ∈ setArgs changes values, v.Below u.cells.size := by
    intro v hv
    refine hintact.below_hand ?_
    rcases mem_setArgs hv with hv | hv <;> simp [hv]
  have hr : r.Below u.cells.size := hintact.below_hand (by simp)
  -- The same is written back, and the boxes that were lent stay behind the others.
  let lefts := params.zip (chosen.binding.sources.zip (setArgs changes values))
  let extra : Cells := (outputs params (setArgs changes values)).toArray
  have hextra : ∀ v ∈ extra, v.Below u.cells.size :=
    fun v hv => hset v (mem_of_mem_outputs (List.mem_toArray.mp hv))
  let after := (writeBack u.cells args lefts).2
  obtain ⟨happend, hsize, hclosed, hafter⟩ := writeBack_append args lefts extra hintact.closed hargs
    fun left hleft => hset _ (List.of_mem_zip (List.of_mem_zip hleft).2).2
  let first : State := { withoutHeld u with cells := (writeBack u.cells args lefts).1 }
  let second : State := { first with cells := first.cells ++ extra }
  have hbelow : ∀ v ∈ first.inUse [], v.Below first.cells.size := by
    intro v hv
    rw [hsize]
    exact hintact.below v (List.mem_append_right _ (mem_inUse_withoutHeld (s := u) hv))
  have hspare : State.Spare first.cells.size extra.size deferred first second :=
    State.spare_append ⟨hclosed, hbelow⟩ (by rwa [hsize]) hdeferred
  have hr' : r.Below first.cells.size := by rwa [hsize]
  have hafter' : ∀ v ∈ after.values, v.Below first.cells.size := by rwa [hsize]
  have hargs' : ∀ v ∈ args.values, v.Below first.cells.size := by rwa [hsize]
  -- So the result is delivered in the same way, and no other boxes are mentioned in it.
  have hdelivered := (alike_giveBack hblind (hspare.withHeld hafter') chosen.owner method hr').holding
  rw [hr'.renumber_skip, Value.map_eq_self fun v hv => (hafter' v hv).renumber_skip extra.size] at hdelivered
  obtain ⟨result, w, w', hrun, hrun', hends, -, -⟩ := hdelivered
  have hsame : result.map (MentionsBoxes.renumber (Cells.skip first.cells.size extra.size)) = result := by
    cases result with
    | error fault => rfl
    | ok x =>
        obtain ⟨t, hgive, -⟩ := exists_of_outcome_holding hrun
        have hx : x.Below first.cells.size :=
          below_of_giveBack (s := withHeld first after.values) (Conversion.carried_below hclosed) hr' hgive
        exact congrArg Except.ok (hx.renumber_skip extra.size)
  rw [hsame] at hrun'
  have hfirst : (settle params chosen.binding.sources (setArgs changes values) args).outcome (withoutHeld u) =
      (.ok after, first) := outcome_settle _ _ _ _ _
  have hwritten : writeBack (u.cells ++ extra) args (params.zip (chosen.binding.sources.zip
      (inward (u.cells ++ extra) (sentFrom u.cells.size params values) values))) = (first.cells ++ extra, after) :=
    (writeBack_inward (length_setArgs changes values) _ _ _ args).trans happend
  have hsecond : (settle params chosen.binding.sources (inward (u.cells ++ extra)
      (sentFrom u.cells.size params values) values) args).outcome
      (withoutHeld { u with cells := u.cells ++ extra }) = (.ok after, second) := by
    have hcells : (withoutHeld { u with cells := u.cells ++ extra }).cells = u.cells ++ extra := rfl
    rw [outcome_settle, hcells, hwritten]
    rfl
  rw [afterBody, afterBody, hparams, outcome_bind_of_ok hfirst, outcome_bind_of_ok hsecond, outcome_bind,
    outcome_bind, hrun, hrun']
  cases result with
  | ok x => exact ⟨rfl, Or.inr ⟨_, _, hargs', hends⟩⟩
  | error fault => exact ⟨rfl, Or.inr ⟨_, _, hargs', hends⟩⟩

/-! ## Calls -/

/-- A call that does not come to its body does the same whether or not overrides are allowed. -/
theorem outcome_invoke_of_not_ready
    (hnot : ¬∃ chosen s₀ values u, Ready exec s recv method args chosen s₀ values u) (allowOverride : Bool) :
    (invoke exec recv method args allowOverride).outcome s = (callBase exec recv method args).outcome s := by
  rw [callBase, invoke, invoke, outcome_bind, outcome_bind]
  rcases hchoose : (holding args.values (choose exec recv method args)).outcome s with ⟨result, s₀⟩
  cases result with
  | error fault => rfl
  | ok chosen =>
      have hexecute (allowOverride : Bool) :
          (execute exec (some recv) chosen method args allowOverride).outcome s₀ =
            (execute exec (some recv) chosen method args false).outcome s₀ := by
        rw [outcome_execute, outcome_execute, runBody, runBody, outcome_bind, outcome_bind]
        rcases hprepare : (Delivery.prepare exec chosen.overload.sig.params chosen.binding.values).outcome
          (withHeld s₀ args.values) with ⟨result, u⟩
        cases result with
        | error fault => rfl
        | ok values => exact absurd ⟨chosen, s₀, values, u, hchoose, hprepare⟩ hnot
      dsimp only
      cases hbody : chosen.overload.body with
      | iterator code source => rfl
      | native code => exact hexecute allowOverride
      | constructor code shape => exact hexecute allowOverride

/-- A call of an enumerable method, or of one that is not virtual, does the same whether or not overrides are
allowed. -/
theorem Ready.outcome_invoke_of_not (hready : Ready exec s recv method args chosen s₀ values u)
    (hnot : chosen.overload.sig.isVirtual = false ∨ ∃ code source, chosen.overload.body = .iterator code source) :
    (call exec recv method args).outcome s = (callBase exec recv method args).outcome s := by
  rw [call, callBase, invoke, invoke, outcome_bind_of_ok hready.choose, outcome_bind_of_ok hready.choose]
  have hplain (hvirtual : chosen.overload.sig.isVirtual = false) :
      (execute exec (some recv) chosen method args true).outcome s₀ =
        (execute exec (some recv) chosen method args false).outcome s₀ := by
    rw [outcome_execute, outcome_execute, runBody, runBody, outcome_bind_of_ok hready.prepare,
      outcome_bind_of_ok hready.prepare, outcome_bind_of_ok (outcome_overrideFor_of_not (by simp [hvirtual])),
      outcome_bind_of_ok (outcome_overrideFor_of_not (by simp))]
  cases hbody : chosen.overload.body with
  | iterator code source => rfl
  | native code => exact hplain (hnot.resolve_right (by simp [hbody]))
  | constructor code shape => exact hplain (hnot.resolve_right (by simp [hbody]))

/-- A call of a virtual method has come to a body for which the object has an override that makes the same changes
and returns the same result. -/
structure StandsIn (exec : Exec) (deferred : Code → Prop) (u : State) (recv : Handle) (method : String)
    (args : CallArgs) (chosen : Selected) (values : List Value) : Prop where
  /-- Host code is not nested too deep. -/
  depth : u.hostDepth < u.options.maxDepth
  /-- The only bodies that may run afterwards are the deferred constructors of objects that are returned by value. -/
  blind : ∀ type, chosen.overload.sig.result = some (type, .value) → type.HoldsObjects → Blind exec deferred
  deferred : ∀ id c, u.classes.findLazy id = some c → deferred c.code
  bodies : ∃ code i f changes r, chosen.overload.body = .native code ∧ u.arena.get? recv.target = some i ∧
    (i.overrides.bind fun o => o.get? method) = some f ∧
    u.Intact (args.values ++ values ++ r :: changes.map Prod.snd) ∧
    Interchangeable exec u recv chosen.overload.sig.params values code f changes r

/-- A call of a virtual method, with any arguments, cannot be told from a call of the native body if the override makes
the same changes of the arguments and returns the same result. -/
theorem call_indistinguishable
    (hbodies : ∀ chosen s₀ values u, Ready exec s recv method args chosen s₀ values u →
      chosen.overload.sig.isVirtual = true → (∀ code source, chosen.overload.body ≠ .iterator code source) →
      StandsIn exec deferred u recv method args chosen values) :
    Indistinguishable deferred args ((callBase exec recv method args).outcome s)
      ((call exec recv method args).outcome s) := by
  by_cases hready : ∃ chosen s₀ values u, Ready exec s recv method args chosen s₀ values u
  · obtain ⟨chosen, s₀, values, u, hready⟩ := hready
    by_cases hruns : chosen.overload.sig.isVirtual = true ∧
        ∀ code source, chosen.overload.body ≠ .iterator code source
    · obtain ⟨hvirtual, hplain⟩ := hruns
      obtain ⟨hdepth, hblind, hdeferred, code, i, f, changes, r, hbody, hi, hf, hintact, hsame⟩ :=
        hbodies chosen s₀ values u hready hvirtual hplain
      rw [call, callBase, hready.outcome_invoke hbody, hready.outcome_invoke hbody,
        outcome_bind_of_ok (outcome_overrideFor hi hvirtual), hf,
        outcome_bind_of_ok (outcome_overrideFor_of_not (by simp))]
      dsimp only [Option.map_some]
      rw [hsame.outcome_runPlain, hsame.outcome_runOverride hdepth]
      exact indistinguishable_afterBody hblind hintact hdeferred
    · rw [hready.outcome_invoke_of_not]
      · exact indistinguishable_refl deferred args _
      · rcases Bool.eq_false_or_eq_true chosen.overload.sig.isVirtual with hvirtual | hplain
        · push Not at hruns
          exact Or.inr (hruns hvirtual)
        · exact Or.inl hplain
  · rw [call, outcome_invoke_of_not_ready hready]
    exact indistinguishable_refl deferred args _

end ObjectBridge.Dispatch
