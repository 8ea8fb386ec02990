import ObjectBridge.Proofs.Arena.Flags
import ObjectBridge.Proofs.Call.Binding
import ObjectBridge.Proofs.Call.Choice
import ObjectBridge.Proofs.Call.Failing
import ObjectBridge.Proofs.Call.Lent
import ObjectBridge.Proofs.Call.Selection

/-!
# Calls through const handles

A call through a const handle selects among the const overloads and runs the body for the very handle.  The handle is
const when the body starts, as neither the selection nor the copies of arguments change a flag.

* `Run.readOnly` — bodies that run for an object only as long as its handle is const.
* `runNative_readOnly` and the lemmas after it — what runs for no object is not concerned.
* `constOverloads` and `select_constOverloads` — the overloads that a const handle can select.
* `constProxies_of_prepare` — the copies of arguments leave all flags alone.
* `outcome_execute_readOnly` and `outcome_withStream_readOnly` — the body of a call starts with a const handle.
-/

namespace ObjectBridge

open Run

variable {exec : Exec} {s t u : State} {h : Handle} {method : String} {args : CallArgs}

namespace Run

/-- Run bodies for an object only through a handle, and only while it is const. A body for anything else that has a
receiver is stopped before it starts. -/
def readOnly (h : Handle) (exec : Exec) : Exec := fun code => do
  let s ← get
  match s.activations.head?.bind Activation.receiver with
  | none => exec code
  | some recv => if recv = h ∧ s.isConst h = true then exec code else throw .exhausted

theorem outcome_readOnly_of_free (hfree : s.activations.head?.bind Activation.receiver = none) (code : Code) :
    (readOnly h exec code).outcome s = (exec code).outcome s := by
  rw [readOnly, outcome_get_bind, hfree]

theorem outcome_readOnly_of_const (hrecv : s.activations.head?.bind Activation.receiver = some h)
    (hconst : s.isConst h = true) (code : Code) :
    (readOnly h exec code).outcome s = (exec code).outcome s := by
  rw [readOnly, outcome_get_bind, hrecv]
  simp only [hconst, and_self, if_true]

/-- Host code runs for a const handle. -/
theorem outcome_invoke_readOnly (hconst : s.isConst h = true) (f : Callable) (values : List Value) :
    (invoke (readOnly h exec) f (some h) values).outcome s = (invoke exec f (some h) values).outcome s := by
  refine outcome_within_congr (outcome_within_congr (outcome_bind_congr ?_ fun _ _ _ => rfl))
  apply outcome_readOnly_of_const
  · rfl
  · exact hconst

end Run

/-! ## What runs for no object -/

namespace Lifetime

theorem runNative_readOnly (values : List Value) (code : Code) :
    runNative (readOnly h exec) none values code = runNative exec none values code := by
  refine eq_of_outcome_eq fun s => ?_
  rw [outcome_runNative, outcome_runNative, outcome_readOnly_of_free rfl]

theorem materialize_readOnly : materialize (readOnly h exec) = materialize exec := by
  funext g operation
  simp only [materialize, runNative_readOnly]

theorem dup_readOnly : dup (readOnly h exec) = dup exec := by
  funext g
  simp only [dup, materialize_readOnly]

/-- A native body runs for a const handle. -/
theorem outcome_runNative_readOnly (hconst : s.isConst h = true) (values : List Value) (code : Code) :
    (runNative (readOnly h exec) (some h) values code).outcome s =
      (runNative exec (some h) values code).outcome s := by
  refine outcome_within_congr (outcome_within_congr (outcome_bind_congr ?_ fun _ _ _ => rfl))
  apply outcome_readOnly_of_const
  · rfl
  · exact hconst

end Lifetime

namespace Delivery

theorem prepare_readOnly : prepare (readOnly h exec) = prepare exec := by
  funext params
  induction params with
  | nil => rfl
  | cons p params ih =>
      funext values
      cases values with
      | nil => rfl
      | cons v rest => simp only [prepare, prepareObject, Lifetime.dup_readOnly, ih]

theorem give_readOnly (owner method : String) (type : Ty) :
    give (readOnly h exec) owner method type = give exec owner method type := by
  induction type with
  | object cls =>
      funext passing v
      cases v <;> simp only [give, giveObject, Lifetime.dup_readOnly]
  | list item ih =>
      funext passing v
      cases v <;> simp only [give, ih]
  | _ => rfl

theorem giveBack_readOnly : giveBack (readOnly h exec) = giveBack exec := by
  funext result owner method v
  cases result with
  | none => rfl
  | some declared => simp only [giveBack, give_readOnly]

/-! ## Copies of arguments -/

/-- A copy has a proxy of its own, so all flags stay as they are. -/
theorem mayPass_constProxies (values : List Value) :
    MayPass (fun s t => t.arena.constProxies = s.arena.constProxies) values where
  copy := by
    rintro s t k copy - ⟨i, state, c, arena, -, -, hreg, rfl⟩
    exact (Arena.constProxies_register hreg).1
  box _ _ := rfl

theorem steady_constProxies :
    Steady (fun s t => t.arena.constProxies = s.arena.constProxies) fun _ _ => False :=
  steady_of_world (R := fun w w' => w'.arena.constProxies = w.arena.constProxies) (fun _ => rfl)
    (fun hfirst hrest => hrest.trans hfirst) False.elim fun hnothing => hnothing.elim

/-- Arguments are copied without a change of any flag, as long as no deferred constructor runs. -/
theorem constProxies_of_prepare {params : List Param} {values : List Value} {r : Except Fault (List Value)}
    (hquiet : ((prepare noBody params values).outcome s).1 ≠ .error .exhausted)
    (hrun : (prepare exec params values).outcome s = (r, t)) :
    t.arena.constProxies = s.arena.constProxies :=
  (traced_prepare steady_constProxies (mayPass_constProxies values) params).related_of_outcome
    (obeys_nothing_iff.mpr hquiet) hrun

/-- The arguments that a body gets for non-const objects are the bound ones, not copies. -/
theorem eq_of_prepare {params : List Param} {values us : List Value}
    (hrun : (prepare exec params values).outcome s = (.ok us, t)) {p : Param} {v : Value}
    (hv : (p, v) ∈ params.zip us) (haliases : p.passing.writesBack = true) : (p, v) ∈ params.zip values := by
  induction params generalizing values us s t with
  | nil => cases hv
  | cons q params ih =>
      cases values with
      | nil =>
          obtain ⟨rfl, -⟩ := eq_of_outcome_pure hrun
          cases hv
      | cons w rest =>
          rw [prepare_cons] at hrun
          obtain ⟨x, s₁, hone, hrun⟩ := exists_of_outcome_bind hrun
          obtain ⟨xs, s₂, hrest, hrun⟩ := exists_of_outcome_bind hrun
          obtain ⟨rfl, -⟩ := eq_of_outcome_pure hrun
          rw [List.zip_cons_cons, List.mem_cons] at hv ⊢
          rcases hv with hv | hv
          · obtain ⟨rfl, rfl⟩ := Prod.mk.inj hv
            obtain ⟨s₃, hone, -⟩ := exists_of_outcome_holding hone
            unfold prepareOne at hone
            -- What writes back is passed as it is, so the prepared value is the given one.
            refine Or.inl (congrArg (Prod.mk p) ?_)
            split at hone
            · cases hpassing : p.passing with
              | ref | ptr =>
                  rw [hpassing] at hone
                  exact (eq_of_outcome_pure hone).1.symm
              | value | constRef | constPtr =>
                  rw [hpassing] at haliases
                  cases haliases
            · exact (eq_of_outcome_pure hone).1.symm
          · obtain ⟨s₃, hrest, -⟩ := exists_of_outcome_holding hrest
            exact Or.inr (ih hrest hv)

end Delivery

/-! ## Streams -/

namespace Stream

theorem collect_readOnly (result : Result) (owner method : String) :
    collect (readOnly h exec) result owner method = collect exec result owner method := by
  funext stream
  induction stream using collect.induct with
  | case1 stream hnext => rw [collect_of_none hnext, collect_of_none hnext]
  | case2 stream item rest hnext ih =>
      rw [collect_of_some hnext, collect_of_some hnext, ih, Delivery.giveBack_readOnly]

theorem drive_readOnly (result : Result) (owner method : String) (block : Value → Run (Option Value)) :
    drive (readOnly h exec) result owner method block = drive exec result owner method block := by
  funext stream
  induction stream using drive.induct with
  | case1 stream hnext => rw [drive_of_none hnext, drive_of_none hnext]
  | case2 stream item rest hnext ih =>
      rw [drive_of_some hnext, drive_of_some hnext, ih, Delivery.giveBack_readOnly]

/-- An enumerable body runs for a const handle, if no deferred constructor runs before. -/
theorem outcome_withStream_readOnly {α : Type} {overload : Overload} {values : List Value}
    (hconst : s.isConst h = true)
    (hquiet : ((Delivery.prepare noBody overload.sig.params values).outcome s).1 ≠ .error .exhausted)
    (act : Stream → Run α) :
    (withStream (readOnly h exec) h overload method values act).outcome s =
      (withStream exec h overload method values act).outcome s := by
  unfold withStream
  rw [Delivery.prepare_readOnly]
  split
  · refine outcome_bind_congr rfl fun us u hprepare => ?_
    have hstays : u.isConst h = true := by
      rw [World.isConst, Arena.isConst, Delivery.constProxies_of_prepare hquiet hprepare]
      exact hconst
    exact outcome_bind_congr (Lifetime.outcome_runNative_readOnly hstays us _) fun _ _ _ => rfl
  · rfl

end Stream

namespace Dispatch

/-! ## Selection -/

theorem choose_readOnly : choose (readOnly h exec) = choose exec := by
  funext recv method args
  simp only [choose, Lifetime.materialize_readOnly]

/-- The const overloads that are not static, in their order. -/
def constOverloads (overloads : List Overload) : List Overload :=
  overloads.filter fun o => !o.sig.isStatic && o.sig.isConst

theorem eligible_of_isConst (hconst : s.isConst h = true) (overloads : List Overload) :
    eligible s h overloads = constOverloads overloads := by
  rw [eligible, if_pos hconst, constOverloads, List.filter_filter]
  exact List.filter_congr fun o _ => Bool.and_comm ..

/-! ## Bodies -/

/-- An override runs for a const handle. -/
theorem outcome_runOverride_readOnly (hconst : s.isConst h = true) (f : Callable) (params : List Param)
    (values : List Value) :
    (runOverride (readOnly h exec) h f params values).outcome s =
      (runOverride exec h f params values).outcome s := by
  refine outcome_bind_congr rfl fun sent u hsent => ?_
  -- Boxes are made for the override, and nothing else changes.
  have hstays : u.isConst h = true := by
    rw [Delivery.outcome_outward] at hsent
    obtain ⟨-, rfl⟩ := Prod.mk.inj hsent
    exact hconst
  refine outcome_bind_congr (outcome_within_congr ?_) fun _ _ _ => rfl
  rw [inHostFrame, inHostFrame, outcome_get_bind, outcome_get_bind]
  split
  · rfl
  · apply outcome_within_congr
    apply outcome_invoke_readOnly
    exact hstays

/-- An override stands in for the object that is called. -/
theorem eq_of_overrideFor {sig : Signature} {allowOverride : Bool} {k : Handle} {f : Callable}
    (hrun : (overrideFor (some h) sig method allowOverride).outcome s = (.ok (some (k, f)), t)) : k = h := by
  rw [overrideFor] at hrun
  by_cases hstands : (allowOverride && sig.isVirtual) = true
  · rw [if_pos hstands] at hrun
    obtain ⟨i, u, -, hrun⟩ := exists_of_outcome_bind hrun
    obtain ⟨hfound, -⟩ := eq_of_outcome_pure hrun
    obtain ⟨g, -, hg⟩ := Option.map_eq_some_iff.mp hfound
    exact (Prod.mk.inj hg).1.symm
  · rw [if_neg hstands] at hrun
    cases (eq_of_outcome_pure hrun).1

/-- The body of a call or its override runs for a const handle, if no deferred constructor runs before. -/
theorem outcome_runBody_readOnly {chosen : Selected} (hconst : s.isConst h = true)
    (hquiet : ((Delivery.prepare noBody chosen.overload.sig.params chosen.binding.values).outcome s).1 ≠
      .error .exhausted) (allowOverride : Bool) :
    (runBody (readOnly h exec) (some h) chosen method allowOverride).outcome s =
      (runBody exec (some h) chosen method allowOverride).outcome s := by
  unfold runBody
  rw [Delivery.prepare_readOnly]
  refine outcome_bind_congr rfl fun us u hprepare => ?_
  -- Where no code runs, passing the arguments clears no flag.
  have hstays : u.isConst h = true := by
    rw [World.isConst, Arena.isConst, Delivery.constProxies_of_prepare hquiet hprepare]
    exact hconst
  refine outcome_bind_congr rfl fun standIn v hstandIn => ?_
  obtain ⟨r, hr⟩ := reads_overrideFor (some h) chosen.overload.sig method allowOverride u
  obtain rfl := (Prod.mk.inj (hstandIn.symm.trans hr)).2
  cases standIn with
  | some standIn =>
      obtain ⟨k, f⟩ := standIn
      obtain rfl := eq_of_overrideFor hstandIn
      exact outcome_runOverride_readOnly hstays f _ us
  | none =>
      dsimp only
      split
      · exact outcome_bind_congr (Lifetime.outcome_runNative_readOnly hstays us _) fun _ _ _ => rfl
      · rfl

theorem outcome_execute_readOnly {chosen : Selected} (hconst : s.isConst h = true)
    (hquiet : ((Delivery.prepare noBody chosen.overload.sig.params chosen.binding.values).outcome
      (withHeld s args.values)).1 ≠ .error .exhausted) (allowOverride : Bool) :
    (execute (readOnly h exec) (some h) chosen method args allowOverride).outcome s =
      (execute exec (some h) chosen method args allowOverride).outcome s := by
  have hbody : (runBody (readOnly h exec) (some h) chosen method allowOverride).outcome (withHeld s args.values) =
      (runBody exec (some h) chosen method allowOverride).outcome (withHeld s args.values) :=
    outcome_runBody_readOnly (s := withHeld s args.values) hconst hquiet allowOverride
  unfold execute
  rw [Delivery.giveBack_readOnly]
  exact outcome_bind_congr (outcome_within_congr hbody) fun _ _ _ => rfl

end Dispatch

end ObjectBridge
