import ObjectBridge.Proofs.Arena.Balance
import ObjectBridge.Proofs.Call.Deferral
import ObjectBridge.Proofs.Call.Guarded

/-!
# Operations on two objects that fail

To assign one object to another, and to compare two objects, each of them must have its native state.  An operand whose
construction is deferred gets it on the way, the first operand before the second one is looked at.  If the operation
fails then, the operands keep the states that they got.

* `Arena.Supplied` — an arena in which certain objects have obtained their native states, and nothing else happened.
* `Lifetime.SuppliesOperands` — what a failing operation leaves behind.
* `Lifetime.suppliesOperands_of_assign` and `Lifetime.suppliesOperands_of_equals` — both operations fail so, as long as
  the bodies that run leave the objects alone.
* `Lifetime.obeys_assign` and `Lifetime.obeys_equals` — deferred constructors that only yield a state are such bodies.
-/

namespace ObjectBridge

open Run

/-! ## Runs that fail before they change anything -/

namespace Run

variable {α β : Type} {act : Run α} {f : α → Run β}

/-- A run that comes to its end, and has changed nothing if it fails. -/
def FailsClean (act : Run α) : Prop :=
  ∀ s, (∃ x t, act.outcome s = (.ok x, t)) ∨ ∃ e, act.outcome s = (.error (.raised e), s)

theorem Reads.failsClean (hact : Reads act) : FailsClean act := by
  intro s
  obtain ⟨r, hr⟩ := hact s
  cases r with
  | ok x => exact Or.inl ⟨x, s, hr⟩
  | error e => exact Or.inr ⟨e, hr⟩

theorem Reads.failsClean_bind (hact : Reads act) (hf : ∀ x, FailsClean (f x)) : FailsClean (act >>= f) := by
  intro s
  obtain ⟨r, hr⟩ := hact s
  cases r with
  | ok x =>
      rw [outcome_bind_of_ok hr]
      exact hf x s
  | error e => exact Or.inr ⟨e, outcome_bind_of_error hr f⟩

theorem failsClean_unless {c : Prop} [Decidable c] {e : Error} {f : PUnit → Run β} (hf : ¬c → FailsClean (f ⟨⟩)) :
    FailsClean (if c then Run.fail e >>= f else f ⟨⟩) := by
  by_cases hc : c
  · rw [if_pos hc]
    exact fun _ => Or.inr ⟨e, rfl⟩
  · rw [if_neg hc]
    exact hf hc

theorem failsClean_setArena (a : Arena) : FailsClean (Run.setArena a) :=
  fun _ => Or.inl ⟨_, _, rfl⟩

theorem FailsClean.eq_of_raised (hact : FailsClean act) {s t : State} {e : Error}
    (hrun : act.outcome s = (.error (.raised e), t)) : t = s := by
  rcases hact s with ⟨x, u, hok⟩ | ⟨e', herror⟩
  · cases hrun.symm.trans hok
  · exact (Prod.mk.inj (hrun.symm.trans herror)).2

theorem FailsClean.ended (hact : FailsClean act) (s : State) : (act.outcome s).1 ≠ .error .exhausted := by
  rcases hact s with ⟨x, t, hok⟩ | ⟨e, herror⟩
  · rw [hok]
    exact fun h => by cases h
  · rw [herror]
    exact fun h => by cases h

end Run

/-! ## Arenas in which native states were added -/

namespace Arena

variable {a b c : Arena} {rs qs : List Reference} {r : Reference}

/-- The objects of certain references have obtained their native states, which their classes count.  Everything else
is as it was: the number of objects, the free slots, the serials and the const flags, the generations, the other
objects, and of the objects themselves all but the native state. -/
structure Supplied (rs : List Reference) (a b : Arena) : Prop where
  eq_of_nil : rs = [] → b = a
  frame_eq : b = { a with slots := b.slots, counts := b.counts }
  generation_eq : ∀ slot, (b.slotAt slot).generation = (a.slotAt slot).generation
  others : ∀ r, r ∉ rs → b.get? r = a.get? r
  made : ∀ r ∈ rs, ∃ i state, a.get? r = some i ∧ i.native = none ∧ b.get? r = some { i with native := some state }
  instanceCount_eq : ∀ cls,
    b.instanceCount cls = a.instanceCount cls + rs.countP fun r => (a.get? r).any fun i => i.cls == cls

theorem Supplied.nothing (a : Arena) : Supplied [] a a where
  eq_of_nil _ := rfl
  frame_eq := rfl
  generation_eq _ := rfl
  others _ _ := rfl
  made _ hr := absurd hr List.not_mem_nil
  instanceCount_eq _ := rfl

/-- An object that has its native state after the step has it from the step, or had it before. -/
theorem supplied_of_materialize {state : NativeState} (h : a.materialize r state = .ok b) :
    Supplied [] a b ∨ Supplied [r] a b := by
  obtain ⟨i, hi, ⟨-, rfl⟩ | ⟨hdeferred, rfl⟩⟩ := materialize_cases h
  · exact Or.inl (.nothing b)
  · have hslot := slotAt_setOccupant hi { i with native := some state }
    have hget := get?_setOccupant hi { i with native := some state }
    refine Or.inr ⟨fun hnil => (List.cons_ne_nil _ _ hnil).elim, rfl, fun slot => ?_, fun q hq => ?_,
      fun q hq => ?_, fun cls => ?_⟩
    · show ((a.setOccupant r.slot { i with native := some state }).slotAt slot).generation = _
      rw [hslot]
      split <;> rfl
    · have hother : q ≠ r := fun heq => hq (List.mem_singleton.mpr heq)
      exact (hget q).trans (if_neg hother)
    · obtain rfl := List.mem_singleton.mp hq
      refine ⟨i, state, hi, Option.not_isSome_iff_eq_none.mp (Bool.eq_false_iff.mp hdeferred), ?_⟩
      exact (hget q).trans (if_pos rfl)
    · rw [instanceCount_countUp (a := a) rfl]
      simp [hi]

/-- Native states stay. -/
theorem Supplied.made_of_made (h : Supplied rs a b) (hmade : Made r a) : Made r b := by
  obtain ⟨i, hi, hstate⟩ := hmade
  by_cases hr : r ∈ rs
  · obtain ⟨j, state, -, -, hj⟩ := h.made r hr
    exact ⟨_, hj, rfl⟩
  · exact ⟨i, (h.others r hr).trans hi, hstate⟩

/-- No object obtains its native state twice. -/
theorem Supplied.trans (hab : Supplied rs a b) (hbc : Supplied qs b c) : Supplied (rs ++ qs) a c := by
  -- An object of `rs` has its state when the second step begins, one of `qs` has none then.
  have hfresh (r : Reference) (hr : r ∈ qs) : r ∉ rs := by
    intro hmem
    obtain ⟨i, state, -, -, hi⟩ := hab.made r hmem
    obtain ⟨j, -, hj, hdeferred, -⟩ := hbc.made r hr
    obtain rfl := Option.some.inj (hi.symm.trans hj)
    cases hdeferred
  refine ⟨fun hnil => ?_, ?_, fun slot => (hbc.generation_eq slot).trans (hab.generation_eq slot),
    fun r hr => ?_, fun r hr => ?_, fun cls => ?_⟩
  · obtain ⟨hrs, hqs⟩ := List.append_eq_nil_iff.mp hnil
    rw [hbc.eq_of_nil hqs, hab.eq_of_nil hrs]
  · rw [hbc.frame_eq, hab.frame_eq]
  · rw [List.mem_append, not_or] at hr
    exact (hbc.others r hr.2).trans (hab.others r hr.1)
  · by_cases hlater : r ∈ qs
    · obtain ⟨i, state, hi, hdeferred, hmade⟩ := hbc.made r hlater
      exact ⟨i, state, (hab.others r (hfresh r hlater)).symm.trans hi, hdeferred, hmade⟩
    · obtain ⟨i, state, hi, hdeferred, hmade⟩ := hab.made r ((List.mem_append.mp hr).resolve_right hlater)
      exact ⟨i, state, hi, hdeferred, (hbc.others r hlater).trans hmade⟩
  · have hsame : qs.countP (fun r => (b.get? r).any fun i => i.cls == cls) =
        qs.countP fun r => (a.get? r).any fun i => i.cls == cls :=
      List.countP_congr fun r hr => by rw [hab.others r (hfresh r hr)]
    rw [hbc.instanceCount_eq, hab.instanceCount_eq, hsame, List.countP_append, Nat.add_assoc]

end Arena

/-! ## Deferred constructors -/

/-- The objects are left alone. -/
def World.SameArena (w w' : World) : Prop :=
  w'.arena = w.arena

/-- All deferred constructors of the classes do nothing but to yield a native state. -/
def ClassTable.DefersQuietly (t : ClassTable) (exec : Exec) : Prop :=
  ∀ cls l, t.findLazy cls = some l → ∀ u : State, u.classes = t → u.stepsLeft = none →
    ∃ state, l.Yields state exec u

namespace Lifetime

variable {exec : Exec} {s t : State} {h k : Handle} {operation : String} {e : Error}

/-- A native body that is allowed to run leaves the objects alone. -/
theorem arena_runNative {code : Code}
    (hobeys : Obeys World.SameArena exec (fun exec => runNative exec none [] code) s) :
    ((runNative exec none [] code).outcome s).2.arena = s.arena := by
  by_cases hallowed : World.SameArena s.toWorld ((exec code).outcome (nativeStart s none [])).2.toWorld
  · rw [outcome_runNative]
    rcases hrun : (exec code).outcome (nativeStart s none []) with ⟨r, t⟩
    rw [hrun] at hallowed
    match r with
    | .ok () => exact hallowed
    | .error (.raised e) => exact hallowed
    | .error .exhausted => exact hallowed
  · refine absurd ?_ hobeys
    rw [outcome_runNative, outcome_guarded_of_not_allowed (s := nativeStart s none []) hallowed]

/-- An operand that a guard does not stop ends as it does without the guard. -/
theorem traced_anything (h : Handle) (operation : String) (s : State) :
    Traced (fun _ _ => True) World.SameArena exec (fun exec => materialize exec h operation) s :=
  traced_materialize ⟨fun _ => trivial, fun _ _ => trivial, fun _ _ _ _ => trivial, fun _ => trivial,
    fun _ _ => trivial⟩ h operation

/-! ## One operand -/

theorem outcome_materialize_of_findLazy {i : Instance} (hi : s.arena.get? h.target = some i)
    (hdeferred : i.isMaterialized = false) (hlazy : s.classes.findLazy i.cls = none) (exec : Exec)
    (operation : String) : (materialize exec h operation).outcome s =
      (.error (.raised (.native ("Class " ++ h.className ++ " has no deferred constructor"))), s) := by
  rw [materialize, outcome_bind_of_ok (outcome_resolve_of_some hi operation), hdeferred]
  simp only [Bool.false_eq_true, if_false]
  rw [outcome_get_bind, hlazy]
  rfl

/-- What a constructor yields is stored as the native state of the object, if anything is stored. -/
theorem supplied_of_store {d : LazyConstructor} {body : Activation} {r : Except Fault Unit}
    (hrun : (do
      let state ← Run.ofExcept (stateOf d.shape body)
      Run.setArena (← Run.ofExcept ((← get).arena.materialize h.target state))).outcome s = (r, t)) :
    t.arena = s.arena ∨ (r = .ok () ∧ s.arena.Supplied [h.target] t.arena) := by
  cases hstate : stateOf d.shape body with
  | error e =>
      rw [hstate] at hrun
      exact Or.inl (congrArg (fun u : State => u.arena) (Prod.mk.inj hrun).2.symm)
  | ok state =>
      rw [hstate] at hrun
      have hstored : (Run.ofExcept (s.arena.materialize h.target state) >>= Run.setArena).outcome s = (r, t) := hrun
      cases hmat : s.arena.materialize h.target state with
      | error e =>
          rw [hmat] at hstored
          exact Or.inl (congrArg (fun u : State => u.arena) (Prod.mk.inj hstored).2.symm)
      | ok a =>
          rw [hmat] at hstored
          obtain ⟨rfl, rfl⟩ := Prod.mk.inj hstored
          rcases Arena.supplied_of_materialize hmat with hnothing | hsupplied
          · exact Or.inl (hnothing.eq_of_nil rfl)
          · exact Or.inr ⟨rfl, hsupplied⟩

/-- An operand that fails leaves the arena as it was; one that does not may have obtained its native state. -/
theorem supplied_of_outcome_materialize
    (hobeys : Obeys World.SameArena exec (fun exec => materialize exec h operation) s) {r : Except Fault Unit}
    (hrun : (materialize exec h operation).outcome s = (r, t)) :
    t.arena = s.arena ∨ (r = .ok () ∧ s.arena.Supplied [h.target] t.arena) := by
  have hnothing {x : Except Fault Unit} (hx : (materialize exec h operation).outcome s = (x, s)) :
      t.arena = s.arena := by
    rw [(Prod.mk.inj (hrun.symm.trans hx)).2]
  cases hi : s.arena.get? h.target with
  | none => exact Or.inl (hnothing (outcome_materialize_of_gone hi exec operation))
  | some i =>
      cases hmade : i.isMaterialized with
      | true => exact Or.inl (hnothing (outcome_materialize hi hmade operation))
      | false =>
          cases hlazy : s.classes.findLazy i.cls with
          | none => exact Or.inl (hnothing (outcome_materialize_of_findLazy hi hmade hlazy exec operation))
          | some d =>
              rw [outcome_materialize_deferred operation hi hmade hlazy, outcome_bind] at hrun
              rw [Obeys, outcome_materialize_deferred operation hi hmade hlazy] at hobeys
              have hsame := arena_runNative (ended_of_bind hobeys)
              rcases heq : (runNative exec none [] d.code).outcome s with ⟨result, u⟩
              rw [heq] at hrun hsame
              rw [← hsame]
              cases result with
              | error fault => exact Or.inl (congrArg (fun u : State => u.arena) (Prod.mk.inj hrun).2.symm)
              | ok body => exact supplied_of_store hrun

/-! ## Both operands -/

/-- What an operation on two objects leaves behind if it fails: of the operands that were live and without a native
state, some have obtained one, and the second one only after the first one had its own.  Nothing else has happened to
the objects. -/
def SuppliesOperands (h k : Handle) (s t : State) : Prop :=
  ∃ rs, rs.Sublist [h.target, k.target] ∧ s.arena.Supplied rs t.arena ∧
    (s.arena.get? h.target = none → rs = []) ∧ (k.target ∈ rs → Arena.Made h.target t.arena)

theorem suppliesOperands_of_eq (harena : t.arena = s.arena) : SuppliesOperands h k s t := by
  refine ⟨[], List.nil_sublist _, ?_, fun _ => rfl, fun hk => absurd hk List.not_mem_nil⟩
  rw [harena]
  exact .nothing _

theorem outcome_assign_of_isConst (hconst : s.isConst h = true) (exec : Exec) (k : Handle) :
    (assign exec h k).outcome s = (.error (.raised (.constViolation h.className "assign")), s) := by
  rw [assign, outcome_get_bind, if_pos hconst]
  rfl

/-- An operation that needs the native states of two objects, and then does nothing more to the arena if it fails. -/
theorem suppliesOperands_of_bind {α : Type} {rest : Run α}
    (hrun : (materialize exec h operation >>= fun _ => materialize exec k operation >>= fun _ => rest).outcome s =
      (.error (.raised e), t))
    (hobeys : Obeys World.SameArena exec
      (fun exec => materialize exec h operation >>= fun _ => materialize exec k operation >>= fun _ => rest) s)
    (hrest : FailsClean rest) : SuppliesOperands h k s t := by
  rcases cases_of_outcome_bind_error hrun with hfirst | ⟨_, u, hfirst, hrun⟩
  · rcases supplied_of_outcome_materialize hobeys.of_bind hfirst with harena | ⟨hok, -⟩
    · exact suppliesOperands_of_eq harena
    · cases hok
  · have hlive : s.arena.get? h.target ≠ none := by
      intro hgone
      rw [outcome_materialize_of_gone hgone] at hfirst
      cases hfirst
    have hobeys' := (traced_anything h operation s).obeys_of_bind hobeys hfirst
    -- The first operand has its native state by now, whatever becomes of the second.
    have hmade := made_of_materialize hfirst
    have hboth {b : Arena} {qs : List Reference} (hqs : qs.Sublist [k.target]) (hsupplied : u.arena.Supplied qs b)
        (hb : t.arena = b) : SuppliesOperands h k s t := by
      rw [← hb] at hsupplied
      rcases supplied_of_outcome_materialize hobeys.of_bind hfirst with harena | ⟨-, hfirst⟩
      · rw [harena] at hsupplied
        rw [harena] at hmade
        exact ⟨qs, hqs.trans (List.sublist_cons_self _ _), hsupplied, fun hgone => (hlive hgone).elim,
          fun _ => hsupplied.made_of_made hmade⟩
      · exact ⟨h.target :: qs, hqs.cons_cons _, hfirst.trans hsupplied, fun hgone => (hlive hgone).elim,
          fun _ => hsupplied.made_of_made hmade⟩
    rcases cases_of_outcome_bind_error hrun with hsecond | ⟨_, v, hsecond, hlast⟩
    · rcases supplied_of_outcome_materialize hobeys'.of_bind hsecond with harena | ⟨hok, -⟩
      · exact hboth (List.nil_sublist _) (.nothing _) harena
      · cases hok
    · have hkept : t.arena = v.arena := by rw [hrest.eq_of_raised hlast]
      rcases supplied_of_outcome_materialize hobeys'.of_bind hsecond with harena | ⟨-, hsupplied⟩
      · exact hboth (List.nil_sublist _) (.nothing _) (hkept.trans harena)
      · exact hboth (List.Sublist.refl _) hsupplied hkept

/-- An assignment to an object that is not const needs the native states of both objects, and then fails clean. -/
theorem exists_outcome_assign (hconst : s.isConst h = false) (k : Handle) :
    ∃ rest : Run Unit, FailsClean rest ∧ ∀ exec : Exec, (assign exec h k).outcome s =
      (materialize exec h "assign" >>= fun _ => materialize exec k "assign" >>= fun _ => rest).outcome s := by
  have hnot : ¬s.isConst h = true := by rw [hconst]; exact Bool.false_ne_true
  refine ⟨_, ?_, fun exec => by rw [assign, outcome_get_bind, if_neg hnot]⟩
  refine reads_get.failsClean_bind fun u => failsClean_unless fun _ => ?_
  split
  · exact (reads_pure _).failsClean
  · exact (reads_orFail _ _).failsClean_bind fun _ => (reads_orFail _ _).failsClean_bind fun _ =>
      failsClean_setArena _

/-- A comparison needs the native states of both objects, and then reads them. -/
theorem exists_equals (h k : Handle) : ∃ rest : Run Bool, FailsClean rest ∧ ∀ exec : Exec, equals exec h k =
    (materialize exec h "==" >>= fun _ => materialize exec k "==" >>= fun _ => rest) :=
  ⟨_, Reads.failsClean ((reads_resolve h "==").bind fun _ => (reads_resolve k "==").bind fun _ =>
    reads_get.bind fun _ => reads_pure _), fun _ => rfl⟩

theorem suppliesOperands_of_assign (hobeys : Obeys World.SameArena exec (fun exec => assign exec h k) s)
    (hrun : (assign exec h k).outcome s = (.error (.raised e), t)) : SuppliesOperands h k s t := by
  cases hconst : s.isConst h with
  | true =>
      rw [outcome_assign_of_isConst hconst] at hrun
      exact suppliesOperands_of_eq (congrArg (fun u : State => u.arena) (Prod.mk.inj hrun).2.symm)
  | false =>
      obtain ⟨rest, hrest, hassign⟩ := exists_outcome_assign hconst k
      rw [hassign] at hrun
      rw [Obeys, hassign] at hobeys
      exact suppliesOperands_of_bind hrun hobeys hrest

theorem suppliesOperands_of_equals (hobeys : Obeys World.SameArena exec (fun exec => equals exec h k) s)
    (hrun : (equals exec h k).outcome s = (.error (.raised e), t)) : SuppliesOperands h k s t := by
  obtain ⟨rest, hrest, hequals⟩ := exists_equals h k
  rw [hequals] at hrun
  rw [Obeys, hequals] at hobeys
  exact suppliesOperands_of_bind hrun hobeys hrest

/-! ## Constructors that only yield a state -/

theorem yields_guarded {l : LazyConstructor} {state : NativeState} (hyields : l.Yields state exec s) :
    l.Yields state (guarded World.SameArena exec) s := by
  obtain ⟨body, hrun, hstate, hargs⟩ := hyields
  refine ⟨body, ?_, hstate, hargs⟩
  have hinner := hrun
  rw [outcome_runNative] at hinner ⊢
  rcases hcode : (exec l.code).outcome (nativeStart s none []) with ⟨r, t⟩
  rw [hcode] at hinner
  match r with
  | .error (.raised e) => cases hinner
  | .error .exhausted => cases hinner
  | .ok () =>
      -- Ending the native frame leaves the arena, so the body had left it as well.
      have hsame : World.SameArena s.toWorld ((exec l.code).outcome (nativeStart s none [])).2.toWorld := by
        have harena : (nativeEnd t).arena = s.arena := congrArg (fun u : State => u.arena) (Prod.mk.inj hinner).2
        rw [hcode]
        exact harena
      rw [outcome_guarded_of_allowed (s := nativeStart s none []) hsame, hcode]
      exact hinner

theorem defersQuietly_guarded {c : ClassTable} (hquiet : c.DefersQuietly exec) :
    c.DefersQuietly (guarded World.SameArena exec) := by
  intro cls l hl u hu hfree
  obtain ⟨state, hyields⟩ := hquiet cls l hl u hu hfree
  exact ⟨state, yields_guarded hyields⟩

/-- Where constructors only yield a state, an operand that is asked for its native state changes the arena at most. -/
theorem exists_outcome_materialize (hquiet : s.classes.DefersQuietly exec) (hfree : s.stepsLeft = none) (h : Handle)
    (operation : String) : ∃ (r : Except Error Unit) (a : Arena),
      (materialize exec h operation).outcome s = (r.mapError .raised, { s with arena := a }) := by
  cases hi : s.arena.get? h.target with
  | none => exact ⟨.error _, s.arena, outcome_materialize_of_gone hi exec operation⟩
  | some i =>
      cases hmade : i.isMaterialized with
      | true => exact ⟨.ok (), s.arena, outcome_materialize hi hmade operation⟩
      | false =>
          cases hlazy : s.classes.findLazy i.cls with
          | none => exact ⟨.error _, s.arena, outcome_materialize_of_findLazy hi hmade hlazy exec operation⟩
          | some l =>
              obtain ⟨state, hyields⟩ := hquiet i.cls l hlazy s rfl hfree
              obtain ⟨a, -, hrun⟩ := outcome_materialize_of_yields operation hi hmade hlazy hyields
              exact ⟨.ok (), a, hrun⟩

theorem ended_of_operands {α : Type} {rest : Run α} (hquiet : s.classes.DefersQuietly exec)
    (hfree : s.stepsLeft = none) (hrest : FailsClean rest) (h k : Handle) (operation : String) :
    ((materialize exec h operation >>= fun _ => materialize exec k operation >>= fun _ => rest).outcome s).1 ≠
      .error .exhausted := by
  obtain ⟨r, a, hfirst⟩ := exists_outcome_materialize hquiet hfree h operation
  rw [outcome_bind, hfirst]
  cases r with
  | error e => exact fun h => by cases h
  | ok _ =>
      obtain ⟨r', a', hsecond⟩ := exists_outcome_materialize (s := { s with arena := a }) hquiet hfree k operation
      show ((materialize exec k operation >>= fun _ => rest).outcome { s with arena := a }).1 ≠ _
      rw [outcome_bind, hsecond]
      cases r' with
      | error e => exact fun h => by cases h
      | ok _ => exact hrest.ended _

/-- No constructor that only yields a state stops the assignment under guard. -/
theorem obeys_assign (hquiet : s.classes.DefersQuietly exec) (hfree : s.stepsLeft = none) (h k : Handle) :
    Obeys World.SameArena exec (fun exec => assign exec h k) s := by
  rw [Obeys]
  cases hconst : s.isConst h with
  | true =>
      rw [outcome_assign_of_isConst hconst]
      exact fun h => by cases h
  | false =>
      obtain ⟨rest, hrest, hassign⟩ := exists_outcome_assign hconst k
      rw [hassign]
      exact ended_of_operands (defersQuietly_guarded hquiet) hfree hrest h k "assign"

theorem obeys_equals (hquiet : s.classes.DefersQuietly exec) (hfree : s.stepsLeft = none) (h k : Handle) :
    Obeys World.SameArena exec (fun exec => equals exec h k) s := by
  obtain ⟨rest, hrest, hequals⟩ := exists_equals h k
  rw [Obeys, hequals]
  exact ended_of_operands (defersQuietly_guarded hquiet) hfree hrest h k "=="

end Lifetime

end ObjectBridge
