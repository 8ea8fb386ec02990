import ObjectBridge.Proofs.Run.Frames

/-!
# What a run that succeeded has done

A run that ended with a result has had its parts end with results too, one after the other.  The rules say so
for each way of putting runs together.  Runs whose parts end alike end alike (`outcome_bind_congr`).
-/

namespace ObjectBridge.Run

variable {α β : Type} {s t : State}

theorem exists_of_outcome_bind {act : Run α} {f : α → Run β} {y : β}
    (hrun : (act >>= f).outcome s = (.ok y, t)) :
    ∃ x s', act.outcome s = (.ok x, s') ∧ (f x).outcome s' = (.ok y, t) := by
  rw [outcome_bind] at hrun
  rcases heq : act.outcome s with ⟨result, s'⟩
  rw [heq] at hrun
  cases result with
  | ok x => exact ⟨x, s', rfl, hrun⟩
  | error fault => cases hrun

/-- Of two runs, one after the other, the first one fails or the second one. -/
theorem cases_of_outcome_bind_error {act : Run α} {f : α → Run β} {fault : Fault}
    (hrun : (act >>= f).outcome s = (.error fault, t)) :
    act.outcome s = (.error fault, t) ∨
      ∃ x s', act.outcome s = (.ok x, s') ∧ (f x).outcome s' = (.error fault, t) := by
  rw [outcome_bind] at hrun
  rcases heq : act.outcome s with ⟨result, s'⟩
  rw [heq] at hrun
  cases result with
  | ok x => exact Or.inr ⟨x, s', rfl, hrun⟩
  | error fault' =>
      obtain ⟨hfault, rfl⟩ := Prod.mk.inj hrun
      exact Or.inl (by rw [Except.error.inj hfault])

/-- If the first one only reads, the second one starts in the same state. -/
theorem Reads.cases_of_outcome_bind_error {act : Run α} (hact : Reads act) {f : α → Run β} {fault : Fault}
    (hrun : (act >>= f).outcome s = (.error fault, t)) :
    t = s ∨ ∃ x, act.outcome s = (.ok x, s) ∧ (f x).outcome s = (.error fault, t) := by
  obtain ⟨r, hr⟩ := hact s
  rcases Run.cases_of_outcome_bind_error hrun with hfirst | ⟨x, s', hfirst, hrest⟩
  · exact Or.inl (Prod.mk.inj (hfirst.symm.trans hr)).2
  · obtain rfl := (Prod.mk.inj (hfirst.symm.trans hr)).2
    exact Or.inr ⟨x, hfirst, hrest⟩

theorem outcome_bind_of_ok {act : Run α} {x : α} (hrun : act.outcome s = (.ok x, t)) (f : α → Run β) :
    (act >>= f).outcome s = (f x).outcome t := by
  rw [outcome_bind, hrun]

theorem outcome_bind_of_error {act : Run α} {fault : Fault} (hrun : act.outcome s = (.error fault, t))
    (f : α → Run β) : (act >>= f).outcome s = (.error fault, t) := by
  rw [outcome_bind, hrun]

theorem eq_of_outcome_pure {x y : α} (hrun : (pure x : Run α).outcome s = (.ok y, t)) :
    x = y ∧ s = t := by
  obtain ⟨hx, hs⟩ := Prod.mk.inj hrun
  exact ⟨Except.ok.inj hx, hs⟩

theorem outcome_get_bind (f : State → Run β) : (get >>= f).outcome s = (f s).outcome s := rfl

theorem eq_of_outcome_ofExcept {r : Except Error α} {x : α}
    (hrun : (ofExcept r).outcome s = (.ok x, t)) : r = .ok x ∧ s = t := by
  rw [outcome_ofExcept] at hrun
  cases r with
  | ok y =>
      obtain ⟨hx, hs⟩ := Prod.mk.inj hrun
      exact ⟨congrArg Except.ok (Except.ok.inj hx), hs⟩
  | error e => cases hrun

theorem eq_of_outcome_orFail {e : Error} {o : Option α} {x : α}
    (hrun : (orFail e o).outcome s = (.ok x, t)) : o = some x ∧ s = t := by
  rw [outcome_orFail] at hrun
  cases o with
  | some y =>
      obtain ⟨hx, hs⟩ := Prod.mk.inj hrun
      exact ⟨congrArg some (Except.ok.inj hx), hs⟩
  | none => cases hrun

theorem not_outcome_fail {e : Error} {x : α} (hrun : (fail e : Run α).outcome s = (.ok x, t)) :
    False := by
  cases hrun

/-- A run that fails under a condition goes on if it succeeds. -/
theorem outcome_of_unless {c : Prop} [Decidable c] {e : Error} {f : PUnit → Run β} {y : β}
    (hrun : (if c then fail e >>= f else f ⟨⟩).outcome s = (.ok y, t)) :
    ¬c ∧ (f ⟨⟩).outcome s = (.ok y, t) := by
  by_cases hc : c
  · rw [if_pos hc] at hrun
    obtain ⟨x, s', hfail, -⟩ := exists_of_outcome_bind hrun
    exact (not_outcome_fail hfail).elim
  · rw [if_neg hc] at hrun
    exact ⟨hc, hrun⟩

theorem exists_of_outcome_within {act : Run α} {enter leave : State → State} {x : α}
    (hrun : (within enter leave act).outcome s = (.ok x, t)) :
    ∃ t', act.outcome (enter s) = (.ok x, t') ∧ t = leave t' := by
  rw [outcome_within] at hrun
  rcases heq : act.outcome (enter s) with ⟨result, t'⟩
  rw [heq] at hrun
  cases result with
  | ok y =>
      obtain ⟨hx, ht⟩ := Prod.mk.inj hrun
      exact ⟨t', by rw [Except.ok.inj hx], ht.symm⟩
  | error fault => cases fault <;> cases hrun

/-- The state in which a run starts while values stay in use. -/
def withHeld (s : State) (values : List Value) : State :=
  { s with held := values :: s.held }

/-- The state in which a run that values stayed in use for has ended. -/
def withoutHeld (s : State) : State :=
  { s with held := s.held.tail }

theorem mem_roots_withoutHeld {v : Value} (hv : v ∈ (withoutHeld s).roots) : v ∈ s.roots := by
  have htail : v ∈ s.held.tail.flatten → v ∈ s.held.flatten := by
    simp only [List.mem_flatten]
    rintro ⟨vs, hvs, hv⟩
    exact ⟨vs, List.mem_of_mem_tail hvs, hv⟩
  simp only [State.mem_roots_iff, withoutHeld] at hv ⊢
  tauto

theorem mem_inUse_withoutHeld {hand : List Value} {v : Value}
    (hv : v ∈ (withoutHeld s).inUse hand) : v ∈ s.inUse hand :=
  State.mem_inUse_iff.mpr ((State.mem_inUse_iff.mp hv).imp_right fun hv => hv.imp_left mem_roots_withoutHeld)

/-- A result that is only wrapped is wrapped, and the state is the same. -/
theorem outcome_map (act : Run α) (g : α → β) (s : State) :
    (act >>= fun x => pure (g x)).outcome s = (act.outcome s).map (Except.map g) id := by
  rw [outcome_bind]
  rcases act.outcome s with ⟨result, t⟩
  cases result <;> rfl

theorem state_outcome_map (act : Run α) (g : α → β) (s : State) :
    ((act >>= fun x => pure (g x)).outcome s).2 = (act.outcome s).2 :=
  congrArg Prod.snd (outcome_map act g s)

/-- The end of a run for which the state is changed back, unless the run is exhausted. -/
def ended (leave : State → State) : Except Fault α × State → Except Fault α × State
  | (.error .exhausted, t) => (.error .exhausted, t)
  | (result, t) => (result, leave t)

theorem outcome_within_eq (enter leave : State → State) (act : Run α) (s : State) :
    (within enter leave act).outcome s = ended leave (act.outcome (enter s)) := rfl

theorem outcome_holding_eq (values : List Value) (act : Run α) (s : State) :
    (holding values act).outcome s = ended withoutHeld (act.outcome (withHeld s values)) := rfl

/-- Changes are taken back one after the other. -/
theorem ended_ended (outer inner : State → State) (left : Except Fault α × State) :
    ended outer (ended inner left) = ended (outer ∘ inner) left := by
  obtain ⟨result, t⟩ := left
  match result with
  | .ok x => rfl
  | .error (.raised e) => rfl
  | .error .exhausted => rfl

theorem ended_map (leave : State → State) (g : α → β) (left : Except Fault α × State) :
    (ended leave left).map (Except.map g) id = ended leave (left.map (Except.map g) id) := by
  obtain ⟨result, t⟩ := left
  match result with
  | .ok x => rfl
  | .error (.raised e) => rfl
  | .error .exhausted => rfl

theorem fst_ended (leave : State → State) (left : Except Fault α × State) : (ended leave left).1 = left.1 := by
  obtain ⟨result, t⟩ := left
  match result with
  | .ok x => rfl
  | .error (.raised e) => rfl
  | .error .exhausted => rfl

theorem toWorld_outcome_holding (act : Run α) (values : List Value) (s : State) :
    ((holding values act).outcome s).2.toWorld = (act.outcome (withHeld s values)).2.toWorld := by
  rw [holding, outcome_within, withHeld]
  rcases act.outcome { s with held := values :: s.held } with ⟨result, t⟩
  match result with
  | .ok x => rfl
  | .error (.raised e) => rfl
  | .error .exhausted => rfl

theorem exists_of_outcome_holding {act : Run α} {values : List Value} {x : α}
    (hrun : (holding values act).outcome s = (.ok x, t)) :
    ∃ t', act.outcome (withHeld s values) = (.ok x, t') ∧ t = withoutHeld t' :=
  exists_of_outcome_within hrun

/-- Values stay in use for a run until it ends, with a result or with an error. -/
theorem exists_of_outcome_holding_raised {act : Run α} {values : List Value} {e : Error}
    (hrun : (holding values act).outcome s = (.error (.raised e), t)) :
    ∃ t', act.outcome (withHeld s values) = (.error (.raised e), t') ∧ t = withoutHeld t' := by
  rw [holding, outcome_within] at hrun
  rcases heq : act.outcome { s with held := values :: s.held } with ⟨result, t'⟩
  rw [heq] at hrun
  match result with
  | .ok x => cases hrun
  | .error (.raised e') =>
      obtain ⟨he, ht⟩ := Prod.mk.inj hrun
      exact ⟨t', by rw [← he]; exact heq, ht.symm⟩
  | .error .exhausted => cases hrun

theorem outcome_within_of_ok {act : Run α} {enter leave : State → State} {x : α}
    (hrun : act.outcome (enter s) = (.ok x, t)) : (within enter leave act).outcome s = (.ok x, leave t) := by
  rw [outcome_within, hrun]

theorem outcome_holding_of_ok {act : Run α} {values : List Value} {x : α}
    (hrun : act.outcome (withHeld s values) = (.ok x, t)) :
    (holding values act).outcome s = (.ok x, withoutHeld t) :=
  outcome_within_of_ok hrun

/-- Values that were put aside for a run that fails are given back. -/
theorem outcome_holding_of_raised {act : Run α} {values : List Value} {e : Error}
    (hrun : act.outcome (withHeld s values) = (.error (.raised e), t)) :
    (holding values act).outcome s = (.error (.raised e), withoutHeld t) := by
  have hinner : act.outcome { s with held := values :: s.held } = (.error (.raised e), t) := hrun
  rw [holding, outcome_within, hinner]
  rfl

/-- A run that fails while values stay in use fails so whatever would have come after it. -/
theorem outcome_holding_bind_of_error {act : Run α} {values : List Value} {fault : Fault}
    (hrun : (holding values act).outcome s = (.error fault, t)) (f : α → Run β) :
    (holding values (act >>= f)).outcome s = (.error fault, t) := by
  rw [holding, outcome_within] at hrun ⊢
  rw [outcome_bind]
  generalize act.outcome { s with held := values :: s.held } = left at hrun ⊢
  obtain ⟨result, t'⟩ := left
  match result with
  | .ok x => cases hrun
  | .error (.raised e) | .error .exhausted =>
      obtain ⟨hfault, rfl⟩ := Prod.mk.inj hrun
      obtain rfl := Except.error.inj hfault
      rfl

theorem eq_ok_of_toOption {ε : Type} {r : Except ε α} {x : α} (h : r.toOption = some x) :
    r = .ok x := by
  cases r with
  | ok y => exact congrArg Except.ok (Option.some.inj h)
  | error e => cases h

/-- A run ends with a result if something is known of the result. -/
theorem exists_of_toOption {act : Run α} {f : α → β} {y : β}
    (hrun : (act.outcome s).1.toOption.map f = some y) :
    ∃ x t, act.outcome s = (.ok x, t) ∧ f x = y := by
  obtain ⟨x, hx, hy⟩ := Option.map_eq_some_iff.mp hrun
  exact ⟨x, (act.outcome s).2, Prod.ext (eq_ok_of_toOption hx) rfl, hy⟩

/-! ## Runs that come to their ends -/

/-- A run that comes to its end has come to the end of its first part. -/
theorem ended_of_bind {act : Run α} {f : α → Run β} (hended : ((act >>= f).outcome s).1 ≠ .error .exhausted) :
    (act.outcome s).1 ≠ .error .exhausted := by
  intro hr
  rcases heq : act.outcome s with ⟨r, t⟩
  rw [heq] at hr
  obtain rfl : r = .error .exhausted := hr
  rw [outcome_bind, heq] at hended
  exact hended rfl

theorem ended_of_within {act : Run α} {enter leave : State → State}
    (hended : ((within enter leave act).outcome s).1 ≠ .error .exhausted) :
    (act.outcome (enter s)).1 ≠ .error .exhausted := by
  intro hr
  rcases heq : act.outcome (enter s) with ⟨r, t⟩
  rw [heq] at hr
  obtain rfl : r = .error .exhausted := hr
  rw [outcome_within, heq] at hended
  exact hended rfl

theorem ended_of_attempt {act : Run α} (hended : ((attempt act).outcome s).1 ≠ .error .exhausted) :
    (act.outcome s).1 ≠ .error .exhausted := by
  intro hr
  rcases heq : act.outcome s with ⟨r, t⟩
  rw [heq] at hr
  obtain rfl : r = .error .exhausted := hr
  rw [outcome_attempt, heq] at hended
  exact hended rfl

/-! ## Runs that end alike -/

theorem eq_of_outcome_eq {α : Type} {act act' : Run α} (hsame : ∀ s, act.outcome s = act'.outcome s) :
    act = act' :=
  congrArg ExceptT.mk (funext hsame)

/-- Runs are alike if their first parts are, and then the rests of them. -/
theorem outcome_bind_congr {α β : Type} {act act' : Run α} {f g : α → Run β}
    (hact : act.outcome s = act'.outcome s)
    (hrest : ∀ x t, act'.outcome s = (.ok x, t) → (f x).outcome t = (g x).outcome t) :
    (act >>= f).outcome s = (act' >>= g).outcome s := by
  rw [outcome_bind, outcome_bind, hact]
  rcases heq : act'.outcome s with ⟨result, t⟩
  cases result with
  | ok x => exact hrest x t heq
  | error fault => rfl

theorem outcome_within_congr {α : Type} {act act' : Run α} {enter leave : State → State}
    (hact : act.outcome (enter s) = act'.outcome (enter s)) :
    (within enter leave act).outcome s = (within enter leave act').outcome s := by
  rw [outcome_within, outcome_within, hact]

end ObjectBridge.Run
