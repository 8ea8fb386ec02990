import ObjectBridge.Lifetime.Native
import ObjectBridge.Proofs.Arena.Renumber
import ObjectBridge.Proofs.Run.Success
import ObjectBridge.Proofs.Value.Spare

/-!
# Runs where there are spare cells

A run does the same whether or not there are spare cells that nothing mentions: it ends with the same result, and in
states that are the same again, apart from the spare cells and the numbers of the cells behind them.

* `State.Spare` — a state, and the same one with spare cells.
* `Spare.mem_handles_iff` — the handles in use are the same.
* `Run.Alike` — a run that does the same in both states.
* `Alike.bind` and the other rules — a run does the same if its parts do.
* `Run.Blind` — bodies cannot tell whether there are spare cells.
-/

namespace ObjectBridge

variable {f : BoxId → BoxId}

/-- How a body ended, with other numbers for boxes. -/
def Ending.renumber (f : BoxId → BoxId) : Ending → Ending
  | .value v => .value (v.renumber f)
  | .stop v => .stop (v.renumber f)

/-- A running body with other numbers for its boxes. -/
def Activation.renumber (f : BoxId → BoxId) (a : Activation) : Activation :=
  { a with
    args := a.args.map (Value.renumber f)
    locals := a.locals.map (renumberNamed f)
    ended := a.ended.map (Ending.renumber f) }

theorem Activation.values_renumber (a : Activation) : (a.renumber f).values = a.values.map (Value.renumber f) := by
  have hreceiver : (a.receiver.map Value.object).toList.map (Value.renumber f) =
      (a.receiver.map Value.object).toList := by
    cases a.receiver <;> rfl
  have hended : ((a.ended.map (Ending.renumber f)).map Ending.content).toList =
      (a.ended.map Ending.content).toList.map (Value.renumber f) := by
    rcases a.ended with _ | _ | _ <;> rfl
  simp only [renumber, values, List.map_append, hreceiver, hended, map_snd_renumberNamed]

theorem Activation.renumber_eq_self {a : Activation} (h : ∀ v ∈ a.values, v.renumber f = v) : a.renumber f = a := by
  simp only [values, List.mem_append, or_imp, forall_and] at h
  obtain ⟨⟨⟨-, hargs⟩, hlocals⟩, hended⟩ := h
  have hended' : a.ended.map (Ending.renumber f) = a.ended := by
    cases hfound : a.ended with
    | none => rfl
    | some ending =>
        have hv := hended ending.content (by simp [hfound])
        cases ending with
        | value v => exact congrArg (fun u => some (Ending.value u)) hv
        | stop v => exact congrArg (fun u => some (Ending.stop u)) hv
  rw [renumber, Value.map_eq_self hargs, map_renumberNamed_eq_self hlocals, hended']

theorem Activation.result_renumber (a : Activation) : (a.renumber f).result = a.result.renumber f := by
  rw [result, result, renumber]
  rcases a.ended with _ | _ | _ <;> rfl

theorem Activation.below_result {a : Activation} {size : Nat} (h : ∀ v ∈ a.values, v.Below size) :
    a.result.Below size := by
  rw [result]
  cases hended : a.ended with
  | none => exact Value.below_nil size
  | some ending => exact h ending.content (by simp [values, hended])

namespace State

/-- A state with other numbers for the boxes that are mentioned outside of the cells. -/
def renumber (f : BoxId → BoxId) (s : State) : State :=
  { s with
    classes := s.classes.renumber f
    arena := s.arena.renumber f
    globals := s.globals.map (renumberNamed f)
    callables := s.callables.map fun e => (e.1, e.2.renumber f)
    held := s.held.map (List.map (Value.renumber f))
    activations := s.activations.map (Activation.renumber f) }

theorem inUse_renumber (s : State) : (s.renumber f).inUse [] = (s.inUse []).map (Value.renumber f) := by
  simp only [inUse, roots, World.heldValues, renumber, List.nil_append, List.map_append, map_snd_renumberNamed,
    List.flatMap_map, List.map_flatMap, Callable.values_renumber, List.map_flatten, Activation.values_renumber,
    Arena.heldValues_renumber, ClassTable.heldValues_renumber]

/-- Boxes that are mentioned keep their numbers. -/
theorem renumber_eq_self {s : State} (h : ∀ v ∈ s.inUse [], v.renumber f = v) : s.renumber f = s := by
  simp only [inUse, roots, World.heldValues, List.nil_append, List.mem_append, or_imp, forall_and] at h
  obtain ⟨⟨⟨⟨hglobals, hcallables⟩, hheld⟩, hactivations⟩, hclasses, harena⟩ := h
  have hcallables' : (s.callables.map fun e => (e.1, e.2.renumber f)) = s.callables := by
    refine Value.map_eq_self fun e he => Prod.ext rfl (Callable.renumber_eq_self fun v hv => hcallables v ?_)
    exact List.mem_flatMap.mpr ⟨e, he, hv⟩
  have hheld' : s.held.map (List.map (Value.renumber f)) = s.held := by
    refine Value.map_eq_self fun vs hvs => Value.map_eq_self fun v hv => hheld v ?_
    exact List.mem_flatten.mpr ⟨vs, hvs, hv⟩
  have hactivations' : s.activations.map (Activation.renumber f) = s.activations := by
    refine Value.map_eq_self fun a ha => Activation.renumber_eq_self fun v hv => hactivations v ?_
    exact List.mem_flatMap.mpr ⟨a, ha, hv⟩
  rw [renumber, ClassTable.renumber_eq_self hclasses, Arena.renumber_eq_self harena,
    map_renumberNamed_eq_self hglobals, hcallables', hheld', hactivations']

/-- A state, and the same one with `k` spare cells from the number `n` on; what was logged may differ. All boxes that
are mentioned in the state are there. -/
structure Spare (n k : Nat) (deferred : Code → Prop) (s t : State) : Prop where
  cells : Cells.Spare n k s.cells t.cells
  below : ∀ v ∈ s.inUse [], v.Below s.cells.size
  eq_renumber : t = { s.renumber (Cells.skip n k) with cells := t.cells, log := t.log }
  /-- The deferred constructors of the classes. -/
  deferred : ∀ id c, s.classes.findLazy id = some c → deferred c.code

variable {n k : Nat} {deferred : Code → Prop} {s t : State}

theorem Spare.classes_eq (h : Spare n k deferred s t) : t.classes = s.classes.renumber (Cells.skip n k) :=
  congrArg (fun t : State => t.classes) h.eq_renumber

theorem Spare.arena_eq (h : Spare n k deferred s t) : t.arena = s.arena.renumber (Cells.skip n k) :=
  congrArg (fun t : State => t.arena) h.eq_renumber

/-- All boxes that are mentioned are there, also those in the values in hand. -/
structure Intact (s : State) (hand : List Value) : Prop where
  closed : s.cells.Closed
  below : ∀ v ∈ s.inUse hand, v.Below s.cells.size

theorem Intact.below_hand {hand : List Value} (h : s.Intact hand) {v : Value} (hv : v ∈ hand) :
    v.Below s.cells.size :=
  h.below v (mem_inUse_of_mem_hand hv)

/-- Cells that nothing mentions are spare. -/
theorem spare_append (hs : s.Intact []) {extra : Cells} (hextra : ∀ v ∈ extra, v.Below s.cells.size)
    (hdeferred : ∀ id c, s.classes.findLazy id = some c → deferred c.code) :
    Spare s.cells.size extra.size deferred s { s with cells := s.cells ++ extra } where
  cells := Cells.spare_append hs.closed hextra
  below := hs.below
  eq_renumber := by
    rw [renumber_eq_self fun v hv => (hs.below v hv).renumber_skip _]
  deferred := hdeferred

/-- As long as no boxes are made, all boxes have the same numbers and contents. -/
theorem Spare.eq_of_size_eq (h : Spare n k deferred s t) (hsize : s.cells.size = n) :
    t = { s with cells := t.cells, log := t.log } ∧ ∀ b < n, t.cells.content b = s.cells.content b := by
  have hself : ∀ v : Value, v.Below s.cells.size → v.renumber (Cells.skip n k) = v := by
    intro v hv
    rw [← hsize]
    exact hv.renumber_skip k
  refine ⟨?_, fun b hb => ?_⟩
  · rw [h.eq_renumber, renumber_eq_self fun v hv => hself v (h.below v hv)]
  · have hcontent := h.cells.content b
    rwa [Cells.skip_of_lt hb, hself _ (h.cells.closed b)] at hcontent

/-- The handles in use are the same. -/
theorem Spare.mem_handles_iff (h : Spare n k deferred s t) {x : Handle} : x ∈ t.handles ↔ x ∈ s.handles := by
  have hinUse : t.inUse [] = (s.inUse []).map (Value.renumber (Cells.skip n k)) :=
    (congrArg (fun t : State => t.inUse []) h.eq_renumber).trans (inUse_renumber s)
  show x ∈ t.cells.handlesInUse (t.inUse []) ↔ x ∈ s.cells.handlesInUse (s.inUse [])
  rw [hinUse]
  exact h.cells.mem_handlesInUse_iff

theorem Spare.below_roots (h : Spare n k deferred s t) {v : Value} (hv : v ∈ s.roots) : v.Below s.cells.size :=
  h.below v (mem_inUse_of_mem_roots hv [])

theorem Spare.below_arena (h : Spare n k deferred s t) {v : Value} (hv : v ∈ s.arena.heldValues) :
    v.Below s.cells.size :=
  h.below v (mem_inUse_of_mem_heldValues (List.mem_append_right _ hv) [])

/-- The same is changed outside of the world in both states. -/
theorem Spare.outside (h : Spare n k deferred s t) {s' t' : State} (hs : s'.toWorld = s.toWorld)
    (hroots : ∀ v ∈ s'.roots, v ∈ s.roots ∨ v.Below s.cells.size)
    (ht : t' = { s'.renumber (Cells.skip n k) with cells := t.cells, log := t'.log }) : Spare n k deferred s' t' where
  cells := by
    have hcells : t'.cells = t.cells := by rw [ht]
    rw [hs, hcells]
    exact h.cells
  below := by
    intro v hv
    rw [hs]
    rcases mem_inUse_iff.mp hv with hv | hv | hv
    · cases hv
    · exact (hroots v hv).elim h.below_roots id
    · rw [hs] at hv
      exact h.below v (mem_inUse_of_mem_heldValues (s := s) hv [])
  eq_renumber := by
    have hcells : t'.cells = t.cells := by rw [ht]
    rw [hcells]
    exact ht
  deferred id c hc := by
    rw [hs] at hc
    exact h.deferred id c hc

/-- The same values are held in both states. -/
theorem Spare.withHeld (h : Spare n k deferred s t) {values : List Value}
    (hvalues : ∀ v ∈ values, v.Below s.cells.size) :
    Spare n k deferred (Run.withHeld s values) (Run.withHeld t (values.map (Value.renumber (Cells.skip n k)))) := by
  refine h.outside rfl (fun v hv => ?_)
    (congrArg (fun t => Run.withHeld t (values.map (Value.renumber (Cells.skip n k)))) h.eq_renumber)
  rw [mem_roots_iff, Run.withHeld, List.flatten_cons, List.mem_append] at hv
  rw [mem_roots_iff]
  have hheld := hvalues v
  tauto

/-- Values are let go of in both states. -/
theorem Spare.withoutHeld (h : Spare n k deferred s t) :
    Spare n k deferred (Run.withoutHeld s) (Run.withoutHeld t) := by
  refine h.outside rfl (fun v hv => Or.inl (Run.mem_roots_withoutHeld hv)) ?_
  refine (congrArg Run.withoutHeld h.eq_renumber).trans ?_
  simp only [Run.withoutHeld, renumber, List.map_tail]

/-- An arena whose boxes are there takes the place of the one before. -/
theorem Spare.setArena (h : Spare n k deferred s t) {a : Arena} (ha : ∀ v ∈ a.heldValues, v.Below s.cells.size) :
    Spare n k deferred { s with arena := a } { t with arena := a.renumber (Cells.skip n k) } where
  cells := h.cells
  below := by
    intro v hv
    rcases mem_inUse_iff.mp hv with hv | hv | hv
    · cases hv
    · exact h.below_roots hv
    · rcases List.mem_append.mp hv with hv | hv
      · exact h.below v (mem_inUse_of_mem_heldValues (s := s) (List.mem_append_left _ hv) [])
      · exact ha v hv
  eq_renumber := congrArg (fun t : State => { t with arena := a.renumber (Cells.skip n k) }) h.eq_renumber
  deferred := h.deferred

end State

/-- Results that mention boxes. -/
class MentionsBoxes (α : Type) where
  renumber : (BoxId → BoxId) → α → α
  Below : Nat → α → Prop

namespace MentionsBoxes

instance : MentionsBoxes Value where
  renumber := Value.renumber
  Below := Value.Below

instance {α : Type} [MentionsBoxes α] : MentionsBoxes (List α) where
  renumber f := List.map (renumber f)
  Below size xs := ∀ x ∈ xs, Below size x

instance : MentionsBoxes Activation where
  renumber := Activation.renumber
  Below size a := ∀ v ∈ a.values, v.Below size

instance {α : Type} [MentionsBoxes α] : MentionsBoxes (Option α) where
  renumber f := Option.map (renumber f)
  Below size o := ∀ x ∈ o, Below size x

instance {α β : Type} [MentionsBoxes α] [MentionsBoxes β] : MentionsBoxes (α × β) where
  renumber f x := (renumber f x.1, renumber f x.2)
  Below size x := Below size x.1 ∧ Below size x.2

instance {α : Type} [MentionsBoxes α] : MentionsBoxes (Except Error α) where
  renumber f := Except.map (renumber f)
  Below size r := ∀ x, r = .ok x → Below size x

/-- A handle mentions no boxes. -/
instance : MentionsBoxes Handle where
  renumber _ h := h
  Below _ _ := True

instance : MentionsBoxes PUnit where
  renumber _ x := x
  Below _ _ := True

end MentionsBoxes

namespace Run

open MentionsBoxes

variable {α β γ : Type} [MentionsBoxes α] [MentionsBoxes β] {n k : Nat} {deferred : Code → Prop} {s t : State}

/-- A run does the same in a state and in the one with spare cells: it has the same result, up to the numbers of
boxes, and the states that it leaves are the same up to spare cells again. -/
def Alike (n k : Nat) (deferred : Code → Prop) (act act' : Run α) (s t : State) : Prop :=
  ∃ result u u', act.outcome s = (result, u) ∧
    act'.outcome t = (result.map (renumber (Cells.skip n k)), u') ∧
    State.Spare n k deferred u u' ∧ s.cells.size ≤ u.cells.size ∧ ∀ x, result = .ok x → Below u.cells.size x

theorem alike_pure (hs : State.Spare n k deferred s t) {x : α} (hx : Below s.cells.size x) :
    Alike n k deferred (pure x) (pure (renumber (Cells.skip n k) x)) s t :=
  ⟨.ok x, s, t, rfl, rfl, hs, Nat.le_refl _, fun _ hy => Except.ok.inj hy ▸ hx⟩

theorem alike_fail (hs : State.Spare n k deferred s t) (e : Error) :
    Alike n k deferred (fail e : Run α) (fail e) s t :=
  ⟨.error (.raised e), s, t, rfl, rfl, hs, Nat.le_refl _, fun _ hy => by cases hy⟩

/-- A run that begins in the same way goes on in the same way. -/
theorem Alike.bind {act act' : Run α} {g g' : α → Run β} (hact : Alike n k deferred act act' s t)
    (hg : ∀ x u u', act.outcome s = (.ok x, u) → State.Spare n k deferred u u' → s.cells.size ≤ u.cells.size →
      Below u.cells.size x → Alike n k deferred (g x) (g' (renumber (Cells.skip n k) x)) u u') :
    Alike n k deferred (act >>= g) (act' >>= g') s t := by
  obtain ⟨result, u, u', hrun, hrun', hspare, hsize, hbelow⟩ := hact
  cases result with
  | ok x =>
      obtain ⟨result, v, v', hnext, hnext', hspare', hsize', hbelow'⟩ := hg x u u' hrun hspare hsize (hbelow x rfl)
      refine ⟨result, v, v', ?_, ?_, hspare', hsize.trans hsize', hbelow'⟩
      · rw [outcome_bind_of_ok hrun, hnext]
      · rw [outcome_bind_of_ok hrun', hnext']
  | error fault =>
      refine ⟨.error fault, u, u', outcome_bind_of_error hrun g, outcome_bind_of_error hrun' g', hspare, hsize, ?_⟩
      intro y hy
      cases hy

theorem alike_get {g g' : State → Run β} (h : Alike n k deferred (g s) (g' t) s t) :
    Alike n k deferred (get >>= g) (get >>= g') s t := h

theorem alike_bind_ofExcept (hs : State.Spare n k deferred s t) {r r' : Except Error γ} {rename : γ → γ}
    (hr : r' = r.map rename) {g g' : γ → Run β}
    (hg : ∀ x, r = .ok x → Alike n k deferred (g x) (g' (rename x)) s t) :
    Alike n k deferred (ofExcept r >>= g) (ofExcept r' >>= g') s t := by
  subst hr
  cases r with
  | ok x => exact hg x rfl
  | error e => exact alike_fail hs e

theorem alike_bind_orFail (hs : State.Spare n k deferred s t) {e : Error} {o o' : Option γ} {rename : γ → γ}
    (ho : o' = o.map rename) {g g' : γ → Run β}
    (hg : ∀ x, o = some x → Alike n k deferred (g x) (g' (rename x)) s t) :
    Alike n k deferred (orFail e o >>= g) (orFail e o' >>= g') s t := by
  subst ho
  cases o with
  | some x => exact hg x rfl
  | none => exact alike_fail hs e

/-- A run that goes on unless it fails at once. -/
theorem alike_unless (hs : State.Spare n k deferred s t) {c c' : Prop} [Decidable c] [Decidable c'] (hc : c' ↔ c)
    {e : Error} {g g' : PUnit → Run β} (hg : ¬c → Alike n k deferred (g ⟨⟩) (g' ⟨⟩) s t) :
    Alike n k deferred (if c then fail e >>= g else g ⟨⟩) (if c' then fail e >>= g' else g' ⟨⟩) s t := by
  by_cases h : c
  · rw [if_pos h, if_pos (hc.mpr h)]
    exact alike_fail hs e
  · rw [if_neg h, if_neg (mt hc.mp h)]
    exact hg h

/-- The states are changed while a run does the same, and changed back then. -/
theorem Alike.within {act act' : Run α} {enter enter' leave leave' : State → State}
    (hact : Alike n k deferred act act' (enter s) (enter' t)) (henter : (enter s).cells = s.cells)
    (hleave : ∀ {u u'}, State.Spare n k deferred u u' → State.Spare n k deferred (leave u) (leave' u'))
    (hcells : ∀ u, (leave u).cells = u.cells) :
    Alike n k deferred (Run.within enter leave act) (Run.within enter' leave' act') s t := by
  obtain ⟨result, u, u', hrun, hrun', hspare, hsize, hbelow⟩ := hact
  rw [henter] at hsize
  rw [Alike, outcome_within_eq, outcome_within_eq, hrun, hrun']
  match result with
  | .ok x => exact ⟨_, _, _, rfl, rfl, hleave hspare, by rwa [hcells], by rwa [hcells]⟩
  | .error (.raised e) =>
      exact ⟨_, _, _, rfl, rfl, hleave hspare, by rwa [hcells], fun _ hy => by cases hy⟩
  | .error .exhausted =>
      -- What is exhausted stays where it is, with the states as they were changed.
      exact ⟨_, _, _, rfl, rfl, hspare, hsize, fun _ hy => by cases hy⟩

/-- Values stay in use while a run does the same. -/
theorem Alike.holding {act act' : Run α} {values : List Value}
    (hact : Alike n k deferred act act' (withHeld s values)
      (withHeld t (values.map (Value.renumber (Cells.skip n k))))) :
    Alike n k deferred (Run.holding values act) (Run.holding (values.map (Value.renumber (Cells.skip n k))) act')
      s t :=
  Alike.within hact rfl State.Spare.withoutHeld fun _ => rfl

/-- Nothing depends on what was read, except as it is read in both states. -/
theorem alike_bind_of_outcome {act act' : Run γ} {x x' : γ} (hact : act.outcome s = (.ok x, s))
    (hact' : act'.outcome t = (.ok x', t)) {g g' : γ → Run β} (hg : Alike n k deferred (g x) (g' x') s t) :
    Alike n k deferred (act >>= g) (act' >>= g') s t := by
  rw [Alike, outcome_bind_of_ok hact, outcome_bind_of_ok hact']
  exact hg

/-- The same is changed outside of the world. -/
theorem alike_modify (hs : State.Spare n k deferred s t) {f f' : State → State} (hf : (f s).toWorld = s.toWorld)
    (hroots : ∀ v ∈ (f s).roots, v ∈ s.roots ∨ v.Below s.cells.size)
    (hf' : f' t = { (f s).renumber (Cells.skip n k) with cells := t.cells, log := (f' t).log }) :
    Alike n k deferred (modify f : Run PUnit) (modify f') s t :=
  ⟨.ok ⟨⟩, f s, f' t, rfl, rfl, hs.outside hf hroots hf', by rw [hf], fun _ _ => trivial⟩

/-- A step is counted in both states, or in neither. -/
theorem alike_tick (hs : State.Spare n k deferred s t) : Alike n k deferred tick tick s t := by
  have hsteps : t.stepsLeft = s.stepsLeft := (congrArg (fun t : State => t.stepsLeft) hs.eq_renumber).trans rfl
  rw [Alike, outcome_tick, outcome_tick, hsteps]
  cases s.stepsLeft with
  | none => exact alike_pure (x := PUnit.unit) hs trivial
  | some left =>
      cases left with
      | zero => exact ⟨_, s, t, rfl, rfl, hs, Nat.le_refl _, fun _ hx => by cases hx⟩
      | succ left =>
          have hcounted : State.Spare n k deferred { s with stepsLeft := some left }
              { t with stepsLeft := some left } :=
            hs.outside rfl (fun v hv => Or.inl hv)
              (congrArg (fun t : State => { t with stepsLeft := some left }) hs.eq_renumber)
          exact ⟨.ok ⟨⟩, _, _, rfl, rfl, hcounted, Nat.le_refl _, fun _ _ => trivial⟩

/-- Errors are told in the same way. -/
theorem Alike.attempt {act act' : Run α} (hact : Alike n k deferred act act' s t) :
    Alike n k deferred (Run.attempt act) (Run.attempt act') s t := by
  obtain ⟨result, u, u', hrun, hrun', hspare, hsize, hbelow⟩ := hact
  rw [Alike, outcome_attempt, outcome_attempt, hrun, hrun']
  match result with
  | .ok x =>
      refine ⟨_, _, _, rfl, rfl, hspare, hsize, fun r hr y hy => hbelow y ?_⟩
      exact congrArg Except.ok (Except.ok.inj ((Except.ok.inj hr).trans hy))
  | .error (.raised e) => exact ⟨_, _, _, rfl, rfl, hspare, hsize, fun r hr y hy => by cases hr; cases hy⟩
  | .error .exhausted => exact ⟨_, _, _, rfl, rfl, hspare, hsize, fun _ hy => by cases hy⟩

/-! ## Bodies -/

/-- A body that is running is changed in the same way. -/
theorem alike_modifyActivation (hs : State.Spare n k deferred s t) {f f' : Activation → Activation}
    (hf : ∀ a, f' (a.renumber (Cells.skip n k)) = (f a).renumber (Cells.skip n k))
    (hbelow : ∀ a ∈ s.activations, ∀ v ∈ (f a).values, v ∈ a.values ∨ v.Below s.cells.size) :
    Alike n k deferred (modifyActivation f) (modifyActivation f') s t := by
  refine alike_modify hs rfl (fun v hv => ?_) ?_
  · simp only [State.mem_roots_iff] at hv ⊢
    rcases hv with hv | hv | hv | hv
    · exact Or.inl (Or.inl hv)
    · exact Or.inl (Or.inr (Or.inl hv))
    · exact Or.inl (Or.inr (Or.inr (Or.inl hv)))
    · cases hactivations : s.activations with
      | nil =>
          rw [hactivations] at hv
          cases hv
      | cons a rest =>
          rw [hactivations] at hv hbelow
          rcases List.mem_append.mp hv with hv | hv
          · exact (hbelow a List.mem_cons_self v hv).imp_left fun hv =>
              Or.inr (Or.inr (Or.inr (List.mem_append_left _ hv)))
          · exact Or.inl (Or.inr (Or.inr (Or.inr (List.mem_append_right _ hv))))
  · refine (congrArg (fun t : State => { t with activations := t.activations.modifyHead f' }) hs.eq_renumber).trans ?_
    simp only [State.renumber]
    cases s.activations with
    | nil => rfl
    | cons a rest => simp only [List.map_cons, List.modifyHead_cons, hf]

/-- A body is run to its end in the same way. -/
theorem Alike.activate {act act' : Run Unit} (body : Activation)
    (hact : Alike n k deferred act act' { s with activations := body :: s.activations }
      { t with activations := body.renumber (Cells.skip n k) :: t.activations })
    (hbody : ∀ v ∈ body.values, v.Below s.cells.size) :
    Alike n k deferred (Run.activate body act) (Run.activate (body.renumber (Cells.skip n k)) act') s t := by
  refine Alike.within ?_ rfl ?_ fun _ => rfl
  · refine hact.bind fun _ u u' _ hspare hsize _ => alike_get ?_
    have hhead : u'.activations.headD (body.renumber (Cells.skip n k)) =
        (u.activations.headD body).renumber (Cells.skip n k) := by
      have hactivations : u'.activations = u.activations.map (Activation.renumber (Cells.skip n k)) :=
        congrArg (fun t : State => t.activations) hspare.eq_renumber
      rw [hactivations]
      cases u.activations <;> rfl
    rw [hhead]
    refine alike_pure (x := u.activations.headD body) hspare fun v hv => ?_
    cases hactivations : u.activations with
    | nil =>
        rw [hactivations] at hv
        exact (hbody v hv).mono hsize
    | cons a rest =>
        rw [hactivations] at hv
        refine hspare.below_roots (State.mem_roots_iff.mpr (Or.inr (Or.inr (Or.inr ?_))))
        rw [hactivations]
        exact List.mem_append_left _ hv
  · intro u u' hspare
    refine hspare.outside rfl (fun v hv => ?_) ?_
    · rw [State.mem_roots_iff] at hv ⊢
      refine Or.inl (hv.imp_right fun hv => hv.imp_right fun hv => hv.imp_right fun hv => ?_)
      obtain ⟨a, ha, hv⟩ := List.mem_flatMap.mp hv
      exact List.mem_flatMap.mpr ⟨a, List.mem_of_mem_tail ha, hv⟩
    · refine (congrArg (fun t : State => { t with activations := t.activations.tail }) hspare.eq_renumber).trans ?_
      simp only [State.renumber, List.map_tail]

/-- A native frame is entered and left in the same way. -/
theorem Alike.inNativeFrame {act act' : Run α}
    (hact : Alike n k deferred act act' { s with frames := .native :: s.frames }
      { t with frames := .native :: t.frames }) :
    Alike n k deferred (Run.inNativeFrame act) (Run.inNativeFrame act') s t := by
  refine Alike.within hact rfl ?_ fun _ => rfl
  intro u u' hspare
  exact hspare.outside rfl (fun v hv => Or.inl hv)
    (congrArg (fun t : State => { t with frames := t.frames.tail }) hspare.eq_renumber)

/-! ## Values one after the other -/

theorem alike_setArena (hs : State.Spare n k deferred s t) {a : Arena}
    (ha : ∀ v ∈ a.heldValues, v.Below s.cells.size) :
    Alike n k deferred (setArena a) (setArena (a.renumber (Cells.skip n k))) s t :=
  ⟨.ok ⟨⟩, _, _, rfl, rfl, hs.setArena ha, Nat.le_refl _, fun _ _ => trivial⟩

/-- A first value stays in use while there is a run for the others. -/
theorem Alike.cons {act act' : Run (List Value)} {v : Value} (hv : v.Below s.cells.size)
    (hact : Alike n k deferred act act' (withHeld s [v])
      (withHeld t ([v].map (Value.renumber (Cells.skip n k))))) :
    Alike n k deferred (do return v :: (← Run.holding [v] act))
      (do return v.renumber (Cells.skip n k) :: (← Run.holding [v.renumber (Cells.skip n k)] act')) s t := by
  refine hact.holding.bind fun vs u u' _ hspare hsize hvs => ?_
  exact alike_pure (x := v :: vs) hspare (List.forall_mem_cons.mpr ⟨hv.mono hsize, hvs⟩)

/-- Values are treated in the same way one after the other. -/
theorem alike_mapHeld {g g' : Value → Run Value} (hs : State.Spare n k deferred s t) {vs : List Value}
    (hg : ∀ v s t, State.Spare n k deferred s t → v.Below s.cells.size →
      Alike n k deferred (g v) (g' (v.renumber (Cells.skip n k))) s t)
    (hvs : ∀ v ∈ vs, v.Below s.cells.size) :
    Alike n k deferred (mapHeld g vs) (mapHeld g' (vs.map (Value.renumber (Cells.skip n k)))) s t := by
  induction vs generalizing s t with
  | nil => exact alike_pure (x := ([] : List Value)) hs fun _ hx => by cases hx
  | cons v rest ih =>
      obtain ⟨hv, hrest⟩ := List.forall_mem_cons.mp hvs
      refine Alike.bind (hg v _ _ (hs.withHeld hrest) hv).holding ?_
      intro x u u' _ hspare hsize hx
      exact Alike.cons hx (ih (hspare.withHeld (List.forall_mem_singleton.mpr hx)) fun w hw => (hrest w hw).mono hsize)

/-- Bodies that are constructed later cannot tell whether there are spare cells. -/
def Blind (exec : Exec) (deferred : Code → Prop) : Prop :=
  ∀ n k s t code, deferred code → State.Spare n k deferred s t →
    Alike n k deferred (Lifetime.runNative exec none [] code) (Lifetime.runNative exec none [] code) s t

end Run

end ObjectBridge
