import ObjectBridge.Proofs.Arena.Custody
import ObjectBridge.Proofs.Class.Contents
import ObjectBridge.Proofs.Value.Coverage
import ObjectBridge.Run

/-!
# Runs and the handles that exist

Every handle that exists is in use by the state, or it is in the hands of a run that has not put it
anywhere yet.  A run is started with values in its hands and ends with others.

* `State.custody` — the arena and the handles of a state, with the values in the hands of a run.
* `Run.Conserves` — a run changes arena and handles by the steps of a custody alone, and restores the
  stack of values and bodies that it found.
* `Conserves.bind` and the other rules — how a run conserves handles if its parts do.
-/

namespace ObjectBridge

namespace State

/-- The values in use, with some in the hands of a run. -/
def inUse (s : State) (hand : List Value) : List Value :=
  hand ++ (s.roots ++ s.heldValues)

/-- The arena and the handles that exist, some of them in the hands of a run, with the overrides of the
classes. -/
def custody (s : State) (hand : List Value) : Custody :=
  ⟨s.arena, { p | s.cells.Reaches (s.inUse hand) p }, s.classes.allOverrides⟩

/-- A state that the steps of a custody lead to from the beginning, with values in the hands of a run. -/
def Arises (s : State) (hand : List Value) : Prop :=
  Custody.Path ∅ Custody.empty (s.custody hand)

/-- A value mentions nothing that is not in use. -/
def Covers (s : State) (hand : List Value) (v : Value) : Prop :=
  s.cells.Covers (s.inUse hand) v

/-- The values that stay in use while a body runs, whatever it does. -/
def kept (s : State) : List Value :=
  s.held.flatten ++ ((s.activations.head?.bind Activation.receiver).map Value.object).toList ++
    s.activations.tail.flatMap Activation.values

/-- A later state has the same stack of values and bodies, except for what the running body has done to
its own variables.  A run without a limit of steps stays without one, and no class is taken back. -/
structure Level (s s' : State) : Prop where
  held_eq : s'.held = s.held
  tail_eq : s'.activations.tail = s.activations.tail
  receiver_eq : s'.activations.head?.map Activation.receiver =
    s.activations.head?.map Activation.receiver
  stepsLeft_eq : s.stepsLeft = none → s'.stepsLeft = none
  overrides_subset : s.classes.allOverrides ⊆ s'.classes.allOverrides

theorem Level.refl (s : State) : s.Level s := ⟨rfl, rfl, rfl, id, Set.Subset.rfl⟩

theorem Level.trans {s t u : State} (hst : s.Level t) (htu : t.Level u) : s.Level u :=
  ⟨htu.held_eq.trans hst.held_eq, htu.tail_eq.trans hst.tail_eq,
    htu.receiver_eq.trans hst.receiver_eq, fun h => htu.stepsLeft_eq (hst.stepsLeft_eq h),
    hst.overrides_subset.trans htu.overrides_subset⟩

theorem Level.kept_eq {s s' : State} (h : s.Level s') : s'.kept = s.kept := by
  have hreceiver : s'.activations.head?.bind Activation.receiver =
      s.activations.head?.bind Activation.receiver := by
    have heq := h.receiver_eq
    cases hs : s.activations.head? <;> cases hs' : s'.activations.head? <;> simp_all
  rw [kept, kept, h.held_eq, h.tail_eq, hreceiver]

/-- The proxies of handles that stay in use while a body runs, whatever it does. -/
def pinned (s : State) : Set Proxy :=
  { p | ∃ v ∈ s.kept, ∃ h ∈ v.handles, h.proxy = p }

theorem Level.pinned_eq {s s' : State} (h : s.Level s') : s'.pinned = s.pinned := by
  rw [pinned, pinned, h.kept_eq]

theorem pinned_subset {s s' : State} (hsub : s.kept ⊆ s'.kept) : s.pinned ⊆ s'.pinned := by
  rintro p ⟨v, hv, h, hh, hp⟩
  exact ⟨v, hsub hv, h, hh, hp⟩

/-- What is held in addition is kept in addition. -/
@[simp] theorem kept_cons_held (s : State) (values : List Value) :
    ({ s with held := values :: s.held } : State).kept = values ++ s.kept := by
  simp [kept]

/-! ## States that arise -/

theorem Arises.sound {s : State} {hand : List Value} (hs : s.Arises hand)
    (hfew : ∀ slot, (s.arena.slotAt slot).removals < 2 ^ 32) : (s.custody hand).Sound :=
  Custody.Path.sound hs (Custody.sound_empty ∅ rfl ∅) hfew

theorem Arises.balanced {s : State} {hand : List Value} (hs : s.Arises hand) : s.arena.Balanced :=
  Arena.balanced_empty.path (Custody.Path.arena_path hs)

/-! ## Values in use -/

theorem mem_roots_iff {s : State} {v : Value} :
    v ∈ s.roots ↔
      v ∈ s.globals.map Prod.snd ∨ v ∈ s.callables.flatMap (fun entry => entry.2.values) ∨
        v ∈ s.held.flatten ∨ v ∈ s.activations.flatMap Activation.values := by
  simp only [roots, List.mem_append, or_assoc]

theorem mem_inUse_iff {s : State} {hand : List Value} {v : Value} :
    v ∈ s.inUse hand ↔ v ∈ hand ∨ v ∈ s.roots ∨ v ∈ s.heldValues := by
  simp only [inUse, List.mem_append]

theorem mem_inUse_of_mem_hand {s : State} {hand : List Value} {v : Value} (hv : v ∈ hand) :
    v ∈ s.inUse hand :=
  List.mem_append_left _ hv

theorem mem_inUse_of_mem_roots {s : State} {v : Value} (hv : v ∈ s.roots) (hand : List Value) :
    v ∈ s.inUse hand :=
  List.mem_append_right _ (List.mem_append_left _ hv)

theorem mem_inUse_of_mem_heldValues {s : State} {v : Value} (hv : v ∈ s.heldValues)
    (hand : List Value) : v ∈ s.inUse hand :=
  List.mem_append_right _ (List.mem_append_right _ hv)

theorem mem_roots_of_mem_activation {s : State} {a : Activation} (ha : a ∈ s.activations)
    {v : Value} (hv : v ∈ a.values) : v ∈ s.roots :=
  List.mem_append_right _ (List.mem_flatMap.mpr ⟨a, ha, hv⟩)

theorem mem_roots_of_mem_held {s : State} {vs : List Value} (hvs : vs ∈ s.held) {v : Value}
    (hv : v ∈ vs) : v ∈ s.roots := by
  rw [mem_roots_iff]
  exact Or.inr (Or.inr (Or.inl (List.mem_flatten.mpr ⟨vs, hvs, hv⟩)))

/-- What is kept is held, or a body has it. -/
theorem held_or_running_of_mem_kept {s : State} {v : Value} (hv : v ∈ s.kept) :
    v ∈ s.held.flatten ∨ v ∈ s.activations.flatMap Activation.values := by
  simp only [kept, List.mem_append] at hv
  rcases hv with (hv | hv) | hv
  · exact Or.inl hv
  · cases hact : s.activations with
    | nil => simp [hact] at hv
    | cons a rest =>
        rw [hact] at hv
        refine Or.inr (List.mem_flatMap.mpr ⟨a, List.mem_cons_self, ?_⟩)
        simp only [Activation.values, List.mem_append]
        exact Or.inl (Or.inl (Or.inl hv))
  · obtain ⟨a, ha, hv⟩ := List.mem_flatMap.mp hv
    exact Or.inr (List.mem_flatMap.mpr ⟨a, List.mem_of_mem_tail ha, hv⟩)

theorem mem_roots_of_mem_kept {s : State} {v : Value} (hv : v ∈ s.kept) : v ∈ s.roots :=
  mem_roots_iff.mpr (Or.inr (Or.inr (held_or_running_of_mem_kept hv)))

theorem covers_of_mem_hand {s : State} {hand : List Value} {v : Value} (hv : v ∈ hand) :
    s.Covers hand v :=
  Cells.covers_of_mem (mem_inUse_of_mem_hand hv)

theorem covers_of_mem_roots {s : State} {v : Value} (hv : v ∈ s.roots) (hand : List Value) :
    s.Covers hand v :=
  Cells.covers_of_mem (mem_inUse_of_mem_roots hv hand)

theorem covers_of_mem_heldValues {s : State} {v : Value} (hv : v ∈ s.heldValues)
    (hand : List Value) : s.Covers hand v :=
  Cells.covers_of_mem (mem_inUse_of_mem_heldValues hv hand)

theorem covers_of_mem_kept {s : State} {v : Value} (hv : v ∈ s.kept) (hand : List Value) :
    s.Covers hand v :=
  covers_of_mem_roots (mem_roots_of_mem_kept hv) hand

/-- What is covered with fewer values in hand is covered with more. -/
theorem Covers.hand_mono {s : State} {hand hand' : List Value} (hsub : ∀ v ∈ hand, v ∈ hand')
    {v : Value} (hv : s.Covers hand v) : s.Covers hand' v := by
  refine Cells.Covers.mono ?_ hv
  intro u hu
  rcases List.mem_append.mp hu with hu | hu
  · exact List.mem_append_left _ (hsub u hu)
  · exact List.mem_append_right _ hu

/-- Values that are covered can be taken in hand. -/
theorem within_inUse {s : State} {hand hand' : List Value} (hcov : ∀ v ∈ hand', s.Covers hand v) :
    s.cells.Within (s.inUse hand) s.cells (s.inUse hand') := by
  refine Cells.within_of_covers ?_
  intro v hv
  rcases List.mem_append.mp hv with hv | hv
  · exact hcov v hv
  · exact Cells.covers_of_mem (List.mem_append_right _ hv)

/-- What is covered with covered values in hand is covered without them. -/
theorem Covers.of_hand {s : State} {hand hand' : List Value}
    (hcov : ∀ v ∈ hand', s.Covers hand v) {v : Value} (hv : s.Covers hand' v) : s.Covers hand v :=
  (within_inUse hcov).covers hv

/-- A change of values that leaves the arena as it is, up to its contents, and brings nothing up. -/
theorem custody_path_of_within {s s' : State} {hand hand' : List Value} {pinned : Set Proxy}
    (harena : s'.arena.outline = s.arena.outline)
    (hclasses : s.classes.allOverrides ⊆ s'.classes.allOverrides)
    (hwithin : s.cells.Within (s.inUse hand) s'.cells (s'.inUse hand')) :
    Custody.Path pinned (s.custody hand) (s'.custody hand') :=
  Relation.ReflTransGen.single (.move harena (fun _ hp => hwithin.reaches hp) hclasses)

end State

namespace Run

/-- What a run ends in, and the state it leaves. -/
def outcome (act : Run α) (s : State) : Except Fault α × State :=
  act.run.run s

/-- A run with values in its hands changes arena and handles by the steps of a custody alone.  It
restores the stack of values and bodies unless it is stopped, and has the values of its result in its
hands at the end. -/
def Conserves (act : Run α) (s : State) (hand : List Value) (out : α → List Value) : Prop :=
  match act.outcome s with
  | (.ok x, s') => s.Level s' ∧ Custody.Path s.pinned (s.custody hand) (s'.custody (out x))
  | (.error (.raised _), s') => s.Level s' ∧ Custody.Path s.pinned (s.custody hand) (s'.custody [])
  | (.error .exhausted, s') => Custody.Path s.pinned (s.custody hand) (s'.custody [])

section Rules

variable {α β : Type} {s : State} {hand : List Value}

/-- Values can be let go of. -/
theorem custody_path_nil {pinned : Set Proxy} (s : State) (hand : List Value) :
    Custody.Path pinned (s.custody hand) (s.custody []) :=
  State.custody_path_of_within rfl Set.Subset.rfl (State.within_inUse fun _ hv => absurd hv List.not_mem_nil)

theorem Conserves.ok {act : Run α} {out : α → List Value} (h : Conserves act s hand out) {x : α}
    {s' : State} (heq : act.outcome s = (.ok x, s')) :
    s.Level s' ∧ Custody.Path s.pinned (s.custody hand) (s'.custody (out x)) := by
  rw [Conserves, heq] at h
  exact h

/-- However a run ends, arena and handles change by the steps of a custody. -/
theorem Conserves.path_nil {act : Run α} {out : α → List Value} (h : Conserves act s hand out) :
    Custody.Path s.pinned (s.custody hand) ((act.outcome s).2.custody []) := by
  rw [Conserves] at h
  rcases heq : act.outcome s with ⟨result, s'⟩
  rw [heq] at h
  cases result with
  | ok x => exact h.2.trans (custody_path_nil s' (out x))
  | error fault =>
      cases fault with
      | raised e => exact h.2
      | exhausted => exact h

theorem Conserves.arises {act : Run α} {out : α → List Value} (h : Conserves act s hand out)
    (hs : s.Arises hand) {x : α} {s' : State} (heq : act.outcome s = (.ok x, s')) :
    s'.Arises (out x) :=
  hs.trans ((h.ok heq).2.mono (Set.empty_subset _))

/-! ## Results -/

/-- A result is covered by what is in hand and in use. -/
theorem conserves_pure {x : α} {out : α → List Value} (hcov : ∀ v ∈ out x, s.Covers hand v) :
    Conserves (pure x) s hand out :=
  ⟨State.Level.refl s, State.custody_path_of_within rfl Set.Subset.rfl (State.within_inUse hcov)⟩

theorem conserves_fail {e : Error} {out : α → List Value} :
    Conserves (Run.fail e : Run α) s hand out :=
  ⟨State.Level.refl s, custody_path_nil s hand⟩

theorem conserves_ofExcept {r : Except Error α} {out : α → List Value}
    (hcov : ∀ x, r = .ok x → ∀ v ∈ out x, s.Covers hand v) :
    Conserves (Run.ofExcept r) s hand out := by
  cases r with
  | ok x => exact conserves_pure (hcov x rfl)
  | error e => exact conserves_fail

theorem conserves_orFail {e : Error} {o : Option α} {out : α → List Value}
    (hcov : ∀ x, o = some x → ∀ v ∈ out x, s.Covers hand v) :
    Conserves (Run.orFail e o) s hand out := by
  cases o with
  | some x => exact conserves_pure (hcov x rfl)
  | none => exact conserves_fail

/-! ## One run after the other -/

theorem outcome_bind (act : Run α) (f : α → Run β) (s : State) :
    (act >>= f).outcome s =
      match act.outcome s with
      | (.ok x, s') => (f x).outcome s'
      | (.error e, s') => (.error e, s') := by
  simp only [outcome, ExceptT.run_bind, StateT.run_bind]
  rcases act.run.run s with ⟨result, s'⟩
  cases result <;> rfl

theorem outcome_ofExcept (r : Except Error α) (s : State) :
    (Run.ofExcept r).outcome s = (r.mapError .raised, s) := by
  cases r <;> rfl

theorem outcome_orFail (e : Error) (o : Option α) (s : State) :
    (Run.orFail e o).outcome s =
      (match o with
        | some x => .ok x
        | none => .error (.raised e), s) := by
  cases o <;> rfl

/-- A run goes on from where another one ended. -/
theorem Conserves.bind {act : Run α} {f : α → Run β} {mid : α → List Value} {out : β → List Value}
    (hact : Conserves act s hand mid)
    (hf : ∀ x s', act.outcome s = (.ok x, s') → s.Level s' → Conserves (f x) s' (mid x) out) :
    Conserves (act >>= f) s hand out := by
  rw [Conserves, outcome_bind]
  rcases heq : act.outcome s with ⟨result, s'⟩
  cases result with
  | ok x =>
      obtain ⟨hlevel, hpath⟩ := hact.ok heq
      have hnext := hf x s' heq hlevel
      rw [Conserves, hlevel.pinned_eq] at hnext
      simp only
      rcases heq' : (f x).outcome s' with ⟨result', s''⟩
      rw [heq'] at hnext
      cases result' with
      | ok y => exact ⟨hlevel.trans hnext.1, hpath.trans hnext.2⟩
      | error fault =>
          cases fault with
          | raised e => exact ⟨hlevel.trans hnext.1, hpath.trans hnext.2⟩
          | exhausted => exact hpath.trans hnext
  | error fault =>
      rw [Conserves, heq] at hact
      cases fault <;> exact hact

/-- Reading the state changes nothing. -/
theorem conserves_get {f : State → Run β} {out : β → List Value}
    (hf : Conserves (f s) s hand out) : Conserves (get >>= f) s hand out := by
  rwa [Conserves, outcome_bind]

theorem conserves_bind_ofExcept {r : Except Error α} {f : α → Run β} {out : β → List Value}
    (hf : ∀ x, r = .ok x → Conserves (f x) s hand out) :
    Conserves (Run.ofExcept r >>= f) s hand out := by
  cases r with
  | ok x =>
      have hx := hf x rfl
      rwa [Conserves, outcome_bind]
  | error e => exact ⟨State.Level.refl s, custody_path_nil s hand⟩

theorem conserves_bind_orFail {e : Error} {o : Option α} {f : α → Run β} {out : β → List Value}
    (hf : ∀ x, o = some x → Conserves (f x) s hand out) :
    Conserves (Run.orFail e o >>= f) s hand out := by
  cases o with
  | some x =>
      have hx := hf x rfl
      rwa [Conserves, outcome_bind]
  | none => exact ⟨State.Level.refl s, custody_path_nil s hand⟩

theorem conserves_bind_pure {x : α} {f : α → Run β} {out : β → List Value}
    (hf : Conserves (f x) s hand out) : Conserves (pure x >>= f) s hand out := by
  rwa [Conserves, outcome_bind]

theorem conserves_bind_fail {e : Error} {f : α → Run β} {out : β → List Value} :
    Conserves (Run.fail e >>= f) s hand out :=
  ⟨State.Level.refl s, custody_path_nil s hand⟩

/-- A run that goes on unless it fails at once. -/
theorem conserves_unless {c : Prop} [Decidable c] {e : Error} {f : PUnit → Run β}
    {out : β → List Value} (hf : ¬c → Conserves (f ⟨⟩) s hand out) :
    Conserves (if c then Run.fail e >>= f else f ⟨⟩) s hand out := by
  by_cases hc : c
  · rw [if_pos hc]
    exact conserves_bind_fail
  · rw [if_neg hc]
    exact hf hc

/-- A run whose result is only wrapped. -/
theorem conserves_map {act : Run α} {g : α → β} {out : β → List Value}
    (hact : Conserves act s hand fun x => out (g x)) :
    Conserves (act >>= fun x => pure (g x)) s hand out :=
  hact.bind fun _ _ _ _ => conserves_pure fun _ hv => State.covers_of_mem_hand hv

/-! ## Runs that only read -/

/-- A run that changes nothing and cannot be stopped. -/
def Reads (act : Run α) : Prop :=
  ∀ s, ∃ r : Except Error α, act.outcome s = (r.mapError .raised, s)

theorem reads_pure (x : α) : Reads (pure x) :=
  fun _ => ⟨.ok x, rfl⟩

theorem reads_get : Reads (get : Run State) :=
  fun s => ⟨.ok s, rfl⟩

theorem reads_fail (e : Error) : Reads (Run.fail e : Run α) :=
  fun _ => ⟨.error e, rfl⟩

theorem reads_ofExcept (r : Except Error α) : Reads (Run.ofExcept r) :=
  fun s => ⟨r, outcome_ofExcept r s⟩

theorem reads_orFail (e : Error) (o : Option α) : Reads (Run.orFail e o) := by
  cases o with
  | none => exact reads_fail e
  | some x => exact reads_pure x

theorem Reads.bind {act : Run α} {f : α → Run β} (hact : Reads act) (hf : ∀ x, Reads (f x)) :
    Reads (act >>= f) := by
  intro s
  obtain ⟨r, hr⟩ := hact s
  rw [outcome_bind, hr]
  cases r with
  | error e => exact ⟨.error e, rfl⟩
  | ok x => exact hf x s

theorem conserves_of_reads {act : Run α} (hact : Reads act) :
    Conserves act s hand fun _ => [] := by
  obtain ⟨r, hr⟩ := hact s
  rw [Conserves, hr]
  cases r <;> exact ⟨State.Level.refl s, custody_path_nil s hand⟩

/-- A run that only reads has its result in the state it started in. -/
theorem conserves_bind_of_reads {act : Run α} {f : α → Run β} {out : β → List Value}
    (hact : Reads act) (hf : ∀ x, act.outcome s = (.ok x, s) → Conserves (f x) s hand out) :
    Conserves (act >>= f) s hand out := by
  obtain ⟨r, hr⟩ := hact s
  cases r with
  | ok x =>
      have hx := hf x hr
      rwa [Conserves, outcome_bind, hr]
  | error e =>
      rw [Conserves, outcome_bind, hr]
      exact ⟨State.Level.refl s, custody_path_nil s hand⟩

/-! ## Values in hand -/

/-- A run may start with less in hand than there is. -/
theorem Conserves.of_hand {act : Run α} {hand' : List Value} {out : α → List Value}
    (hact : Conserves act s hand' out) (hcov : ∀ v ∈ hand', s.Covers hand v) :
    Conserves act s hand out := by
  have hpath : Custody.Path s.pinned (s.custody hand) (s.custody hand') :=
    State.custody_path_of_within rfl Set.Subset.rfl (State.within_inUse hcov)
  rw [Conserves] at hact ⊢
  rcases heq : act.outcome s with ⟨result, s'⟩
  rw [heq] at hact
  cases result with
  | ok x => exact ⟨hact.1, hpath.trans hact.2⟩
  | error fault =>
      cases fault with
      | raised e => exact ⟨hact.1, hpath.trans hact.2⟩
      | exhausted => exact hpath.trans hact

/-- A run that needs nothing in hand. -/
theorem Conserves.of_nil {act : Run α} {out : α → List Value} (hact : Conserves act s [] out) :
    Conserves act s hand out :=
  hact.of_hand fun _ hv => absurd hv List.not_mem_nil

/-- A run may end with less in hand than there is. -/
theorem Conserves.of_out {act : Run α} {mid out : α → List Value}
    (hact : Conserves act s hand mid)
    (hcov : ∀ x s', act.outcome s = (.ok x, s') → s.Level s' → ∀ v ∈ out x, s'.Covers (mid x) v) :
    Conserves act s hand out := by
  have hact' := hact
  rw [Conserves] at hact ⊢
  rcases heq : act.outcome s with ⟨result, s'⟩
  rw [heq] at hact
  cases result with
  | ok x =>
      exact ⟨hact.1, hact.2.trans (State.custody_path_of_within rfl Set.Subset.rfl
        (State.within_inUse (hcov x s' heq hact.1)))⟩
  | error fault => cases fault <;> exact hact

/-- A run may end with fewer of its values in hand. -/
theorem Conserves.of_out_subset {act : Run α} {mid out : α → List Value}
    (hact : Conserves act s hand mid) (hsub : ∀ x, ∀ v ∈ out x, v ∈ mid x) :
    Conserves act s hand out :=
  hact.of_out fun x _ _ _ v hv => State.covers_of_mem_hand (hsub x v hv)

/-! ## Changes of the state -/

/-- A change of values that leaves the arena as it is, up to its contents. -/
theorem conserves_set {t : State} {out : List Value} (hlevel : s.Level t)
    (harena : t.arena.outline = s.arena.outline)
    (hwithin : s.cells.Within (s.inUse hand) t.cells (t.inUse out)) :
    Conserves (MonadStateOf.set t : Run PUnit) s hand fun _ => out :=
  ⟨hlevel, State.custody_path_of_within harena hlevel.overrides_subset hwithin⟩

theorem conserves_modify {f : State → State} {out : List Value} (hlevel : s.Level (f s))
    (harena : (f s).arena.outline = s.arena.outline)
    (hwithin : s.cells.Within (s.inUse hand) (f s).cells ((f s).inUse out)) :
    Conserves (modify f : Run PUnit) s hand fun _ => out :=
  ⟨hlevel, State.custody_path_of_within harena hlevel.overrides_subset hwithin⟩

end Rules

end Run

end ObjectBridge
