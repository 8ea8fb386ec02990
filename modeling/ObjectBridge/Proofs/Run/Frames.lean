import ObjectBridge.Proofs.Arena.Contents
import ObjectBridge.Proofs.Class.Contents
import ObjectBridge.Proofs.Run.Conserves

/-!
# Runs inside of runs

The ways in which a run goes on inside of another one, each with its rule: values are held meanwhile, a
frame is pushed, a body is activated.  What a run held is back in its hands afterwards.

* `Conserves.holding` — a run while values stay in use.
* `Conserves.activate` and `conserves_invoke` — the run of a body.
* `conserves_setArena` — an operation on the arena that is a path of a custody.
-/

namespace ObjectBridge.Run

variable {α : Type} {s : State} {hand : List Value}

/-! ## Changes of the arena -/

/-- The arena changes by the steps of a custody, and its objects hold nothing that is not covered. -/
theorem custody_path_of_arena {t : State} {pinned ps : Set Proxy} {out : List Value}
    (hpath : Custody.Path pinned (s.custody hand) ⟨t.arena, ps, s.classes.allOverrides⟩)
    (hproxies : ∀ p, s.cells.Reaches (s.inUse out) p → p ∈ ps)
    (hheld : ∀ v ∈ t.arena.heldValues, s.Covers out v) (hcells : t.cells = s.cells)
    (hclasses : t.classes = s.classes) (hroots : t.roots = s.roots) :
    Custody.Path pinned (s.custody hand) (t.custody out) := by
  refine hpath.tail (.move rfl ?_ (by rw [hclasses]))
  intro p hp
  refine hproxies p ?_
  have hwithin : s.cells.Within (s.inUse out) t.cells (t.inUse out) := by
    rw [hcells]
    refine Cells.within_of_covers ?_
    intro v hv
    rcases State.mem_inUse_iff.mp hv with hv | hv | hv
    · exact State.covers_of_mem_hand (s := s) hv
    · rw [hroots] at hv
      exact State.covers_of_mem_roots (s := s) hv out
    · rcases List.mem_append.mp hv with hv | hv
      · rw [hclasses] at hv
        exact State.covers_of_mem_heldValues (s := s) (List.mem_append_left _ hv) out
      · exact hheld v hv
  exact hwithin.reaches hp

theorem conserves_setArena {a : Arena} {ps : Set Proxy} {out : List Value}
    (hpath : Custody.Path s.pinned (s.custody hand) ⟨a, ps, s.classes.allOverrides⟩)
    (hproxies : ∀ p, s.cells.Reaches (s.inUse out) p → p ∈ ps)
    (hheld : ∀ v ∈ a.heldValues, s.Covers out v) :
    Conserves (setArena a) s hand fun _ => out :=
  ⟨⟨rfl, rfl, rfl, id, Set.Subset.rfl⟩, custody_path_of_arena (t := { s with arena := a }) hpath hproxies hheld
    rfl rfl rfl⟩

/-- An operation on the arena that makes no handle and adds nothing to what the objects hold. -/
theorem conserves_setArena_of_step {a : Arena}
    (hstep : Custody.Step s.pinned (s.custody hand)
      ⟨a, (s.custody hand).proxies, s.classes.allOverrides⟩)
    (hheld : ∀ v ∈ a.heldValues, s.Covers hand v) :
    Conserves (setArena a) s hand fun _ => hand :=
  conserves_setArena (Relation.ReflTransGen.single hstep) (fun _ hp => hp) hheld

/-- What the arena holds is covered. -/
theorem covers_of_mem_arena {v : Value} (hv : v ∈ s.arena.heldValues) : s.Covers hand v :=
  State.covers_of_mem_heldValues (List.mem_append_right _ hv) hand

/-- What the classes hold is covered. -/
theorem covers_of_mem_classes {v : Value} (hv : v ∈ s.classes.heldValues) :
    s.Covers hand v :=
  State.covers_of_mem_heldValues (List.mem_append_left _ hv) hand

/-- Classes are added, and hold nothing that is not covered. -/
theorem conserves_setClasses {classes : ClassTable}
    (hmore : s.classes.allOverrides ⊆ classes.allOverrides)
    (hclasses : ∀ v ∈ classes.heldValues, s.Covers hand v) :
    Conserves (modify fun s => { s with classes := classes } : Run PUnit) s hand fun _ => [] := by
  refine conserves_modify ⟨rfl, rfl, rfl, id, hmore⟩ rfl (Cells.within_of_covers ?_)
  intro v hv
  rcases State.mem_inUse_iff.mp hv with hv | hv | hv
  · exact absurd hv List.not_mem_nil
  · exact State.covers_of_mem_roots (s := s) hv hand
  · rcases List.mem_append.mp hv with hv | hv
    · exact hclasses v hv
    · exact covers_of_mem_arena hv

/-- A new handle reaches its own proxy and nothing else. -/
theorem reaches_object_cons {h : Handle} {p : Proxy}
    (hp : s.cells.Reaches (s.inUse (.object h :: hand)) p) :
    p ∈ insert h.proxy (s.custody hand).proxies :=
  Cells.reaches_object_cons hp

/-! ## Entering and leaving -/

theorem outcome_within (enter leave : State → State) (act : Run α) (s : State) :
    (within enter leave act).outcome s =
      match act.outcome (enter s) with
      | (.error .exhausted, t) => (.error .exhausted, t)
      | (result, t) => (result, leave t) := rfl

/-- A run between a change of the state and one that takes it back. -/
theorem Conserves.within {act : Run α} {enter leave : State → State} {inner : List Value}
    {mid out : α → List Value} (hact : Conserves act (enter s) inner mid)
    (hkept : s.kept ⊆ (enter s).kept)
    (henter : Custody.Path s.pinned (s.custody hand) ((enter s).custody inner))
    (hlevel : ∀ t, (enter s).Level t → s.Level (leave t))
    (hleave : ∀ x t, (enter s).Level t →
      Custody.Path s.pinned (t.custody (mid x)) ((leave t).custody (out x)))
    (hfail : ∀ t, (enter s).Level t →
      Custody.Path s.pinned (t.custody []) ((leave t).custody [])) :
    Conserves (within enter leave act) s hand out := by
  have hfewer {c c' : Custody} (hpath : Custody.Path (enter s).pinned c c') :
      Custody.Path s.pinned c c' := hpath.mono (State.pinned_subset hkept)
  rw [Conserves, outcome_within]
  rw [Conserves] at hact
  rcases heq : act.outcome (enter s) with ⟨result, t⟩
  rw [heq] at hact
  cases result with
  | ok x => exact ⟨hlevel t hact.1, henter.trans ((hfewer hact.2).trans (hleave x t hact.1))⟩
  | error fault =>
      cases fault with
      | raised e =>
          exact ⟨hlevel t hact.1, henter.trans ((hfewer hact.2).trans (hfail t hact.1))⟩
      | exhausted => exact henter.trans (hfewer hact)

/-- A path between states that hold the same values, however these are ordered. -/
theorem custody_path_of_subset {s t : State} {hand hand' : List Value} {pinned : Set Proxy}
    (harena : t.arena = s.arena) (hcells : t.cells = s.cells) (hclasses : t.classes = s.classes)
    (hsub : ∀ v ∈ t.inUse hand', v ∈ s.inUse hand) :
    Custody.Path pinned (s.custody hand) (t.custody hand') := by
  refine State.custody_path_of_within (by rw [harena]) (by rw [hclasses]) ?_
  rw [hcells]
  exact Cells.within_of_covers fun v hv => Cells.covers_of_mem (hsub v hv)

/-- A frame plays no role for the handles. -/
theorem Conserves.within_frames {act : Run α} {enter leave : State → State} {out : α → List Value}
    (hact : Conserves act (enter s) hand out)
    (henter : ∀ t : State, (enter t).toWorld = t.toWorld ∧ (enter t).roots = t.roots ∧
      t.Level (enter t))
    (hleave : ∀ t : State, (leave t).toWorld = t.toWorld ∧ (leave t).roots = t.roots ∧
      t.Level (leave t)) :
    Conserves (Run.within enter leave act) s hand out := by
  have hpath {f : State → State} (hf : ∀ t : State, (f t).toWorld = t.toWorld ∧
      (f t).roots = t.roots ∧ t.Level (f t)) (t : State) (vs : List Value) :
      Custody.Path s.pinned (t.custody vs) ((f t).custody vs) := by
    obtain ⟨hworld, hroots, -⟩ := hf t
    refine custody_path_of_subset (congrArg World.arena hworld) (congrArg World.cells hworld)
      (congrArg World.classes hworld) ?_
    intro v hv
    rwa [State.inUse, hroots, hworld] at hv
  have hkept : (enter s).kept = s.kept := (henter s).2.2.kept_eq
  refine hact.within (fun v hv => hkept ▸ hv) (hpath henter s hand) ?_
    (fun x t _ => hpath hleave t (out x)) (fun t _ => hpath hleave t [])
  intro t hlevel
  exact (henter s).2.2.trans (hlevel.trans (hleave t).2.2)

/-- Values that are held are in hand again afterwards. -/
theorem Conserves.holding {act : Run α} {values : List Value} {out : α → List Value}
    (hact : Conserves act { s with held := values :: s.held } hand out) :
    Conserves (holding values act) s (values ++ hand) fun x => values ++ out x := by
  have hleave (t : State) (hlevel : ({ s with held := values :: s.held } : State).Level t)
      (vs : List Value) :
      Custody.Path s.pinned (t.custody vs)
        (({ t with held := t.held.tail } : State).custody (values ++ vs)) := by
    refine custody_path_of_subset rfl rfl rfl ?_
    intro v hv
    have hheld : t.held = values :: s.held := hlevel.held_eq
    simp only [State.mem_inUse_iff, State.mem_roots_iff, hheld, List.tail_cons,
      List.flatten_cons, List.mem_append] at hv ⊢
    tauto
  refine hact.within ?_ ?_ ?_ (fun x t hlevel => hleave t hlevel (out x)) ?_
  · rw [State.kept_cons_held]
    exact List.subset_append_right _ _
  · refine custody_path_of_subset rfl rfl rfl ?_
    intro v hv
    simp only [State.mem_inUse_iff, State.mem_roots_iff, List.flatten_cons,
      List.mem_append] at hv ⊢
    tauto
  · intro t hlevel
    refine ⟨?_, hlevel.tail_eq, hlevel.receiver_eq, hlevel.stepsLeft_eq, hlevel.overrides_subset⟩
    show t.held.tail = s.held
    rw [hlevel.held_eq]
    rfl
  · intro t hlevel
    refine (hleave t hlevel []).trans ?_
    exact custody_path_nil _ _

/-- Values stay in use while a run starts with nothing in its hands. -/
theorem Conserves.holding_nil {act : Run α} {values : List Value} {out : α → List Value}
    (hact : Conserves act { s with held := values :: s.held } [] out) :
    Conserves (Run.holding values act) s values fun x => values ++ out x := by
  have hhold := hact.holding
  rwa [List.append_nil] at hhold

theorem Conserves.inNativeFrame {act : Run α} {out : α → List Value}
    (hact : Conserves act { s with frames := .native :: s.frames } hand out) :
    Conserves (inNativeFrame act) s hand out :=
  hact.within_frames (fun _ => ⟨rfl, rfl, rfl, rfl, rfl, id, Set.Subset.rfl⟩)
      fun _ => ⟨rfl, rfl, rfl, rfl, rfl, id, Set.Subset.rfl⟩

theorem Conserves.inHostFrame {act : Run α} {frame : Frame} {out : α → List Value}
    (hact : Conserves act { s with frames := frame :: s.frames, hostDepth := s.hostDepth + 1 } hand
      out) : Conserves (inHostFrame frame act) s hand out := by
  refine conserves_get ?_
  split
  · exact conserves_fail
  · exact hact.within_frames (fun _ => ⟨rfl, rfl, rfl, rfl, rfl, id, Set.Subset.rfl⟩)
      fun _ => ⟨rfl, rfl, rfl, rfl, rfl, id, Set.Subset.rfl⟩

/-! ## Bodies -/

/-- The state in which a body starts. -/
def withActivation (s : State) (body : Activation) : State :=
  { s with activations := body :: s.activations }

/-- What is kept is kept while a body runs. -/
theorem kept_subset_withActivation (s : State) (body : Activation) :
    s.kept ⊆ (withActivation s body).kept := by
  intro v hv
  simp only [State.kept, withActivation, List.tail_cons, List.mem_append]
  rcases State.held_or_running_of_mem_kept hv with hv | hv
  · exact Or.inl (Or.inl hv)
  · exact Or.inr hv

/-- A run in an activation of its own, whose values are in hand before. -/
theorem Conserves.withinActivation {act : Run α} {body : Activation} {out : α → List Value}
    (hact : Conserves act (withActivation s body) hand out) :
    Conserves
      (Run.within (fun s => { s with activations := body :: s.activations })
        (fun s => { s with activations := s.activations.tail }) act) s (body.values ++ hand) out := by
  have hleave (t : State) (vs : List Value) :
      Custody.Path s.pinned (t.custody vs)
        (({ t with activations := t.activations.tail } : State).custody vs) := by
    refine custody_path_of_subset rfl rfl rfl ?_
    intro v hv
    have htail : v ∈ t.activations.tail.flatMap Activation.values →
        v ∈ t.activations.flatMap Activation.values := by
      simp only [List.mem_flatMap]
      rintro ⟨a, ha, hv⟩
      exact ⟨a, List.mem_of_mem_tail ha, hv⟩
    simp only [State.mem_inUse_iff, State.mem_roots_iff] at hv ⊢
    tauto
  refine Conserves.within hact (kept_subset_withActivation s body) ?_ ?_
    (fun x t _ => hleave t (out x)) (fun t _ => hleave t [])
  · refine custody_path_of_subset rfl rfl rfl ?_
    intro v hv
    simp only [State.mem_inUse_iff, State.mem_roots_iff, List.flatMap_cons,
      List.mem_append] at hv ⊢
    tauto
  · intro t hlevel
    have htail : t.activations.tail = s.activations := hlevel.tail_eq
    exact ⟨hlevel.held_eq, congrArg List.tail htail,
      congrArg (fun acts => acts.head?.map Activation.receiver) htail, hlevel.stepsLeft_eq,
      hlevel.overrides_subset⟩

/-- What a body works with is in hand before, and what it leaves is in hand afterwards. -/
theorem Conserves.activate {act : Run Unit} {body : Activation}
    (hact : Conserves act (withActivation s body) hand fun _ => []) :
    Conserves (activate body act) s (body.values ++ hand) Activation.values := by
  refine Conserves.withinActivation (hact.bind ?_)
  intro _ t _ hlevel
  refine conserves_get (conserves_pure ?_)
  intro v hv
  have htail : t.activations.head?.isSome = true := by
    have hreceiver := hlevel.receiver_eq
    cases hacts : t.activations <;> simp_all [withActivation]
  obtain ⟨a, ha⟩ := Option.isSome_iff_exists.mp htail
  have hhead : t.activations.headD body = a := by
    rw [List.headD_eq_head?_getD, ha, Option.getD_some]
  rw [hhead] at hv
  exact State.covers_of_mem_roots
    (State.mem_roots_of_mem_activation (List.mem_of_mem_head? ha) hv) _

/-- A body that any state may run conserves handles. -/
def ConservesAll (exec : Exec) : Prop :=
  ∀ code s, Conserves (exec code) s [] fun _ => []

/-- Host code starts with what it captured and what it is called with in hand. -/
theorem conserves_invoke {exec : Exec} (hexec : ConservesAll exec) (f : Callable)
    (receiver : Option Handle) (args : List Value) :
    Conserves (invoke exec f receiver args) s
      (f.values ++ ((receiver.map Value.object).toList ++ args)) Activation.values := by
  refine Conserves.of_out_subset (Conserves.holding (Conserves.of_hand
    (hexec f.code _).activate ?_)) ?_
  · intro v hv
    simp only [Activation.values, List.append_nil, Option.map_none, Option.toList_none,
      List.mem_append] at hv
    rcases hv with (hv | hv) | hv
    · exact State.covers_of_mem_hand (List.mem_append_left _ hv)
    · exact State.covers_of_mem_hand (List.mem_append_right _ hv)
    · refine State.covers_of_mem_roots ?_ _
      exact State.mem_roots_of_mem_held List.mem_cons_self hv
  · intro a v hv
    exact List.mem_append_right _ hv

/-- The running body changes, with what is in hand. -/
theorem conserves_modifyActivation {f : Activation → Activation} {out : List Value}
    (hout : ∀ v ∈ out, v ∈ hand)
    (hreceiver : ∀ a, (f a).receiver = a.receiver)
    (hvalues : ∀ a ∈ s.activations, ∀ v ∈ (f a).values, v ∈ hand ∨ v ∈ a.values) :
    Conserves (modifyActivation f) s hand fun _ => out := by
  refine conserves_modify ⟨rfl, ?_, ?_, id, Set.Subset.rfl⟩ rfl ?_
  · cases s.activations <;> rfl
  · cases s.activations <;> simp [hreceiver]
  · refine Cells.within_of_covers ?_
    intro v hv
    rcases State.mem_inUse_iff.mp hv with hv | hv | hv
    · exact State.covers_of_mem_hand (hout v hv)
    · have hrest : v ∈ s.activations.flatMap Activation.values ∨ v ∈ hand ∨ v ∈ s.roots := by
        rw [State.mem_roots_iff] at hv ⊢
        rcases hv with hv | hv | hv | hv
        · tauto
        · tauto
        · tauto
        · obtain ⟨a, ha, hv⟩ := List.mem_flatMap.mp hv
          simp only [List.mem_flatMap]
          -- Only the innermost activation is changed.
          cases hacts : s.activations with
          | nil => simp [hacts] at ha
          | cons b rest =>
              rw [hacts, List.modifyHead_cons, List.mem_cons] at ha
              rcases ha with rfl | ha
              · rcases hvalues b (by simp [hacts]) v hv with hv | hv
                · exact Or.inr (Or.inl hv)
                · exact Or.inl ⟨b, by simp, hv⟩
              · exact Or.inl ⟨a, by simp [ha], hv⟩
      rcases hrest with hv | hv | hv
      · exact State.covers_of_mem_roots (State.mem_roots_iff.mpr (by tauto)) _
      · exact State.covers_of_mem_hand hv
      · exact State.covers_of_mem_roots hv _
    · exact State.covers_of_mem_heldValues (s := s) hv _

/-! ## Steps and errors -/

theorem outcome_tick (s : State) :
    tick.outcome s =
      match s.stepsLeft with
      | none => (.ok (), s)
      | some 0 => (.error .exhausted, s)
      | some (n + 1) => (.ok (), { s with stepsLeft := some n }) := rfl

/-- A run may be stopped wherever nothing is in its hands. -/
theorem conserves_tick : Conserves tick s [] fun _ => [] := by
  rw [Conserves, outcome_tick]
  rcases hsteps : s.stepsLeft with _ | _ | n
  · exact ⟨State.Level.refl s, Relation.ReflTransGen.refl⟩
  · exact Relation.ReflTransGen.refl
  · refine ⟨⟨rfl, rfl, rfl, ?_, Set.Subset.rfl⟩, custody_path_of_subset rfl rfl rfl fun _ hv => hv⟩
    intro hnone
    rw [hsteps] at hnone
    cases hnone

theorem outcome_attempt (act : Run α) (s : State) :
    (Run.attempt act).outcome s =
      match act.outcome s with
      | (.ok x, t) => (.ok (.ok x), t)
      | (.error (.raised e), t) => (.ok (.error e), t)
      | (.error .exhausted, t) => (.error .exhausted, t) := rfl

/-- A run whose error is told instead of raised. -/
theorem Conserves.attempt {act : Run α} {out : α → List Value}
    (hact : Conserves act s hand out) :
    Conserves (attempt act) s hand fun
      | .ok x => out x
      | .error _ => [] := by
  rw [Conserves, outcome_attempt]
  rw [Conserves] at hact
  rcases heq : act.outcome s with ⟨result, t⟩
  rw [heq] at hact
  cases result with
  | ok x => exact hact
  | error fault => cases fault <;> exact hact

/-- An operation on every value of a list, of which the rest is in use meanwhile. -/
theorem conserves_mapHeld {f : Value → Run Value}
    (hf : ∀ v s, Conserves (f v) s [v] fun u => [u]) (vs : List Value) (s : State) :
    Conserves (mapHeld f vs) s vs fun us => us := by
  induction vs generalizing s with
  | nil => exact conserves_pure (by simp)
  | cons v rest ih =>
      have hfirst : Conserves (Run.holding rest (f v)) s (v :: rest) fun u => rest ++ [u] :=
        (hf v _).holding.of_hand fun w hw => State.covers_of_mem_hand (by simpa [or_comm] using hw)
      refine hfirst.bind ?_
      intro u t _ _
      have hrest : Conserves (Run.holding [u] (mapHeld f rest)) t (rest ++ [u]) fun us => [u] ++ us :=
        (ih _).holding.of_hand fun w hw => State.covers_of_mem_hand (by simpa [or_comm] using hw)
      exact conserves_map hrest

end ObjectBridge.Run
