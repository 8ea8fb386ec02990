import ObjectBridge.Proofs.Call.Twin
import ObjectBridge.Proofs.Script.Restricted

/-!
# Runs that follow one another

Two runs go on side by side, in states that differ in native states, in constructors and in what was logged.  The first
one leads: it is the run of a script that is stopped at certain requests.  As long as it is not stopped, the second one
follows: it ends with the same result, and the states differ in nothing else again.

* `Mirror` — how the two states may differ, and which requests stop the first run.
* `Mirror.Between` — two such states.
* `Mirror.Follows` — a run that follows another one.
* `Follows.bind` and the other rules — a run follows if its parts do.
-/

namespace ObjectBridge

open Run

/-- What two states have in common so that a run in the second one follows a run in the first one. -/
structure Mirror where
  /-- How the native states of two objects of a class are related, given the classes of the first state. -/
  native : ClassTable → NativeRel
  /-- How the classes are related. -/
  classes : ClassTable → ClassTable → Prop
  /-- What is known about the classes of the first state and about the objects of both states. -/
  kept : ClassTable → Arena → Arena → Prop
  /-- What is known about the objects of two worlds that were logged. -/
  noted : Arena → Arena → Prop
  /-- The requests that stop the first run. -/
  refuses : Script.Refusals
  /-- Whether objects may be removed. -/
  removes : Prop
  /-- Whether steps are not limited. -/
  unlimited : Prop
  native_some : ∀ t c x, native t c (some x) (some x)
  native_inj : ∀ {t c x y}, native t c (some x) (some y) → y = x
  native_snoc : ∀ {t t' c}, classes t t' → classes (t.snoc c) (t'.snoc c) → c.id = t.nextId →
    ∀ cls x y, native t cls x y → native (t.snoc c) cls x y
  transparent : ∀ {t t'}, classes t t' → (native t).Transparent t.heldValues
  alike : ∀ {t t'}, classes t t' → t.Alike t'
  /-- A class is added to both tables. -/
  define : ∀ {s : State} {t' d c}, classes s.classes t' → refuses s (.define d) = false →
    s.classes.build d = .ok c → classes (s.classes.snoc c) (t'.snoc c)
  defineSubclass : ∀ {t t' name base overrides c}, classes t t' →
    t.describeSubclass name base overrides = .ok c → classes (t.snoc c) (t'.snoc c)
  /-- A class that may be described has the same constructors. -/
  describe : ∀ {s : State} {t' id c}, classes s.classes t' → refuses s (.describe id) = false →
    s.classes.descriptor id = .ok c → (t'.findLazy c.id).isSome = (s.classes.findLazy c.id).isSome ∧
      t'.findConstructors c.id = s.classes.findConstructors c.id
  /-- Objects of a class that may be counted have the same native states. -/
  instanceCount : ∀ {s : State} {id}, refuses s (.instanceCount id) = false → (native s.classes).Settles id
  count : ∀ {s : State} {id}, refuses s (.count id) = false →
    (native s.classes).Settles id ∧ ∀ c ∈ s.classes.descendants id, (native s.classes).Settles c
  kept_snoc : ∀ {t d a a'}, d.id = t.nextId → kept t a a' → kept (t.snoc d) a a'
  kept_spares : ∀ {t a a' b b'}, kept t a a' → a.Spares b → a'.Spares b' → kept t b b'
  kept_path : ∀ {t a a' b b'}, removes → kept t a a' → a.Path b → a'.Path b' → kept t b b'
  noted_of_kept : ∀ {t a a'}, kept t a a' → noted a a'
  destroy : ∀ {s : State} {h}, refuses s (.destroy h) = false → removes
  reclaim : ∀ {s : State}, refuses s .reclaim = false → removes
  install : ∀ {s : State} {cls seat next}, refuses s (.install cls seat next) = false → removes

namespace Mirror

variable {M : Mirror} {s s' : State}

/-- The worlds of the two states, at some moment. -/
structure Worlds (M : Mirror) (w w' : World) : Prop where
  cells_eq : w'.cells = w.cells
  classes : M.classes w.classes w'.classes
  arena : w.arena.Twin (M.native w.classes) w'.arena

theorem Worlds.twin {w w' : World} (h : M.Worlds w w') : w.Twin (M.native w.classes) w' :=
  ⟨h.cells_eq, M.alike h.classes, h.arena⟩

/-- Two states that differ in their worlds and in what was logged alone. -/
structure Between (M : Mirror) (s s' : State) : Prop where
  eq : s' = { s with toWorld := s'.toWorld, log := s'.log }
  worlds : M.Worlds s.toWorld s'.toWorld
  log : List.Forall₂ (fun e e' => M.Worlds e.1 e'.1 ∧ M.noted e.1.arena e'.1.arena ∧ e'.2 = e.2) s.log s'.log
  kept : M.kept s.classes s.arena s'.arena
  steps : M.unlimited → s.stepsLeft = none
  /-- Where objects may not be removed, some body runs. -/
  inside : M.removes ∨ s.frames ≠ []

theorem Between.twin (h : M.Between s s') : s.toWorld.Twin (M.native s.classes) s'.toWorld := h.worlds.twin

theorem Between.classes (h : M.Between s s') : s.classes.Alike s'.classes := M.alike h.worlds.classes

theorem Between.arena (h : M.Between s s') : s.arena.Twin (M.native s.classes) s'.arena := h.worlds.arena

theorem Between.cells_eq (h : M.Between s s') : s'.cells = s.cells := h.worlds.cells_eq

/-- What does not belong to the world and was not logged is the same. -/
theorem Between.congr {α : Type} (h : M.Between s s') (look : State → α)
    (hlook : ∀ (s : State) w l, look { s with toWorld := w, log := l } = look s) : look s' = look s := by
  rw [h.eq, hlook]

theorem Between.exists_eq (h : M.Between s s') : ∃ w l, s' = { s with toWorld := w, log := l } :=
  ⟨_, _, h.eq⟩

/-- The handles in use are the same, up to const views. -/
theorem Between.sameProxies (h : M.Between s s') : Arena.SameProxies s.handles s'.handles := by
  have hroots : s'.roots = s.roots := h.congr State.roots fun _ _ _ => rfl
  rw [State.handles, State.handles, hroots]
  exact h.twin.sameProxies (M.transparent h.worlds.classes) s.roots

/-- What is changed besides the worlds and what was logged is changed in both states. -/
theorem Between.update (h : M.Between s s') (f : State → State)
    (hf : ∀ (s : State) w l, f { s with toWorld := w, log := l } = { f s with toWorld := w, log := l })
    (hsteps : s.stepsLeft = none → (f s).stepsLeft = none) (hinside : M.removes ∨ (f s).frames ≠ []) :
    M.Between (f s) (f s') := by
  have hsame (s : State) : (f s).toWorld = s.toWorld ∧ (f s).log = s.log := by
    have hself : f s = { f s with toWorld := s.toWorld, log := s.log } := hf s s.toWorld s.log
    exact ⟨(congrArg (fun t : State => t.toWorld) hself).trans rfl, (congrArg State.log hself).trans rfl⟩
  have heq : f s' = { f s with toWorld := s'.toWorld, log := s'.log } := (congrArg f h.eq).trans (hf s _ _)
  refine ⟨?_, ?_, ?_, ?_, fun hfree => hsteps (h.steps hfree), hinside⟩
  · rw [(hsame s').1, (hsame s').2]
    exact heq
  · rw [(hsame s).1, (hsame s').1]
    exact h.worlds
  · rw [(hsame s).2, (hsame s').2]
    exact h.log
  · rw [(hsame s).1, (hsame s').1]
    exact h.kept

/-- Boxes are made and changed in both states. -/
theorem Between.setCells (h : M.Between s s') {cells cells' : Cells} (hcells : cells' = cells) :
    M.Between { s with cells := cells } { s' with cells := cells' } where
  eq := congrArg (fun t : State => { t with cells := cells' }) h.eq
  worlds := ⟨hcells, h.worlds.classes, h.worlds.arena⟩
  log := h.log
  kept := h.kept
  steps := h.steps
  inside := h.inside

theorem Between.setArena (h : M.Between s s') {a a' : Arena} (htwin : a.Twin (M.native s.classes) a')
    (hkept : M.kept s.classes a a') : M.Between { s with arena := a } { s' with arena := a' } where
  eq := congrArg (fun t : State => { t with arena := a' }) h.eq
  worlds := ⟨h.worlds.cells_eq, h.worlds.classes, htwin⟩
  log := h.log
  kept := hkept
  steps := h.steps
  inside := h.inside

/-- The arenas change by steps that remove nothing. -/
theorem Between.setArena_of_spares (h : M.Between s s') {a a' : Arena} (htwin : a.Twin (M.native s.classes) a')
    (hspares : s.arena.Spares a) (hspares' : s'.arena.Spares a') :
    M.Between { s with arena := a } { s' with arena := a' } :=
  h.setArena htwin (M.kept_spares h.kept hspares hspares')

/-- A class is added in both states. -/
theorem Between.snoc (h : M.Between s s') {c : ClassInfo} (hid : c.id = s.classes.nextId)
    (hclasses : M.classes (s.classes.snoc c) (s'.classes.snoc c)) :
    M.Between { s with classes := s.classes.snoc c } { s' with classes := s'.classes.snoc c } where
  eq := congrArg (fun t : State => { t with classes := s'.classes.snoc c }) h.eq
  worlds := ⟨h.worlds.cells_eq, hclasses, h.arena.mono (M.native_snoc h.worlds.classes hclasses hid)⟩
  log := h.log
  kept := M.kept_snoc hid h.kept
  steps := h.steps
  inside := h.inside

/-- A value is logged in both states. -/
theorem Between.logged (h : M.Between s s') (v : Value) :
    M.Between { s with log := (s.toWorld, v) :: s.log } { s' with log := (s'.toWorld, v) :: s'.log } where
  eq := congrArg (fun t : State => { t with log := (s'.toWorld, v) :: s'.log }) h.eq
  worlds := h.worlds
  log := .cons ⟨h.worlds, M.noted_of_kept h.kept, rfl⟩ h.log
  kept := h.kept
  steps := h.steps
  inside := h.inside

/-! ## Runs -/

variable {α β γ δ : Type}

/-- As long as the first run is not stopped, the second one ends with the same result, in a state that differs from the
one of the first run as before. -/
def Follows (M : Mirror) (act act' : Run α) (s s' : State) : Prop :=
  M.Between s s' → (act.outcome s).1 ≠ .error .exhausted →
    (act'.outcome s').1 = (act.outcome s).1 ∧ M.Between (act.outcome s).2 (act'.outcome s').2 ∧
      (act.outcome s).2.frames = s.frames

theorem follows_of_between {act act' : Run α} (h : M.Between s s' → M.Follows act act' s s') :
    M.Follows act act' s s' :=
  fun hs => h hs hs

/-- Runs that end at once. -/
theorem follows_of_outcome {act act' : Run α} {result : Except Fault α} (hact : act.outcome s = (result, s))
    (hact' : act'.outcome s' = (result, s')) : M.Follows act act' s s' := by
  intro hs _
  rw [hact, hact']
  exact ⟨rfl, hs, rfl⟩

theorem follows_pure (x : α) : M.Follows (pure x) (pure x) s s' :=
  follows_of_outcome rfl rfl

theorem follows_fail (e : Error) : M.Follows (fail e : Run α) (fail e) s s' :=
  follows_of_outcome rfl rfl

/-- Nothing has to follow a run that is stopped. -/
theorem follows_exhausted (act' : Run α) : M.Follows (throw .exhausted) act' s s' :=
  fun _ hended => absurd rfl hended

/-- A run follows in one part after the other. -/
theorem Follows.bind {act act' : Run α} {f f' : α → Run β} (hact : M.Follows act act' s s')
    (hf : ∀ x t t', act.outcome s = (.ok x, t) → act'.outcome s' = (.ok x, t') → M.Follows (f x) (f' x) t t') :
    M.Follows (act >>= f) (act' >>= f') s s' := by
  intro hs hended
  obtain ⟨hsame, hbetween, hframes⟩ := hact hs (ended_of_bind hended)
  rcases heq : act.outcome s with ⟨result, t⟩
  rcases heq' : act'.outcome s' with ⟨result', t'⟩
  rw [heq, heq'] at hsame hbetween
  rw [heq] at hframes
  obtain rfl : result' = result := hsame
  cases result' with
  | ok x =>
      rw [outcome_bind_of_ok heq] at hended ⊢
      rw [outcome_bind_of_ok heq']
      obtain ⟨hsame', hbetween', hframes'⟩ := hf x t t' heq heq' hbetween hended
      exact ⟨hsame', hbetween', hframes'.trans hframes⟩
  | error fault =>
      rw [outcome_bind_of_error heq, outcome_bind_of_error heq']
      exact ⟨rfl, hbetween, hframes⟩

theorem Follows.map {act act' : Run α} {g : α → β} (hact : M.Follows act act' s s') :
    M.Follows (act >>= fun x => pure (g x)) (act' >>= fun x => pure (g x)) s s' :=
  hact.bind fun x _ _ _ _ => follows_pure (g x)

theorem follows_get {f f' : State → Run β} (hf : M.Follows (f s) (f' s') s s') :
    M.Follows (get >>= f) (get >>= f') s s' := hf

theorem follows_ofExcept {r r' : Except Error α} (hr : r' = r) : M.Follows (ofExcept r) (ofExcept r') s s' := by
  subst hr
  exact follows_of_outcome (outcome_ofExcept r' s) (outcome_ofExcept r' s')

theorem follows_orFail (e : Error) {o o' : Option α} (ho : o' = o) : M.Follows (orFail e o) (orFail e o') s s' := by
  subst ho
  cases o' with
  | some x => exact follows_pure x
  | none => exact follows_fail e

theorem follows_bind_ofExcept {R : γ → δ → Prop} {r : Except Error γ} {r' : Except Error δ} (hr : Matched R r r')
    {f : γ → Run β} {f' : δ → Run β} (hf : ∀ x y, r = .ok x → r' = .ok y → R x y → M.Follows (f x) (f' y) s s') :
    M.Follows (ofExcept r >>= f) (ofExcept r' >>= f') s s' := by
  cases hr with
  | ok hxy => exact hf _ _ rfl rfl hxy
  | error e => exact follows_fail e

/-- The same result of a computation, or of none, in both runs. -/
theorem follows_bind_same {r r' : Except Error γ} (hr : r' = r) {f f' : γ → Run β}
    (hf : ∀ x, r = .ok x → M.Follows (f x) (f' x) s s') :
    M.Follows (ofExcept r >>= f) (ofExcept r' >>= f') s s' := by
  subst hr
  cases r' with
  | ok x => exact hf x rfl
  | error e => exact follows_fail e

theorem follows_bind_orFail_same {o o' : Option γ} (ho : o' = o) (e : Error) {f f' : γ → Run β}
    (hf : ∀ x, o = some x → M.Follows (f x) (f' x) s s') :
    M.Follows (orFail e o >>= f) (orFail e o' >>= f') s s' := by
  subst ho
  cases o' with
  | some x => exact hf x rfl
  | none => exact follows_fail e

/-- A run that goes on unless it fails at once. -/
theorem follows_unless {c c' : Prop} [Decidable c] [Decidable c'] (hc : c' ↔ c) {e : Error} {f f' : PUnit → Run β}
    (hf : ¬c → M.Follows (f ⟨⟩) (f' ⟨⟩) s s') :
    M.Follows (if c then fail e >>= f else f ⟨⟩) (if c' then fail e >>= f' else f' ⟨⟩) s s' := by
  by_cases h : c
  · rw [if_pos h, if_pos (hc.mpr h)]
    exact follows_fail e
  · rw [if_neg h, if_neg (mt hc.mp h)]
    exact hf h

/-- A run that goes on if it is not stopped. -/
theorem follows_ask {r : Script.Request} {f : PUnit → Run β} {act' : Run β}
    (hf : M.refuses s r = false → M.Follows (f ⟨⟩) act' s s') :
    M.Follows (Script.ask M.refuses r >>= f) act' s s' := by
  intro hs hended
  have hask := Script.outcome_ask M.refuses r s
  cases hrefused : M.refuses s r with
  | true =>
      rw [hrefused, if_pos rfl] at hask
      rw [outcome_bind_of_error hask] at hended
      exact absurd rfl hended
  | false =>
      rw [hrefused, if_neg Bool.false_ne_true] at hask
      rw [outcome_bind_of_ok hask] at hended ⊢
      exact hf hrefused hs hended

/-- A change besides the worlds. -/
theorem follows_modify {f : State → State}
    (hf : ∀ (s : State) w l, f { s with toWorld := w, log := l } = { f s with toWorld := w, log := l })
    (hsteps : ∀ s : State, s.stepsLeft = none → (f s).stepsLeft = none) (hframes : ∀ s, (f s).frames = s.frames) :
    M.Follows (modify f : Run PUnit) (modify f) s s' := by
  intro hs _
  refine ⟨rfl, hs.update f hf (hsteps s) ?_, hframes s⟩
  rw [hframes]
  exact hs.inside

theorem follows_setArena {a a' : Arena} (htwin : a.Twin (M.native s.classes) a') (hspares : s.arena.Spares a)
    (hspares' : s'.arena.Spares a') : M.Follows (setArena a) (setArena a') s s' :=
  fun hs _ => ⟨rfl, hs.setArena_of_spares htwin hspares hspares', rfl⟩

/-- A run whose error is told instead of raised. -/
theorem Follows.attempt {act act' : Run α} (hact : M.Follows act act' s s') :
    M.Follows (Run.attempt act) (Run.attempt act') s s' := by
  intro hs hended
  have hfirst := ended_of_attempt hended
  rw [outcome_attempt, outcome_attempt]
  obtain ⟨hsame, hbetween, hframes⟩ := hact hs hfirst
  rcases heq : act.outcome s with ⟨result, t⟩
  rcases heq' : act'.outcome s' with ⟨result', t'⟩
  rw [heq, heq'] at hsame hbetween
  rw [heq] at hframes hfirst
  obtain rfl : result' = result := hsame
  match result' with
  | .ok x => exact ⟨rfl, hbetween, hframes⟩
  | .error (.raised e) => exact ⟨rfl, hbetween, hframes⟩
  | .error .exhausted => exact absurd rfl hfirst

/-! ## Runs inside of runs -/

/-- A run between two changes that leave the worlds alone. -/
theorem Follows.within {act act' : Run α} {enter leave : State → State}
    (hact : M.Follows act act' (enter s) (enter s'))
    (henter : ∀ (s : State) w l, enter { s with toWorld := w, log := l } = { enter s with toWorld := w, log := l })
    (hleave : ∀ (s : State) w l, leave { s with toWorld := w, log := l } = { leave s with toWorld := w, log := l })
    (hsteps : ∀ s : State, s.stepsLeft = none → (enter s).stepsLeft = none ∧ (leave s).stepsLeft = none)
    (hinside : s.frames ≠ [] → (enter s).frames ≠ [])
    (hframes : ∀ t : State, t.frames = (enter s).frames → (leave t).frames = s.frames) :
    M.Follows (Run.within enter leave act) (Run.within enter leave act') s s' := by
  intro hs hended
  have hfirst := ended_of_within hended
  rw [outcome_within, outcome_within]
  have hstart : M.Between (enter s) (enter s') :=
    hs.update enter henter (fun hfree => (hsteps s hfree).1) (hs.inside.imp_right hinside)
  obtain ⟨hsame, hbetween, hback⟩ := hact hstart hfirst
  rcases heq : act.outcome (enter s) with ⟨result, t⟩
  rcases heq' : act'.outcome (enter s') with ⟨result', t'⟩
  rw [heq, heq'] at hsame hbetween
  rw [heq] at hback hfirst
  obtain rfl : result' = result := hsame
  have hout : (leave t).frames = s.frames := hframes t hback
  have hleft : M.Between (leave t) (leave t') := by
    refine hbetween.update leave hleave (fun hfree => (hsteps t hfree).2) ?_
    rw [hout]
    exact hs.inside
  match result' with
  | .ok x => exact ⟨rfl, hleft, hout⟩
  | .error (.raised e) => exact ⟨rfl, hleft, hout⟩
  | .error .exhausted => exact absurd rfl hfirst

theorem Follows.holding {act act' : Run α} {values : List Value}
    (hact : M.Follows act act' (withHeld s values) (withHeld s' values)) :
    M.Follows (Run.holding values act) (Run.holding values act') s s' :=
  Follows.within hact (fun _ _ _ => rfl) (fun _ _ _ => rfl) (fun _ hfree => ⟨hfree, hfree⟩) id fun _ h => h

theorem Follows.inNativeFrame {act act' : Run α} (hact : ∀ t t', M.Follows act act' t t') :
    M.Follows (Run.inNativeFrame act) (Run.inNativeFrame act') s s' :=
  Follows.within (hact _ _) (fun _ _ _ => rfl) (fun _ _ _ => rfl) (fun _ hfree => ⟨hfree, hfree⟩)
    (fun _ => List.cons_ne_nil _ _) fun _ h => congrArg List.tail h

theorem Follows.inHostFrame {frame : Frame} {act act' : Run α} (hact : ∀ t t', M.Follows act act' t t') :
    M.Follows (Run.inHostFrame frame act) (Run.inHostFrame frame act') s s' := by
  refine follows_of_between fun hs => follows_get ?_
  have hoptions : s'.options = s.options := hs.congr State.options fun _ _ _ => rfl
  have hdepth : s'.hostDepth = s.hostDepth := hs.congr State.hostDepth fun _ _ _ => rfl
  rw [hoptions, hdepth]
  split
  · exact follows_fail _
  · exact Follows.within (hact _ _) (fun _ _ _ => rfl) (fun _ _ _ => rfl) (fun _ hfree => ⟨hfree, hfree⟩)
      (fun _ => List.cons_ne_nil _ _) fun _ h => congrArg List.tail h

/-- A body runs to its end, and what it leaves is read off. -/
theorem Follows.activate {body : Activation} {act act' : Run Unit} (hact : ∀ t t', M.Follows act act' t t') :
    M.Follows (Run.activate body act) (Run.activate body act') s s' := by
  refine Follows.within ((hact _ _).bind fun _ t t' _ _ => ?_) (fun _ _ _ => rfl) (fun _ _ _ => rfl)
    (fun _ hfree => ⟨hfree, hfree⟩) id fun _ h => h
  refine follows_of_between fun ht => ?_
  have hactivations : t'.activations = t.activations := ht.congr State.activations fun _ _ _ => rfl
  refine follows_get (f := fun t => pure (t.activations.headD body)) ?_
  rw [hactivations]
  exact follows_pure _

/-- Bodies follow bodies, in all states. -/
def FollowsAll (M : Mirror) (exec exec' : Exec) : Prop :=
  ∀ code s s', M.Follows (exec code) (exec' code) s s'

theorem follows_invoke {exec exec' : Exec} (hexec : M.FollowsAll exec exec') (f : Callable) (recv : Option Handle)
    (args : List Value) : M.Follows (Run.invoke exec f recv args) (Run.invoke exec' f recv args) s s' :=
  Follows.holding (Follows.activate (hexec f.code))

/-- An operation on every value of a list. -/
theorem follows_mapHeld {f f' : Value → Run Value} (hf : ∀ v t t', M.Follows (f v) (f' v) t t') (vs : List Value) :
    M.Follows (mapHeld f vs) (mapHeld f' vs) s s' := by
  induction vs generalizing s s' with
  | nil => exact follows_pure _
  | cons v rest ih => exact (hf v _ _).holding.bind fun u t t' _ _ => ih.holding.map

/-- Steps are counted in both states. -/
theorem follows_tick : M.Follows tick tick s s' := by
  refine follows_of_between fun hs => ?_
  have hsteps : s'.stepsLeft = s.stepsLeft := hs.congr State.stepsLeft fun _ _ _ => rfl
  cases hleft : s.stepsLeft with
  | none =>
      refine follows_of_outcome (?_ : tick.outcome s = (.ok ⟨⟩, s)) ?_
      · rw [outcome_tick, hleft]
      · rw [outcome_tick, hsteps, hleft]
  | some steps =>
      cases steps with
      | zero =>
          intro _ hended
          rw [outcome_tick, hleft] at hended
          exact absurd rfl hended
      | succ n =>
          intro _ _
          rw [outcome_tick, outcome_tick, hsteps, hleft]
          refine ⟨rfl, hs.update (fun u => { u with stepsLeft := some n }) (fun _ _ _ => rfl) ?_ hs.inside, rfl⟩
          intro hfree
          rw [hleft] at hfree
          cases hfree

end Mirror

end ObjectBridge
