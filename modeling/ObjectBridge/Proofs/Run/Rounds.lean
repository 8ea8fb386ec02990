import ObjectBridge.Proofs.Run.Orderly

/-!
# Rounds

A run may go through a list and do the same for each item, until one round fails or says that it is enough.  The next
round starts where the one before has ended, whatever that one has done.

* `Run.untilStop` — such a run.
* `Run.Round` and `Run.Rounds` — the rounds that it takes.
* `Run.exists_rounds` — every such run takes rounds, and ends as the last one does.
* `Rounds.running_eq` — every round begins with the bodies running that run at the beginning.
-/

namespace ObjectBridge.Run

variable {α β : Type} {body : α → Run (Option β)} {items : List α} {s : State}

/-- Do the same for every item in order, until it answers with a value. -/
def untilStop (body : α → Run (Option β)) : List α → Run (Option β)
  | [] => return none
  | a :: rest => do
      match ← body a with
      | some v => return some v
      | none => untilStop body rest

/-- What was done for one item: the states in which it began and ended, and its result. -/
structure Round (α β : Type) where
  given : α
  before : State
  result : Except Fault (Option β)
  after : State

namespace Round

/-- The next item has its turn after the round. -/
def GoesOn (x : Round α β) : Prop :=
  x.result = .ok none

/-- What was done in the round is the body for the item. -/
def Runs (body : α → Run (Option β)) (x : Round α β) : Prop :=
  (body x.given).outcome x.before = (x.result, x.after)

/-- Each round begins where the one before has ended, the first one in a state that is given. -/
def Linked : State → List (Round α β) → Prop
  | _, [] => True
  | s, x :: rest => x.before = s ∧ Linked x.after rest

/-- How the last round ended; without a round nothing has happened. -/
def ending (s : State) (rounds : List (Round α β)) : Except Fault (Option β) × State :=
  match rounds.getLast? with
  | some x => (x.result, x.after)
  | none => (.ok none, s)

end Round

/-- The rounds for some items from a state on. -/
structure Rounds (body : α → Run (Option β)) (items : List α) (s : State) (rounds : List (Round α β)) : Prop where
  runs : ∀ x ∈ rounds, x.Runs body
  linked : Round.Linked s rounds
  /-- The items have their turns in order, each of them once. -/
  given_prefix : rounds.map Round.given <+: items
  goesOn : ∀ x ∈ rounds.dropLast, x.GoesOn
  complete : (∀ x ∈ rounds, x.GoesOn) → rounds.map Round.given = items

theorem Rounds.nil (body : α → Run (Option β)) (s : State) : Rounds body [] s [] where
  runs _ hx := absurd hx List.not_mem_nil
  linked := trivial
  given_prefix := List.prefix_refl _
  goesOn _ hx := absurd hx List.not_mem_nil
  complete _ := rfl

/-- A round after which no other one comes. -/
theorem Rounds.last {a : α} {result : Except Fault (Option β)} {t : State}
    (hrun : (body a).outcome s = (result, t)) (hstops : result ≠ .ok none) (rest : List α) :
    Rounds body (a :: rest) s [⟨a, s, result, t⟩] where
  runs x hx := by
    obtain rfl := List.mem_singleton.mp hx
    exact hrun
  linked := ⟨rfl, trivial⟩
  given_prefix := List.prefix_append [a] rest
  goesOn _ hx := absurd hx List.not_mem_nil
  complete hall := absurd (hall _ (List.mem_singleton_self _)) hstops

/-- A round before others. -/
theorem Rounds.cons {a : α} {t : State} {rest : List α} {rounds : List (Round α β)}
    (hrun : (body a).outcome s = (.ok none, t)) (h : Rounds body rest t rounds) :
    Rounds body (a :: rest) s (⟨a, s, .ok none, t⟩ :: rounds) where
  runs x hx := by
    rcases List.mem_cons.mp hx with rfl | hx
    · exact hrun
    · exact h.runs x hx
  linked := ⟨rfl, h.linked⟩
  given_prefix := by
    rw [List.map_cons]
    exact List.cons_prefix_cons.mpr ⟨rfl, h.given_prefix⟩
  goesOn x hx := by
    cases rounds with
    | nil => exact absurd hx List.not_mem_nil
    | cons y rounds =>
        rw [List.dropLast_cons_cons] at hx
        rcases List.mem_cons.mp hx with rfl | hx
        · rfl
        · exact h.goesOn x hx
  complete hall := by
    rw [List.map_cons, h.complete fun x hx => hall x (List.mem_cons_of_mem _ hx)]

/-- Where a round goes on, the later ones decide how the run ends. -/
theorem Round.ending_cons {x : Round α β} (hgoes : x.GoesOn) (s : State) (rounds : List (Round α β)) :
    ending s (x :: rounds) = ending x.after rounds := by
  rw [ending, List.getLast?_cons, ending]
  cases hlast : rounds.getLast? with
  | none => exact congrArg (·, x.after) hgoes
  | some y => rfl

/-- A run that goes through items takes rounds and ends as the last of them. -/
theorem exists_rounds (body : α → Run (Option β)) (items : List α) (s : State) :
    ∃ rounds, Rounds body items s rounds ∧ (untilStop body items).outcome s = Round.ending s rounds := by
  induction items generalizing s with
  | nil => exact ⟨[], .nil body s, rfl⟩
  | cons a rest ih =>
      rcases hrun : (body a).outcome s with ⟨result, t⟩
      match result with
      | .ok none =>
          obtain ⟨rounds, hrounds, hending⟩ := ih t
          refine ⟨_, hrounds.cons hrun, ?_⟩
          have hgoes : (⟨a, s, .ok none, t⟩ : Round α β).GoesOn := rfl
          rw [untilStop, outcome_bind_of_ok hrun, Round.ending_cons hgoes]
          exact hending
      | .ok (some v) =>
          refine ⟨_, Rounds.last hrun (by simp) rest, ?_⟩
          rw [untilStop, outcome_bind_of_ok hrun]
          rfl
      | .error fault =>
          refine ⟨_, Rounds.last hrun (by simp) rest, ?_⟩
          rw [untilStop, outcome_bind_of_error hrun]
          rfl

/-- All items have had their turns, or the last round did not go on. -/
theorem Rounds.cases {rounds : List (Round α β)} (h : Rounds body items s rounds) :
    ((∀ x ∈ rounds, x.GoesOn) ∧ rounds.map Round.given = items ∧ (Round.ending s rounds).1 = .ok none) ∨
      ∃ before last, rounds = before ++ [last] ∧ (∀ x ∈ before, x.GoesOn) ∧ ¬last.GoesOn ∧
        Round.ending s rounds = (last.result, last.after) := by
  rcases List.eq_nil_or_concat' rounds with rfl | ⟨before, last, rfl⟩
  · exact Or.inl ⟨fun x hx => absurd hx List.not_mem_nil, h.complete fun x hx => absurd hx List.not_mem_nil, rfl⟩
  · have hending : Round.ending s (before ++ [last]) = (last.result, last.after) := by simp [Round.ending]
    have hbefore : ∀ x ∈ before, x.GoesOn := fun x hx => h.goesOn x (by simpa using hx)
    by_cases hlast : last.GoesOn
    · have hall : ∀ x ∈ before ++ [last], x.GoesOn := by
        intro x hx
        rcases List.mem_append.mp hx with hx | hx
        · exact hbefore x hx
        · rw [List.mem_singleton.mp hx]
          exact hlast
      exact Or.inl ⟨hall, h.complete hall, by rw [hending]; exact hlast⟩
    · exact Or.inr ⟨before, last, rfl, hbefore, hlast, hending⟩

/-- What the rounds that go on preserve holds at the beginning of every round. -/
theorem Round.invariant {P : State → Prop} {rounds : List (Round α β)} (hruns : ∀ x ∈ rounds, x.Runs body)
    (hlinked : Linked s rounds) (hgoesOn : ∀ x ∈ rounds.dropLast, x.GoesOn)
    (hstep : ∀ a s t, P s → (body a).outcome s = (.ok none, t) → P t) (hs : P s) : ∀ x ∈ rounds, P x.before := by
  induction rounds generalizing s with
  | nil => exact fun x hx => absurd hx List.not_mem_nil
  | cons x rest ih =>
      obtain ⟨rfl, hrest⟩ := hlinked
      obtain ⟨hx, hrunsRest⟩ := List.forall_mem_cons.mp hruns
      refine List.forall_mem_cons.mpr ⟨hs, fun y hy => ?_⟩
      cases rest with
      | nil => exact absurd hy List.not_mem_nil
      | cons z rest =>
          rw [List.dropLast_cons_cons] at hgoesOn
          obtain ⟨hgoes, hgoesOnRest⟩ := List.forall_mem_cons.mp hgoesOn
          exact ih hrunsRest hrest hgoesOnRest (hstep _ _ _ hs (hx.trans (congrArg (·, x.after) hgoes))) y hy

/-- If every round is orderly, the same bodies run at the beginning of each. -/
theorem Rounds.running_eq {rounds : List (Round α β)} (h : Rounds body items s rounds)
    (hbody : ∀ a u, Orderly (body a) u) (hnum : s.classes.Numbered) :
    ∀ x ∈ rounds, x.before.running = s.running := by
  have hkept : ∀ x ∈ rounds, x.before.classes.Numbered ∧ x.before.running = s.running := by
    refine Round.invariant (P := fun u => u.classes.Numbered ∧ u.running = s.running) h.runs h.linked h.goesOn ?_
      ⟨hnum, rfl⟩
    rintro a u v ⟨hu, hsame⟩ hrun
    obtain ⟨hpath, hrestored⟩ := hbody a u hu
    rw [hrun] at hpath hrestored
    exact ⟨hpath.numbered hu, (hrestored (by simp)).trans hsame⟩
  exact fun x hx => (hkept x hx).2

/-- Rounds that begin below the limit stay below it. -/
theorem Rounds.below {rounds : List (Round α β)} (h : Rounds body items s rounds)
    (hbody : ∀ a u, Orderly (body a) u) (hnum : s.classes.Numbered) (hbelow : s.hostDepth < s.options.maxDepth) :
    ∀ x ∈ rounds, x.before.hostDepth < x.before.options.maxDepth := by
  intro x hx
  have hrunning := h.running_eq hbody hnum x hx
  have hdepth : x.before.hostDepth = s.hostDepth := congrArg Running.hostDepth hrunning
  have hoptions : x.before.options = s.options := congrArg Running.options hrunning
  rwa [hdepth, hoptions]

end ObjectBridge.Run
