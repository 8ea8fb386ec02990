import ObjectBridge.Proofs.Arena.Removal

/-!
# The passes of a sweep

A sweep repeats one pass: to remove the objects in the list of the arena.  When the list is empty, a pass
changes nothing, so it does not matter that the sweep ends early then.

* `State.pass` and `sweep_fst` — a sweep is its passes, one after the other.
* `sweep_spec` — a sweep removes objects in some order, each of which was in the list when some of the
  objects before it had been removed, and it counts them.
-/

namespace ObjectBridge

namespace State

/-- A state without the objects of some references. -/
def without (s : State) (rs : List Reference) : State :=
  { s with arena := s.arena.without rs }

/-- The objects that a pass would remove. -/
def collectable (s : State) : List Reference :=
  s.arena.collectable s.handles

/-- A state after a pass. -/
def pass (s : State) : State :=
  s.without s.collectable

theorem without_append (s : State) (rs ts : List Reference) :
    s.without (rs ++ ts) = (s.without rs).without ts := by
  simp only [without, Arena.without_append]

theorem pass_of_collectable_eq_nil {s : State} (hs : s.collectable = []) : s.pass = s := by
  rw [pass, hs]
  rfl

end State

namespace Lifetime

theorem sweep_succ (passes : Nat) (s : State) (removed : Nat) :
    sweep (passes + 1) s removed = sweep passes s.pass (removed + s.collectable.length) ∨
      s.collectable = [] ∧ sweep (passes + 1) s removed = (s, removed) := by
  rw [sweep]
  split
  · rename_i hnil
    exact Or.inr ⟨hnil, rfl⟩
  · rw [removeAll_collectable]
    exact Or.inl rfl

/-- A sweep leaves what its passes leave, one after the other. -/
theorem sweep_fst (passes : Nat) (s : State) (removed : Nat) :
    (sweep passes s removed).1 = State.pass^[passes] s := by
  induction passes generalizing s removed with
  | zero => rfl
  | succ passes ih =>
      rcases sweep_succ passes s removed with heq | ⟨hnil, heq⟩
      · rw [heq, ih, Function.iterate_succ_apply]
      · rw [heq, Function.iterate_fixed (State.pass_of_collectable_eq_nil hnil)]

/-- What is not in the first part of a list is in the second part. -/
theorem exists_of_append_eq {α : Type} {first second earlier later : List α} {x : α}
    (hsplit : first ++ second = earlier ++ x :: later) (hx : x ∉ first) :
    ∃ earlier', earlier = first ++ earlier' ∧ second = earlier' ++ x :: later := by
  rcases List.append_eq_append_iff.mp hsplit with hsecond | ⟨rest, rfl, hrest⟩
  · exact hsecond
  · cases rest with
    | nil => exact ⟨[], by simp, hrest.symm⟩
    | cons y rest =>
        obtain ⟨rfl, -⟩ := List.cons_eq_cons.mp hrest
        exact absurd (by simp) hx

/-- A sweep removes objects in some order.  When it came to one of them, this was in the list that was made
when some of the objects before it had been removed. -/
theorem sweep_spec (passes : Nat) (s : State) (removed : Nat) :
    ∃ gone, sweep passes s removed = (s.without gone, removed + gone.length) ∧ gone.Nodup ∧
      ∀ earlier r later, gone = earlier ++ r :: later →
        ∃ before, before <+: earlier ∧ r ∈ (s.without before).collectable := by
  induction passes generalizing s removed with
  | zero => exact ⟨[], rfl, List.nodup_nil, by simp⟩
  | succ passes ih =>
      rcases sweep_succ passes s removed with heq | ⟨-, heq⟩
      · obtain ⟨gone, hsweep, hnodup, hlisted⟩ := ih s.pass (removed + s.collectable.length)
        refine ⟨s.collectable ++ gone, ?_, ?_, ?_⟩
        · rw [heq, hsweep, State.without_append, List.length_append, Nat.add_assoc]
          rfl
        · refine (Arena.nodup_collectable _ _).append hnodup ?_
          intro r hr hgone
          -- What is removed later is still there after this pass.
          obtain ⟨earlier, later, hsplit⟩ := List.append_of_mem hgone
          obtain ⟨before, -, hbefore⟩ := hlisted earlier r later hsplit
          obtain ⟨i, hi⟩ := Arena.isLive_iff.mp (Arena.isLive_of_mem_collectable hbefore)
          have hi' : s.pass.arena.get? r = some i := Arena.get?_of_get?_without hi
          exact (Arena.get?_without_eq_some_iff.mp hi').1 hr
        · intro earlier r later hsplit
          by_cases hr : r ∈ s.collectable
          · exact ⟨[], List.nil_prefix, hr⟩
          · obtain ⟨earlier', rfl, hrest⟩ := exists_of_append_eq hsplit hr
            obtain ⟨before, hprefix, hbefore⟩ := hlisted earlier' r later hrest
            refine ⟨s.collectable ++ before, (List.prefix_append_right_inj _).mpr hprefix, ?_⟩
            rw [State.without_append]
            exact hbefore
      · exact ⟨[], heq, List.nodup_nil, by simp⟩

end Lifetime

end ObjectBridge
