import ObjectBridge.Proofs.Arena.Custody

/-!
# Overrides of objects and of their classes

An object takes its overrides from its class or from the object that it is a copy of, and keeps them.  A
class is never removed.  So the overrides of an object stay in use with a class, whatever becomes of the
object.

* `Custody.Path.shared` — the overrides of every object are those of a class, along any path.
-/

namespace ObjectBridge.Custody

/-- The overrides of every object are those of a class. -/
def Shared (c : Custody) : Prop :=
  ∀ r i o, c.arena.get? r = some i → i.overrides = some o → o ∈ c.overrides

/-- A change by which every object has the overrides that it or another object had. -/
theorem Shared.of_kept {c c' : Custody} (hshared : c.Shared) (hmore : c.overrides ⊆ c'.overrides)
    (hget : ∀ t i', c'.arena.get? t = some i' →
      ∃ r i, c.arena.get? r = some i ∧ i.overrides = i'.overrides) : c'.Shared := by
  intro t i' o hi' ho
  obtain ⟨r, i, hi, hsame⟩ := hget t i' hi'
  exact hmore (hshared r i o hi (hsame.trans ho))

/-- The overrides of an object stay as they are when something else of it is replaced. -/
theorem exists_overrides_of_setOccupant {a b : Arena} {r : Reference} {i j : Instance}
    (hi : a.get? r = some i) (hslots : b.slots = (a.setOccupant r.slot j).slots)
    (hij : j.overrides = i.overrides) (t : Reference) (i' : Instance) (hi' : b.get? t = some i') :
    ∃ r i, a.get? r = some i ∧ i.overrides = i'.overrides :=
  ⟨t, Arena.exists_get?_of_setOccupant Instance.overrides hi hi' hslots hij⟩

/-- Another handle for an object leaves the overrides as they are. -/
theorem Shared.issue {c : Custody} (hshared : c.Shared) {held : List Handle} {r : Reference}
    {k : Constness} {h : Handle} {a' : Arena} (hissue : c.arena.issue held r k = some (h, a')) :
    Shared ⟨a', insert h.proxy c.proxies, c.overrides⟩ := by
  refine hshared.of_kept Set.Subset.rfl ?_
  obtain ⟨i, hi, ⟨-, -, -, serials, rfl⟩ | ⟨-, hfresh⟩⟩ := Arena.issue_cases hissue
  · exact fun t i' hi' => ⟨t, i', hi', rfl⟩
  · obtain ⟨anchor, next, serials, -, -, rfl⟩ := Arena.issueFresh_cases hfresh
    exact exists_overrides_of_setOccupant hi rfl rfl

/-- Every step leaves the overrides of objects with classes. -/
theorem Shared.step {pinned : Set Proxy} {c c' : Custody} (hshared : c.Shared)
    (hstep : Step pinned c c')
    (hbal : c.arena.Balanced) : c'.Shared := by
  rcases hstep.cases with hkeeps | ⟨new, h, a', hreg, hnew, rfl⟩ | ⟨held, r, k, h, a', hissue, -, rfl⟩
  · exact hshared.of_kept hkeeps.overrides fun t i' hi' =>
      ⟨t, hkeeps.exists_get? Instance.overrides (fun _ => rfl) t i' hi'⟩
  · -- The new object has the overrides of its class or of the object that it is a copy of.
    intro t i' o hi' ho
    rw [Arena.get?_register hbal hreg] at hi'
    split at hi'
    · obtain rfl := Option.some.inj hi'
      rcases hnew o ho with hclass | ⟨r, i, hi, hsame⟩
      · exact hclass
      · exact hshared r i o hi hsame
    · exact hshared t i' o hi' ho
  · exact hshared.issue hissue

theorem shared_empty (ps : Set Proxy) (os : Set Overrides) : Shared ⟨{}, ps, os⟩ := by
  intro r i o hi
  simp [Arena.get?] at hi

/-- The overrides of objects stay with classes along a path. -/
theorem Path.shared {pinned : Set Proxy} {c c' : Custody} (hpath : Path pinned c c')
    (hshared : c.Shared) (hbal : c.arena.Balanced) : c'.Shared := by
  induction hpath with
  | refl => exact hshared
  | tail hbefore hlast ih => exact ih.step hlast (hbal.path (Path.arena_path hbefore))

end ObjectBridge.Custody
