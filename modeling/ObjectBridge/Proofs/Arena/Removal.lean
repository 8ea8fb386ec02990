import ObjectBridge.Lifetime.Basic
import ObjectBridge.Proofs.Arena.Contents
import ObjectBridge.Proofs.Arena.Custody

/-!
# Removals one after the other

A pass of a sweep removes the objects of a list, and a sweep the objects of one list after the other.
`Arena.without` is the arena that is left.  The list of a pass is `Arena.collectable`, which is made before anything
is removed.

* `get?_without` — the objects of the list are gone, and all others are as they were.
* `live_without` — the number of objects drops by the length of the list.
* `Lifetime.removeAll_eq` — this is what a pass does, and what it counts.
* `mem_collectable_iff` — the list consists of the managed objects whose recorded anchor no handle has.
* `Custody.Sound.mem_collectable_iff` — as the anchors are sound, it consists of the managed objects
  without a handle.
* `Lifetime.removeAll_collectable` — the pass removes all objects of the list.
-/

namespace ObjectBridge

namespace Arena

/-- An arena without the objects of some references. -/
def without (a : Arena) : List Reference → Arena
  | [] => a
  | r :: rest =>
      match a.destroy? r with
      | some (_, a') => without a' rest
      | none => without a rest

variable {a a' : Arena} {r t : Reference} {i : Instance} {rs : List Reference}

@[simp] theorem without_nil (a : Arena) : a.without [] = a := rfl

theorem without_cons_of_destroy? (hdes : a.destroy? r = some (i, a')) (rest : List Reference) :
    a.without (r :: rest) = a'.without rest := by
  rw [without, hdes]

theorem without_cons_of_gone (hdes : a.destroy? r = none) (rest : List Reference) :
    a.without (r :: rest) = a.without rest := by
  rw [without, hdes]

theorem without_append (a : Arena) (rs ts : List Reference) :
    a.without (rs ++ ts) = (a.without rs).without ts := by
  induction rs generalizing a with
  | nil => rfl
  | cons r rest ih =>
      cases hdes : a.destroy? r with
      | none =>
          rw [List.cons_append, without_cons_of_gone hdes, without_cons_of_gone hdes, ih]
      | some removed =>
          rw [List.cons_append, without_cons_of_destroy? hdes, without_cons_of_destroy? hdes, ih]

/-- A removal takes away the object of one reference, and leaves those of all others. -/
theorem get?_destroy?_eq (hdes : a.destroy? r = some (i, a')) (t : Reference) :
    a'.get? t = if t = r then none else a.get? t := by
  obtain ⟨hi, -⟩ := destroy?_cases hdes
  rw [get?_destroy? hdes]
  by_cases htr : t = r
  · subst htr
    rw [if_pos rfl, if_pos rfl]
  · rw [if_neg htr]
    by_cases hslot : t.slot = r.slot
    · -- Another reference to the slot has another generation.
      rw [if_pos hslot, eq_comm, Option.eq_none_iff_forall_ne_some]
      intro j hj
      have hgen := (get?_eq_some_iff_slotAt.mp hj).1
      rw [hslot, (get?_eq_some_iff_slotAt.mp hi).1] at hgen
      exact htr (Reference.ext hslot hgen.symm)
    · rw [if_neg hslot]

/-- The objects of the list are gone, and all others are as they were. -/
theorem get?_without (a : Arena) (rs : List Reference) (t : Reference) :
    (a.without rs).get? t = if t ∈ rs then none else a.get? t := by
  induction rs generalizing a with
  | nil => simp
  | cons r rest ih =>
      cases hdes : a.destroy? r with
      | none =>
          rw [without_cons_of_gone hdes, ih]
          rw [destroy?_eq_none_iff] at hdes
          by_cases htr : t = r
          · subst htr
            simp [hdes]
          · simp [htr]
      | some removed =>
          obtain ⟨i, b⟩ := removed
          rw [without_cons_of_destroy? hdes, ih, get?_destroy?_eq hdes]
          by_cases htr : t = r
          · simp [htr]
          · simp [htr]

theorem get?_without_eq_some_iff {j : Instance} :
    (a.without rs).get? t = some j ↔ t ∉ rs ∧ a.get? t = some j := by
  rw [get?_without]
  by_cases ht : t ∈ rs
  · simp [ht]
  · simp [ht]

theorem get?_of_get?_without {j : Instance} (hj : (a.without rs).get? t = some j) :
    a.get? t = some j :=
  (get?_without_eq_some_iff.mp hj).2

theorem mem_heldValues_without {v : Value} (hv : v ∈ (a.without rs).heldValues) :
    v ∈ a.heldValues := by
  obtain ⟨r, i, hi, hv⟩ := exists_get?_of_mem_heldValues hv
  exact mem_heldValues_of_get? (get?_of_get?_without hi) hv

/-- Removals are steps of a custody. -/
theorem without_custody_path {pinned : Set Proxy} (a : Arena) (rs : List Reference)
    (ps : Set Proxy) (os : Set Overrides) :
    Custody.Path pinned ⟨a, ps, os⟩ ⟨a.without rs, ps, os⟩ := by
  induction rs generalizing a with
  | nil => exact Relation.ReflTransGen.refl
  | cons r rest ih =>
      cases hdes : a.destroy? r with
      | none =>
          rw [without_cons_of_gone hdes]
          exact ih a
      | some removed =>
          rw [without_cons_of_destroy? hdes]
          exact (ih removed.2).head (.destroy r removed.1 hdes)

/-- Removals keep the books balanced. -/
theorem Balanced.without (hbal : a.Balanced) (rs : List Reference) : (a.without rs).Balanced := by
  induction rs generalizing a with
  | nil => exact hbal
  | cons r rest ih =>
      cases hdes : a.destroy? r with
      | none =>
          rw [without_cons_of_gone hdes]
          exact ih hbal
      | some removed =>
          rw [without_cons_of_destroy? hdes]
          exact ih (hbal.destroy hdes)

/-- The first of some objects can be removed, and the other ones are still there then. -/
theorem exists_destroy?_of_live (hlive : ∀ t ∈ r :: rs, a.isLive t = true)
    (hnodup : (r :: rs).Nodup) :
    ∃ i a', a.destroy? r = some (i, a') ∧ ∀ t ∈ rs, a'.isLive t = true := by
  obtain ⟨i, hi⟩ := isLive_iff.mp (hlive r List.mem_cons_self)
  cases hdes : a.destroy? r with
  | none =>
      rw [destroy?_eq_none_iff, hi] at hdes
      cases hdes
  | some removed =>
      refine ⟨removed.1, removed.2, rfl, ?_⟩
      intro t ht
      have hne : t ≠ r := fun heq => (List.nodup_cons.mp hnodup).1 (heq ▸ ht)
      rw [isLive, get?_destroy?_eq hdes, if_neg hne]
      exact hlive t (List.mem_cons_of_mem r ht)

/-- The number of objects drops by the number of those that are removed. -/
theorem live_without (hbal : a.Balanced) (hlive : ∀ r ∈ rs, a.isLive r = true)
    (hnodup : rs.Nodup) : a.live = (a.without rs).live + rs.length := by
  induction rs generalizing a with
  | nil => rfl
  | cons r rest ih =>
      obtain ⟨i, b, hdes, hlive'⟩ := exists_destroy?_of_live hlive hnodup
      have hdrop : a.live = b.live + 1 := by
        obtain ⟨hi, rfl⟩ := destroy?_cases hdes
        have hpos := hbal.live_pos hi
        show a.live = a.live - 1 + 1
        omega
      rw [without_cons_of_destroy? hdes, List.length_cons, hdrop,
        ih (hbal.destroy hdes) hlive' (List.nodup_cons.mp hnodup).2]
      omega

end Arena

namespace Lifetime

/-- A pass removes the objects of its list, and counts them. -/
theorem removeAll_eq {rs : List Reference} {a : Arena} (removed : Nat)
    (hlive : ∀ r ∈ rs, a.isLive r = true) (hnodup : rs.Nodup) :
    removeAll a removed rs = (a.without rs, removed + rs.length) := by
  induction rs generalizing a removed with
  | nil => rfl
  | cons r rest ih =>
      obtain ⟨i, b, hdes, hlive'⟩ := Arena.exists_destroy?_of_live hlive hnodup
      rw [removeAll, hdes, Arena.without_cons_of_destroy? hdes]
      simp only [ih (removed + 1) hlive' (List.nodup_cons.mp hnodup).2, List.length_cons,
        Prod.mk.injEq, true_and]
      omega

end Lifetime

end ObjectBridge

/-! ## What a pass of a sweep removes -/

namespace ObjectBridge

namespace Arena

/-! ## The list -/

/-- A slot holds a managed object whose recorded anchor no handle has. -/
def Abandoned (held : List Handle) (s : Slot) : Prop :=
  ∃ i, s.occupant = some i ∧ i.keep = .managed ∧ anchorHeld held i.anchor = false

theorem mem_collectableFrom_cons {held : List Handle} {number : Nat} {s : Slot} {rest : List Slot}
    {r : Reference} :
    r ∈ collectableFrom held number (s :: rest) ↔
      (r = ⟨number, s.generation⟩ ∧ Abandoned held s) ∨ r ∈ collectableFrom held (number + 1) rest := by
  rw [collectableFrom]
  cases hocc : s.occupant with
  | none => simp [Abandoned, hocc]
  | some i =>
      by_cases hdead : i.keep = .managed ∧ ¬anchorHeld held i.anchor
      · have habandoned : Abandoned held s := ⟨i, hocc, hdead.1, by simpa using hdead.2⟩
        simp only [if_pos hdead, List.mem_cons, habandoned, and_true]
      · have hkept : ¬Abandoned held s := by
          rintro ⟨j, hj, hkeep, hfree⟩
          obtain rfl := Option.some.inj (hocc.symm.trans hj)
          exact hdead ⟨hkeep, by simp [hfree]⟩
        simp only [if_neg hdead, hkept, and_false, false_or]

theorem mem_collectableFrom_iff {held : List Handle} {number : Nat} {slots : List Slot}
    {r : Reference} :
    r ∈ collectableFrom held number slots ↔
      ∃ k s, slots[k]? = some s ∧ r = ⟨number + k, s.generation⟩ ∧ Abandoned held s := by
  induction slots generalizing number with
  | nil => simp [collectableFrom]
  | cons s rest ih =>
      rw [mem_collectableFrom_cons, ih]
      constructor
      · rintro (⟨rfl, hs⟩ | ⟨k, t, ht, rfl, hdead⟩)
        · exact ⟨0, s, rfl, rfl, hs⟩
        · refine ⟨k + 1, t, ht, ?_, hdead⟩
          rw [Nat.add_assoc, Nat.add_comm 1 k]
      · rintro ⟨k, t, ht, rfl, hdead⟩
        cases k with
        | zero =>
            obtain rfl := Option.some.inj ht
            exact Or.inl ⟨rfl, hdead⟩
        | succ k =>
            refine Or.inr ⟨k, t, ht, ?_, hdead⟩
            rw [Nat.add_assoc, Nat.add_comm 1 k]

/-- A pass removes the managed objects whose recorded anchor no handle has. -/
theorem mem_collectable_iff {a : Arena} {held : List Handle} {r : Reference} :
    r ∈ a.collectable held ↔
      ∃ i, a.get? r = some i ∧ i.keep = .managed ∧ anchorHeld held i.anchor = false := by
  rw [collectable, mem_collectableFrom_iff]
  simp only [Nat.zero_add, Array.getElem?_toList, get?_eq_some_iff]
  constructor
  · rintro ⟨slot, s, hs, rfl, i, hocc, hdead⟩
    exact ⟨i, ⟨s, hs, rfl, hocc⟩, hdead⟩
  · rintro ⟨i, ⟨s, hs, hgen, hocc⟩, hdead⟩
    exact ⟨r.slot, s, hs, Reference.ext rfl hgen.symm, i, hocc, hdead⟩

theorem slot_lt_of_mem_collectableFrom (held : List Handle) (number : Nat) (slots : List Slot) :
    (collectableFrom held number slots).Pairwise fun r t => r.slot < t.slot := by
  induction slots generalizing number with
  | nil => exact List.Pairwise.nil
  | cons s rest ih =>
      have hlater : ∀ r ∈ collectableFrom held (number + 1) rest, number < r.slot := by
        intro r hr
        obtain ⟨k, t, -, rfl, -⟩ := mem_collectableFrom_iff.mp hr
        show number < number + 1 + k
        omega
      rw [collectableFrom]
      split
      · split
        · exact List.pairwise_cons.mpr ⟨hlater, ih (number + 1)⟩
        · exact ih (number + 1)
      · exact ih (number + 1)

/-- No object occurs twice in the list. -/
theorem nodup_collectable (a : Arena) (held : List Handle) : (a.collectable held).Nodup :=
  (slot_lt_of_mem_collectableFrom held 0 a.slots.toList).imp
    fun hlt heq => Nat.ne_of_lt hlt (congrArg Reference.slot heq)

theorem isLive_of_mem_collectable {a : Arena} {held : List Handle} {r : Reference}
    (hr : r ∈ a.collectable held) : a.isLive r = true := by
  obtain ⟨i, hi, -⟩ := mem_collectable_iff.mp hr
  exact isLive_iff.mpr ⟨i, hi⟩

end Arena

namespace Custody

variable {c : Custody} {held : List Handle}

/-- The recorded anchor of an object is in use exactly if a handle of the object exists. -/
theorem Sound.anchorHeld_iff (hsound : c.Sound) (hheld : ∀ h ∈ held, h.proxy ∈ c.proxies)
    {r : Reference} {i : Instance} (hi : c.arena.get? r = some i) :
    Arena.anchorHeld held i.anchor = true ↔ ∃ h ∈ held, h.target = r := by
  rw [Arena.anchorHeld, List.any_eq_true]
  constructor
  · rintro ⟨h, hh, hserial⟩
    have hsame := hsound.serial_inj h.proxy.anchor (mem_anchors_of_mem (hheld h hh)) i.anchor
      (mem_anchors_of_get? hi) (by simpa using hserial)
    refine ⟨h, hh, ?_⟩
    rw [Handle.target, hsame]
    exact (hsound.anchored.of_get? hi).1
  · rintro ⟨h, hh, rfl⟩
    refine ⟨h, hh, ?_⟩
    rw [hsound.eq_recorded h.proxy.anchor (mem_anchors_of_mem (hheld h hh)) i hi, beq_self_eq_true]

/-- A pass removes the managed objects without a handle.  The anchors were sound when the sweep began, with
the objects and handles that are left and maybe more. -/
theorem Sound.mem_collectable_iff (hsound : c.Sound) (hheld : ∀ h ∈ held, h.proxy ∈ c.proxies)
    {a : Arena} (ha : ∀ r i, a.get? r = some i → c.arena.get? r = some i) {r : Reference} :
    r ∈ a.collectable held ↔
      ∃ i, a.get? r = some i ∧ i.keep = .managed ∧ ∀ h ∈ held, h.target ≠ r := by
  rw [Arena.mem_collectable_iff]
  refine exists_congr fun i => and_congr_right fun hi => and_congr_right fun _ => ?_
  rw [← Bool.not_eq_true, hsound.anchorHeld_iff hheld (ha r i hi)]
  simp only [not_exists, not_and, ne_eq]

end Custody

/-- A pass removes all objects of its list. -/
theorem Lifetime.removeAll_collectable (a : Arena) (held : List Handle) (removed : Nat) :
    removeAll a removed (a.collectable held) =
      (a.without (a.collectable held), removed + (a.collectable held).length) :=
  removeAll_eq removed (fun _ hr => Arena.isLive_of_mem_collectable hr)
    (Arena.nodup_collectable a held)

end ObjectBridge
