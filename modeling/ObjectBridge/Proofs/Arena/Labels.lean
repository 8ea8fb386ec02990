import ObjectBridge.Proofs.Arena.Identity

/-!
# Proxies and the classes of objects

A proxy carries the number and the name of a class.  It gets them from the object that it is made for, which keeps
them, so all handles of an object tell the same class.

* `Instance.label` and `Proxy.label` — the class of an object, and the class that a proxy tells.
* `Custody.Labelled` — proxies tell the class of the object whose anchor they have.
* `Custody.Path.labelled` — this stays so along every path.
-/

namespace ObjectBridge

/-- The class of an object, with its name. -/
def Instance.label (i : Instance) : ClassId × String :=
  (i.cls, i.className)

/-- The class that a proxy tells, with its name. -/
def Proxy.label (p : Proxy) : ClassId × String :=
  (p.cls, p.className)

/-- What an object has in common with its handles. -/
def Instance.badge (i : Instance) : Anchor × Proxy × (ClassId × String) :=
  (i.anchor, i.proxy, i.label)

theorem Instance.badge_eq_iff {i j : Instance} :
    i.badge = j.badge ↔ i.anchor = j.anchor ∧ i.proxy = j.proxy ∧ i.label = j.label := by
  simp only [badge, Prod.mk.injEq]

namespace Custody

/-- Proxies tell the class of the object whose anchor they have, and so does the proxy that an object has recorded. -/
structure Labelled (c : Custody) : Prop where
  held : ∀ p ∈ c.proxies, ∀ r i, c.arena.get? r = some i → i.anchor = p.anchor → p.label = i.label
  recorded : ∀ r i, c.arena.get? r = some i → i.proxy.label = i.label

variable {pinned : Set Proxy} {c c' : Custody}

/-! ## One step -/

/-- A change by which objects keep what they have in common with their handles, and no proxy comes up. -/
theorem Labelled.of_kept (h : c.Labelled) (hproxies : c'.proxies ⊆ c.proxies)
    (hget : ∀ t i', c'.arena.get? t = some i' → ∃ i, c.arena.get? t = some i ∧ i.badge = i'.badge) :
    c'.Labelled := by
  constructor
  · intro p hp r i' hi' hanchor
    obtain ⟨i, hi, hsame⟩ := hget r i' hi'
    obtain ⟨hanchors, -, hlabel⟩ := Instance.badge_eq_iff.mp hsame
    rw [← hlabel]
    exact h.held p (hproxies hp) r i hi (hanchors.trans hanchor)
  · intro r i' hi'
    obtain ⟨i, hi, hsame⟩ := hget r i' hi'
    obtain ⟨-, hproxy, hlabel⟩ := Instance.badge_eq_iff.mp hsame
    rw [← hlabel, ← hproxy]
    exact h.recorded r i hi

/-- A change by which one object gets a handle with its own label, on its anchor.  The anchor is the one that it had,
or no handle has it yet. -/
theorem Labelled.of_fresh (h : c.Labelled) (hid : c.Identified pinned) (hanchored : c'.arena.Anchored)
    {r : Reference} {j : Instance} {p : Proxy} (hj : c'.arena.get? r = some j) (hanchor : p.anchor = j.anchor)
    (hlabel : p.label = j.label) (hrecorded : j.proxy.label = j.label)
    (hold : j.anchor.serial = c.arena.nextAnchor ∨
      ∃ i, c.arena.get? r = some i ∧ i.anchor = j.anchor ∧ i.label = j.label)
    (hproxies : c'.proxies = insert p c.proxies)
    (hget : ∀ t i', t ≠ r → c'.arena.get? t = some i' → c.arena.get? t = some i') : c'.Labelled := by
  constructor
  · intro q hq t i' hi' hsame
    rw [hproxies] at hq
    by_cases htr : t = r
    · subst htr
      obtain rfl := Option.some.inj (hi'.symm.trans hj)
      rcases hq with rfl | hq
      · exact hlabel
      · rcases hold with hnew | ⟨i, hi, hanchors, hlabels⟩
        · -- The anchor is new, so no handle from before has it.
          have hlt := hid.anchor_lt _ (mem_anchors_of_mem hq)
          rw [← hsame, hnew] at hlt
          exact absurd hlt (Nat.lt_irrefl _)
        · rw [← hlabels]
          exact h.held q hq t i hi (hanchors.trans hsame)
    · rcases hq with rfl | hq
      · -- The anchor of the new proxy leads to the other object.
        refine absurd ?_ htr
        rw [← (hanchored.of_get? hi').1, hsame, hanchor]
        exact (hanchored.of_get? hj).1
      · exact h.held q hq t i' (hget t i' htr hi') hsame
  · intro t i' hi'
    by_cases htr : t = r
    · subst htr
      obtain rfl := Option.some.inj (hi'.symm.trans hj)
      exact hrecorded
    · exact h.recorded t i' (hget t i' htr hi')

theorem Labelled.register (h : c.Labelled) (hid : c.Identified pinned) {new : NewInstance} {k : Handle} {a' : Arena}
    (hreg : c.arena.register new = .ok (k, a')) : Labelled ⟨a', insert k.proxy c.proxies, c.overrides⟩ := by
  have hget := Arena.get?_register hid.balanced hreg
  have hj := hget k.target
  rw [if_pos rfl] at hj
  have hlabel : k.proxy.label = (new.stored k.proxy).label := by
    obtain ⟨slot, base, entry, -, -, rfl, -⟩ := Arena.register_cases hreg
    rfl
  refine h.of_fresh hid (hid.anchored.step (.register new k hreg)) hj rfl hlabel hlabel
    (Or.inl (Arena.nextAnchor_register hreg).2) rfl ?_
  intro t i' hne hi'
  rwa [hget, if_neg hne] at hi'

theorem Labelled.issue (h : c.Labelled) (hid : c.Identified pinned) {held : List Handle} {r : Reference}
    {k : Constness} {g : Handle} {a' : Arena} (hissue : c.arena.issue held r k = some (g, a')) :
    Labelled ⟨a', insert g.proxy c.proxies, c.overrides⟩ := by
  have hanchored := hid.anchored.step (Arena.Step.issue held r k g hissue)
  obtain ⟨i, hi, ⟨hkind, -, hproxy, serials, rfl⟩ | ⟨-, hfresh⟩⟩ := Arena.issue_cases hissue
  · -- The proxy is issued again.
    have hlabel := h.recorded r i hi
    refine h.of_fresh hid hanchored hi ?_ (hproxy ▸ hlabel) hlabel (Or.inr ⟨i, hi, rfl, rfl⟩) rfl ?_
    · rw [hproxy]
      exact (hid.anchored.of_get? hi).2 hkind
    · exact fun t i' _ hi' => hi'
  · obtain ⟨anchor, next, serials, hanchor, rfl, rfl⟩ := Arena.issueFresh_cases hfresh
    have hget := Arena.get?_setOccupant hi
    refine h.of_fresh hid hanchored ((hget _ r).trans (if_pos rfl)) rfl rfl ?_ ?_ rfl ?_
    · by_cases hkind : i.kind = .object
      · exact congrArg Proxy.label (if_pos hkind)
      · exact (congrArg Proxy.label (if_neg hkind)).trans (h.recorded r i hi)
    · rcases hanchor with ⟨-, rfl, -⟩ | ⟨-, rfl, -⟩
      · exact Or.inr ⟨i, hi, rfl, rfl⟩
      · exact Or.inl rfl
    · intro t i' hne hi'
      have hi'' := (hget _ t).symm.trans hi'
      rwa [if_neg hne] at hi''

/-- Every step keeps proxies labelled. -/
theorem Labelled.step (h : c.Labelled) (hid : c.Identified pinned) (hstep : Step pinned c c') : c'.Labelled := by
  rcases hstep.cases with hkeeps | ⟨new, k, a', hreg, -, rfl⟩ | ⟨held, r, k, g, a', hissue, -, rfl⟩
  · exact h.of_kept hkeeps.proxies (hkeeps.exists_get? Instance.badge fun _ => rfl)
  · exact h.register hid hreg
  · exact h.issue hid hissue

/-! ## Any number of steps -/

theorem labelled_empty : Labelled empty := by
  have hnone (r : Reference) (i : Instance) : empty.arena.get? r ≠ some i := by
    simp [Arena.get?, empty]
  exact ⟨fun p hp => absurd hp (Set.notMem_empty p), fun r i hi => absurd hi (hnone r i)⟩

theorem Path.labelled (hpath : Path pinned c c') (h : c.Labelled) (hid : c.Identified pinned) : c'.Labelled := by
  induction hpath with
  | refl => exact h
  | tail hbefore hlast ih => exact ih.step (Path.identified hbefore hid) hlast

end Custody

end ObjectBridge
