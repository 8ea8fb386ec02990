import ObjectBridge.Proofs.Arena.Flags
import ObjectBridge.Proofs.Run.Occurrence

/-!
# Const flags during a run

What is in use all the time while a run lasts is pinned, so its flags change only as those of pinned proxies
do.

* `State.Arises.identified` — in every state that arises, serials tell proxies apart.
* `Run.Conserves.stays_mutable` and `Run.Conserves.released` — the flag of a handle that is kept.
* `State.Sole` — no handle but the one in hand is a handle of its object.
-/

namespace ObjectBridge

namespace State

variable {s t : State} {hand hand' : List Value}

/-! ## Handles in use -/

/-- Handles stay in use with the values that mention them. -/
theorem proxies_subset (hcells : t.cells = s.cells)
    (hsub : ∀ v ∈ s.inUse hand, v ∈ t.inUse hand') :
    (s.custody hand).proxies ⊆ (t.custody hand').proxies := by
  rintro p ⟨h, hh, rfl⟩
  refine ⟨h, ?_, rfl⟩
  rw [hcells]
  exact Cells.mem_handlesInUse_mono hsub hh

theorem mem_proxies_of_mem_handles {h : Handle} (hh : h ∈ s.handles) :
    h.proxy ∈ (s.custody hand).proxies := by
  have hsub : (s.custody []).proxies ⊆ (s.custody hand).proxies :=
    proxies_subset rfl fun _ hv => List.mem_append_right _ hv
  exact hsub ⟨h, hh, rfl⟩

theorem pinned_subset_proxies (s : State) (hand : List Value) :
    s.pinned ⊆ (s.custody hand).proxies := by
  intro p hp
  obtain ⟨h, hh, rfl⟩ := exists_mem_handles_of_pinned hp
  exact mem_proxies_of_mem_handles hh

/-- What is in hand is in use. -/
theorem mem_proxies_of_mem_hand {v : Value} (hv : v ∈ hand) {h : Handle} (hh : h ∈ v.handles) :
    h.proxy ∈ (s.custody hand).proxies := by
  refine ⟨h, ?_, rfl⟩
  rw [Cells.mem_handlesInUse_iff]
  exact Or.inl ⟨v, mem_inUse_of_mem_hand hv, hh⟩

/-! ## Serials -/

theorem Arises.identified (hs : s.Arises hand) : (s.custody hand).Identified s.pinned :=
  (Custody.Path.identified hs Custody.identified_empty).pin (pinned_subset_proxies s hand)

theorem Arises.anchored (hs : s.Arises hand) : s.arena.Anchored :=
  hs.identified.anchored

/-- The proxies in use are old. -/
theorem Arises.serial_lt (hs : s.Arises hand) {p : Proxy} (hp : p ∈ (s.custody hand).proxies) :
    p.serial < s.arena.nextProxy :=
  hs.identified.serial_lt p (Or.inr (Or.inl hp))

theorem Arises.flag_lt (hs : s.Arises hand) : ∀ n ∈ s.arena.constProxies, n < s.arena.nextProxy :=
  hs.identified.flag_lt

/-- The anchors in use are old. -/
theorem Arises.anchor_lt (hs : s.Arises hand) {p : Proxy} (hp : p ∈ (s.custody hand).proxies) :
    p.anchor.serial < s.arena.nextAnchor :=
  hs.identified.anchor_lt _ (Custody.mem_anchors_of_mem hp)

/-- A state arises with other values in hand that are in use anyway. -/
theorem Arises.of_covers (hs : s.Arises hand) (hcov : ∀ v ∈ hand', s.Covers hand v) :
    s.Arises hand' :=
  hs.trans (custody_path_of_within rfl Set.Subset.rfl (within_inUse hcov))

/-! ## The only handle of an object -/

/-- No handle that exists is a handle of the object, apart from one that is in other hands. -/
def Sole (s : State) (hand : List Value) (k : Handle) : Prop :=
  ∀ p ∈ (s.custody hand).proxies, ¬(s.custody hand).SameObject p k.proxy

/-- The handles of an object that is there agree in their anchor, so different anchors tell objects apart. -/
theorem not_sameObject (hs : s.Arises hand) {p q : Proxy} (hp : p ∈ (s.custody hand).proxies)
    (hq : q ∈ (s.custody hand).proxies) {i : Instance} (hi : s.arena.get? q.anchor.target = some i)
    (hne : p.anchor ≠ q.anchor) : ¬(s.custody hand).SameObject p q := by
  rintro (heq | ⟨heq, hfew⟩)
  · exact hne heq
  · have hsound : (s.custody hand).Sound := hs.sound hfew
    refine hne ?_
    rw [hsound.eq_recorded _ (Custody.mem_anchors_of_mem hp) i (by rw [heq]; exact hi),
      hsound.eq_recorded _ (Custody.mem_anchors_of_mem hq) i hi]

theorem sole_of_anchor_ne {k : Handle} (hs : s.Arises (.object k :: hand)) {i : Instance}
    (hi : s.arena.get? k.target = some i)
    (hne : ∀ p ∈ (s.custody hand).proxies, p.anchor ≠ k.proxy.anchor) : s.Sole hand k := by
  intro p hp
  have hmore : (s.custody hand).proxies ⊆ (s.custody (.object k :: hand)).proxies :=
    proxies_subset rfl fun v hv => List.mem_cons_of_mem _ hv
  have hk : k.proxy ∈ (s.custody (.object k :: hand)).proxies :=
    mem_proxies_of_mem_hand List.mem_cons_self (by simp)
  exact not_sameObject hs (hmore hp) hk hi (hne p hp)

end State

namespace Run

variable {α : Type} {s : State} {hand : List Value} {act : Run α} {out : α → List Value}

/-- A handle that is kept while a run lasts does not become const. -/
theorem Conserves.stays_mutable (hact : Conserves act s hand out) (hs : s.Arises hand) {h : Handle}
    (hh : h.proxy ∈ s.pinned) (hmut : s.isConst h = false) :
    (act.outcome s).2.isConst h = false := by
  obtain ⟨hview, hflag⟩ := Arena.isConst_eq_false_iff.mp hmut
  have hlt := hs.serial_lt (State.pinned_subset_proxies s hand hh)
  exact Arena.isConst_eq_false_iff.mpr ⟨hview, hact.path_nil.stays_mutable hh hlt hflag⟩

/-- A handle that is kept while a run lasts stops being const only if its object is issued again. -/
theorem Conserves.released (hact : Conserves act s hand out) (hs : s.Arises hand) {h : Handle}
    (hh : h.proxy ∈ s.pinned) (hconst : s.isConst h = true)
    (hmut : (act.outcome s).2.isConst h = false) :
    Custody.Released s.pinned h.proxy (s.custody hand) ((act.outcome s).2.custody []) := by
  obtain ⟨hview, hcleared⟩ := Arena.isConst_eq_false_iff.mp hmut
  have hflag : h.proxy.serial ∈ s.arena.constProxies := by
    rcases Arena.isConst_eq_true_iff.mp hconst with hview' | hflag
    · rw [hview] at hview'
      cases hview'
    · exact hflag
  exact hact.path_nil.released hs (State.pinned_subset_proxies s hand) hh hflag hcleared

end Run

end ObjectBridge
