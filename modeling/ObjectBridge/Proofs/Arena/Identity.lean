import ObjectBridge.Proofs.Arena.Custody

/-!
# Proxies and what they stand for

The serials of proxies and anchors are given once.  So the serial of a proxy stands for this proxy alone, and
handles that have the proxy of an object with identity are handles of this object.  This holds of every
custody that arises, also after the generations of a slot are used up.

* `Custody.Identified` — serials tell proxies apart, and the handles of an object with identity share its
  proxy.
* `Custody.Admits` — how a handle with a new proxy comes up.
* `Custody.Path.identified` — this stays so along every path.
-/

namespace ObjectBridge

/-- What handles of an object depend on. -/
def Instance.identity (i : Instance) : ClassKind × Anchor × Proxy :=
  (i.kind, i.anchor, i.proxy)

theorem Instance.identity_eq_iff {i j : Instance} :
    i.identity = j.identity ↔ i.kind = j.kind ∧ i.anchor = j.anchor ∧ i.proxy = j.proxy := by
  simp only [identity, Prod.mk.injEq]

theorem Arena.constProxies_register {a a' : Arena} {new : NewInstance} {h : Handle}
    (hreg : a.register new = .ok (h, a')) :
    a'.constProxies = a.constProxies ∧ a'.nextProxy = a.nextProxy + 1 ∧
      h.proxy.serial = a.nextProxy := by
  obtain ⟨slot, base, entry, htake, hentry, rfl, rfl⟩ := register_cases hreg
  rcases takeSlot_cases htake with ⟨rest, -, rfl⟩ | ⟨-, -, -, rfl⟩
  · exact ⟨rfl, rfl, rfl⟩
  · exact ⟨rfl, rfl, rfl⟩

theorem Arena.constProxies_issueFresh (a : Arena) (held : List Handle) (r : Reference) (i : Instance)
    (isConst : Bool) :
    (a.issueFresh held r i isConst).2.constProxies =
      if isConst then a.nextProxy :: a.constProxies.filter (fun n => n != a.nextProxy)
      else a.constProxies := by
  cases isConst <;> rfl

/-- Serials are given in order. -/
theorem Arena.Step.serials_le {a a' : Arena} (hstep : Step a a') :
    a.nextProxy ≤ a'.nextProxy ∧ a.nextAnchor ≤ a'.nextAnchor := by
  cases hstep with
  | register new h hreg =>
      rw [(constProxies_register hreg).2.1, (nextAnchor_register hreg).1]
      exact ⟨Nat.le_succ _, Nat.le_succ _⟩
  | materialize r state hmat =>
      obtain ⟨i, hi, ⟨-, rfl⟩ | ⟨-, rfl⟩⟩ := materialize_cases hmat <;>
        exact ⟨Nat.le_refl _, Nat.le_refl _⟩
  | destroy r i hdes =>
      rw [(destroy?_cases hdes).2]
      exact ⟨Nat.le_refl _, Nat.le_refl _⟩
  | keep h keep operation hkeep =>
      obtain ⟨i, hi, rfl⟩ := setKeep_cases hkeep
      exact ⟨Nat.le_refl _, Nat.le_refl _⟩
  | issue held r c h hissue =>
      obtain ⟨i, hi, ⟨-, -, -, serials, rfl⟩ | ⟨-, hfresh⟩⟩ := issue_cases hissue
      · exact ⟨Nat.le_refl _, Nat.le_refl _⟩
      · obtain ⟨anchor, next, serials, hnext, -, rfl⟩ := issueFresh_cases hfresh
        refine ⟨Nat.le_succ _, ?_⟩
        rcases hnext with ⟨-, -, rfl⟩ | ⟨-, -, rfl⟩
        · exact Nat.le_refl _
        · exact Nat.le_succ _
  | flag p isConst => exact ⟨Nat.le_refl _, Nat.le_refl _⟩
  | contents hsame =>
      obtain ⟨-, -, -, hanchor, hproxy, -⟩ := fields_of_outline_eq hsame
      exact ⟨hproxy.ge, hanchor.ge⟩

theorem Arena.Path.serials_le {a a' : Arena} (hpath : Path a a') :
    a.nextProxy ≤ a'.nextProxy ∧ a.nextAnchor ≤ a'.nextAnchor := by
  induction hpath with
  | refl => exact ⟨Nat.le_refl _, Nat.le_refl _⟩
  | tail _ hlast ih => exact ⟨ih.1.trans hlast.serials_le.1, ih.2.trans hlast.serials_le.2⟩

namespace Custody

/-- The proxies of the handles that exist, the ones that objects have recorded and the pinned ones. -/
def known (pinned : Set Proxy) (c : Custody) : Set Proxy :=
  { p | p ∈ pinned ∨ p ∈ c.proxies ∨ ∃ r i, c.arena.get? r = some i ∧ i.proxy = p }

/-- Serials tell proxies apart, and handles with the anchor of an object with identity have its proxy. -/
structure Identified (pinned : Set Proxy) (c : Custody) : Prop where
  balanced : c.arena.Balanced
  anchored : c.arena.Anchored
  serial_lt : ∀ p ∈ c.known pinned, p.serial < c.arena.nextProxy
  serial_inj : ∀ p ∈ c.known pinned, ∀ q ∈ c.known pinned, p.serial = q.serial → p = q
  flag_lt : ∀ n ∈ c.arena.constProxies, n < c.arena.nextProxy
  anchor_lt : ∀ anchor ∈ c.anchors, anchor.serial < c.arena.nextAnchor
  anchor_inj : ∀ anchor ∈ c.anchors, ∀ other ∈ c.anchors,
    anchor.serial = other.serial → anchor = other
  eq_recorded : ∀ r i, c.arena.get? r = some i → i.kind = .object →
    ∀ p ∈ c.proxies, p.anchor = i.anchor → p = i.proxy

variable {pinned : Set Proxy} {c c' : Custody}

/-! ## One step -/

/-- A change by which objects keep their proxies and anchors, and by which handles come up at most with the
proxies of objects with identity. -/
theorem Identified.of_kept (hid : c.Identified pinned) (hstep : Arena.Step c.arena c'.arena)
    (hproxies : ∀ p ∈ c'.proxies, p ∈ c.proxies ∨
      ∃ r i, c.arena.get? r = some i ∧ i.kind = .object ∧ i.proxy = p)
    (hget : ∀ r i', c'.arena.get? r = some i' →
      ∃ i, c.arena.get? r = some i ∧ i.identity = i'.identity)
    (hproxy : c.arena.nextProxy ≤ c'.arena.nextProxy)
    (hanchor : c.arena.nextAnchor ≤ c'.arena.nextAnchor)
    (hflags : ∀ n ∈ c'.arena.constProxies, n < c.arena.nextProxy) : c'.Identified pinned := by
  have hknown : ∀ p ∈ c'.known pinned, p ∈ c.known pinned := by
    rintro p (hp | hp | ⟨r, i', hi', rfl⟩)
    · exact Or.inl hp
    · rcases hproxies p hp with hp | ⟨r, i, hi, -, hip⟩
      · exact Or.inr (Or.inl hp)
      · exact Or.inr (Or.inr ⟨r, i, hi, hip⟩)
    · obtain ⟨i, hi, heq⟩ := hget r i' hi'
      exact Or.inr (Or.inr ⟨r, i, hi, (Instance.identity_eq_iff.mp heq).2.2⟩)
  have hanchors : ∀ anchor ∈ c'.anchors, anchor ∈ c.anchors := by
    rintro anchor (⟨p, hp, rfl⟩ | ⟨r, i', hi', rfl⟩)
    · rcases hproxies p hp with hp | ⟨r, i, hi, hkind, rfl⟩
      · exact mem_anchors_of_mem hp
      · rw [(hid.anchored.of_get? hi).2 hkind]
        exact mem_anchors_of_get? hi
    · obtain ⟨i, hi, heq⟩ := hget r i' hi'
      rw [← (Instance.identity_eq_iff.mp heq).2.1]
      exact mem_anchors_of_get? hi
  refine ⟨hid.balanced.step hstep, hid.anchored.step hstep, ?_, ?_, ?_, ?_, ?_, ?_⟩
  · exact fun p hp => Nat.lt_of_lt_of_le (hid.serial_lt p (hknown p hp)) hproxy
  · exact fun p hp q hq => hid.serial_inj p (hknown p hp) q (hknown q hq)
  · exact fun n hn => Nat.lt_of_lt_of_le (hflags n hn) hproxy
  · exact fun anchor h => Nat.lt_of_lt_of_le (hid.anchor_lt anchor (hanchors anchor h)) hanchor
  · exact fun anchor h other h' => hid.anchor_inj anchor (hanchors anchor h) other (hanchors other h')
  · intro r i' hi' hkind p hp heq
    obtain ⟨i, hi, hsame⟩ := hget r i' hi'
    obtain ⟨hkinds, hanch, hprox⟩ := Instance.identity_eq_iff.mp hsame
    rw [← hkinds] at hkind
    rw [← hanch] at heq
    rw [← hprox]
    rcases hproxies p hp with hp | ⟨t, j, hj, hjkind, rfl⟩
    · exact hid.eq_recorded r i hi hkind p hp heq
    · -- The proxy is recorded where its anchor leads, so the two objects are one.
      obtain ⟨htarget, hprox⟩ := hid.anchored.of_get? hj
      rw [hprox hjkind] at heq
      rw [heq, (hid.anchored.of_get? hi).1] at htarget
      subst htarget
      rw [Option.some.inj (hj.symm.trans hi)]

/-- A change by which a handle with a new proxy comes up, which an object with identity records.  The anchor is
new, or no handle of the object had it if the object has identity. -/
structure Admits (pinned : Set Proxy) (c c' : Custody) (r : Reference) (j : Instance) (p : Proxy) : Prop where
  get?_eq : c'.arena.get? r = some j
  serial_eq : p.serial = c.arena.nextProxy
  anchor_eq : p.anchor = j.anchor
  recorded : j.proxy = p ∨ (j.kind ≠ .object ∧ j.proxy ∈ c.known pinned)
  anchor : (j.anchor.serial = c.arena.nextAnchor ∧ c'.arena.nextAnchor = c.arena.nextAnchor + 1) ∨
    (j.anchor ∈ c.anchors ∧ c'.arena.nextAnchor = c.arena.nextAnchor ∧
      (j.kind = .object → ∀ q ∈ c.proxies, q.anchor ≠ j.anchor))
  proxies_eq : c'.proxies = insert p c.proxies
  nextProxy_eq : c'.arena.nextProxy = c.arena.nextProxy + 1
  others : ∀ t i', t ≠ r → c'.arena.get? t = some i' → ∃ i, c.arena.get? t = some i ∧ i.identity = i'.identity
  flag_lt : ∀ n ∈ c'.arena.constProxies, n < c'.arena.nextProxy

section Admits

variable {r : Reference} {j : Instance} {p : Proxy}

theorem Admits.proxies_cases (h : Admits pinned c c' r j p) {q : Proxy} (hq : q ∈ c'.proxies) :
    q = p ∨ q ∈ c.proxies := by
  rw [h.proxies_eq] at hq
  exact hq

theorem Admits.known_cases (h : Admits pinned c c' r j p) {q : Proxy} (hq : q ∈ c'.known pinned) :
    q = p ∨ q ∈ c.known pinned := by
  rcases hq with hq | hq | ⟨t, i', hi', rfl⟩
  · exact Or.inr (Or.inl hq)
  · exact (h.proxies_cases hq).imp_right fun hq => Or.inr (Or.inl hq)
  · by_cases htr : t = r
    · subst htr
      obtain rfl := Option.some.inj (hi'.symm.trans h.get?_eq)
      exact h.recorded.imp_right And.right
    · obtain ⟨i, hi, heq⟩ := h.others t i' htr hi'
      exact Or.inr (Or.inr (Or.inr ⟨t, i, hi, (Instance.identity_eq_iff.mp heq).2.2⟩))

theorem Admits.anchors_cases (h : Admits pinned c c' r j p) {anchor : Anchor} (hanchor : anchor ∈ c'.anchors) :
    anchor = j.anchor ∨ anchor ∈ c.anchors := by
  rcases hanchor with ⟨q, hq, rfl⟩ | ⟨t, i', hi', rfl⟩
  · rcases h.proxies_cases hq with rfl | hq
    · exact Or.inl h.anchor_eq
    · exact Or.inr (mem_anchors_of_mem hq)
  · by_cases htr : t = r
    · subst htr
      exact Or.inl (congrArg Instance.anchor (Option.some.inj (hi'.symm.trans h.get?_eq)))
    · obtain ⟨i, hi, heq⟩ := h.others t i' htr hi'
      rw [← (Instance.identity_eq_iff.mp heq).2.1]
      exact Or.inr (mem_anchors_of_get? hi)

/-- The serial of the new proxy is beyond all others. -/
theorem Admits.serial_ne (h : Admits pinned c c' r j p) (hid : c.Identified pinned) {q : Proxy}
    (hq : q ∈ c.known pinned) : q.serial ≠ p.serial := by
  rw [h.serial_eq]
  exact (hid.serial_lt q hq).ne

/-- An anchor from before has the serial of the object's anchor only if it is this anchor: a new one has a new
serial. -/
theorem Admits.anchor_eq_of_serial (h : Admits pinned c c' r j p) (hid : c.Identified pinned) {anchor : Anchor}
    (hanchor : anchor ∈ c.anchors) (heq : anchor.serial = j.anchor.serial) : anchor = j.anchor := by
  rcases h.anchor with ⟨hserial, -⟩ | ⟨hold, -, -⟩
  · have hlt := hid.anchor_lt anchor hanchor
    omega
  · exact hid.anchor_inj anchor hanchor _ hold heq

/-- No proxy from before has the anchor of an object with identity that gets a new proxy. -/
theorem Admits.anchor_ne (h : Admits pinned c c' r j p) (hid : c.Identified pinned) (hkind : j.kind = .object)
    {q : Proxy} (hq : q ∈ c.proxies) : q.anchor ≠ j.anchor := by
  rcases h.anchor with ⟨hserial, -⟩ | ⟨-, -, hfree⟩
  · intro heq
    have hlt := hid.anchor_lt _ (mem_anchors_of_mem hq)
    rw [heq] at hlt
    omega
  · exact hfree hkind q hq

/-- Handles with the anchor of an object with identity have its proxy after the change. -/
theorem Admits.eq_recorded (h : Admits pinned c c' r j p) (hid : c.Identified pinned) (hanchored : c'.arena.Anchored)
    {t : Reference} {i' : Instance} (hi' : c'.arena.get? t = some i') (hkind : i'.kind = .object) {q : Proxy}
    (hq : q ∈ c'.proxies) (heq : q.anchor = i'.anchor) : q = i'.proxy := by
  by_cases htr : t = r
  · subst htr
    obtain rfl := Option.some.inj (hi'.symm.trans h.get?_eq)
    rcases h.proxies_cases hq with rfl | hq
    · rcases h.recorded with hproxy | ⟨hvalue, -⟩
      · exact hproxy.symm
      · exact absurd hkind hvalue
    · exact absurd heq (h.anchor_ne hid hkind hq)
  · obtain ⟨i, hi, hsame⟩ := h.others t i' htr hi'
    obtain ⟨hkinds, hanch, hprox⟩ := Instance.identity_eq_iff.mp hsame
    rcases h.proxies_cases hq with rfl | hq
    · -- The anchor of the new proxy leads to the other object.
      refine absurd ?_ htr
      rw [← (hanchored.of_get? hi').1, ← heq, h.anchor_eq]
      exact (hanchored.of_get? h.get?_eq).1
    · rw [← hprox]
      exact hid.eq_recorded t i hi (hkinds.trans hkind) q hq (heq.trans hanch.symm)

/-- A handle with a new proxy leaves proxies identified. -/
theorem Identified.of_admits (hid : c.Identified pinned) (hstep : Arena.Step c.arena c'.arena)
    (h : Admits pinned c c' r j p) : c'.Identified pinned := by
  have hanchored := hid.anchored.step hstep
  refine ⟨hid.balanced.step hstep, hanchored, ?_, ?_, h.flag_lt, ?_, ?_, ?_⟩
  · intro q hq
    have hserial := h.serial_eq
    rw [h.nextProxy_eq]
    rcases h.known_cases hq with rfl | hq
    · omega
    · exact Nat.lt_succ_of_lt (hid.serial_lt q hq)
  · intro q hq q' hq' heq
    -- The serial of the new proxy is the next one, which no known proxy has.
    rcases h.known_cases hq with rfl | hq <;> rcases h.known_cases hq' with rfl | hq'
    · rfl
    · exact absurd heq.symm (h.serial_ne hid hq')
    · exact absurd heq (h.serial_ne hid hq)
    · exact hid.serial_inj q hq q' hq' heq
  · intro anchor hmem
    rcases h.anchors_cases hmem with rfl | hmem
    · rcases h.anchor with ⟨hserial, hmore⟩ | ⟨hold, hsame, -⟩
      · omega
      · exact hsame ▸ hid.anchor_lt _ hold
    · have hlt := hid.anchor_lt anchor hmem
      rcases h.anchor with ⟨-, hmore⟩ | ⟨-, hsame, -⟩ <;> omega
  · intro anchor hmem other hmem' heq
    rcases h.anchors_cases hmem with rfl | hmem <;> rcases h.anchors_cases hmem' with rfl | hmem'
    · rfl
    · exact (h.anchor_eq_of_serial hid hmem' heq.symm).symm
    · exact h.anchor_eq_of_serial hid hmem heq
    · exact hid.anchor_inj anchor hmem other hmem' heq
  · exact fun t i' hi' hkind q hq heq => h.eq_recorded hid hanchored hi' hkind hq heq

end Admits

theorem Identified.register (hid : c.Identified pinned) {new : NewInstance} {h : Handle} {a' : Arena}
    (hreg : c.arena.register new = .ok (h, a')) :
    Identified pinned ⟨a', insert h.proxy c.proxies, c.overrides⟩ := by
  obtain ⟨hanchor, hanchorSerial⟩ := Arena.nextAnchor_register hreg
  obtain ⟨hflags, hproxy, hserial⟩ := Arena.constProxies_register hreg
  have hget := Arena.get?_register hid.balanced hreg
  have hj := hget h.target
  rw [if_pos rfl] at hj
  refine hid.of_admits (.register new h hreg) ⟨hj, hserial, rfl, Or.inl rfl, Or.inl ⟨hanchorSerial, hanchor⟩, rfl,
    hproxy, ?_, ?_⟩
  · intro t i' hne hi'
    rw [hget, if_neg hne] at hi'
    exact ⟨i', hi', rfl⟩
  · intro n hn
    rw [hflags] at hn
    have hlt := hid.flag_lt n hn
    show n < a'.nextProxy
    omega

theorem Identified.issue (hid : c.Identified pinned) {held : List Handle} {r : Reference}
    {k : Constness} {h : Handle} {a' : Arena} (hissue : c.arena.issue held r k = some (h, a'))
    (hall : ∀ p ∈ c.proxies, ∃ k ∈ held, k.proxy = p) :
    Identified pinned ⟨a', insert h.proxy c.proxies, c.overrides⟩ := by
  have hstep : Arena.Step c.arena a' := .issue held r k h hissue
  obtain ⟨i, hi, hcases⟩ := Arena.issue_cases hissue
  by_cases hold : i.kind = .object ∧ Arena.proxyHeld held i.proxy = true
  · -- The proxy is issued again.
    rw [Arena.issue_of_held hi hold.1 hold.2, Option.some.injEq, Prod.mk.injEq] at hissue
    obtain ⟨rfl, rfl⟩ := hissue
    refine hid.of_kept hstep ?_ ?_ ?_ ?_ ?_
    · rintro p (rfl | hp)
      · exact Or.inr ⟨r, i, hi, hold.1, rfl⟩
      · exact Or.inl hp
    · intro t i' hi'
      refine ⟨i', ?_, rfl⟩
      split at hi' <;> exact hi'
    · split <;> exact Nat.le_refl _
    · split <;> exact Nat.le_refl _
    · intro n hn
      refine hid.flag_lt n ?_
      split at hn
      · exact List.mem_of_mem_filter hn
      · exact hn
  · have hfresh : c.arena.issueFresh held r i (k = .const) = (h, a') := by
      rcases hcases with ⟨hkind, hheld, -⟩ | ⟨-, hfresh⟩
      · exact absurd ⟨hkind, hheld⟩ hold
      · exact hfresh
    have hflags := Arena.constProxies_issueFresh c.arena held r i (k = .const)
    rw [hfresh] at hflags
    obtain ⟨anchor, next, serials, hanchor, rfl, rfl⟩ := Arena.issueFresh_cases hfresh
    have hget := Arena.get?_setOccupant hi
    -- No handle has the anchor of an object with identity, as it would have the proxy as well.
    have hfree : i.kind = .object → ∀ q ∈ c.proxies, q.anchor ≠ i.anchor := by
      intro hkind q hq heq
      obtain ⟨k, hk, rfl⟩ := hall q hq
      have hrecorded := hid.eq_recorded r i hi hkind _ hq heq
      refine hold ⟨hkind, List.any_eq_true.mpr ⟨k, hk, ?_⟩⟩
      rw [hrecorded, beq_self_eq_true]
    have hrecorded : i.anchor ∈ c.anchors := mem_anchors_of_get? hi
    refine hid.of_admits hstep ⟨(hget _ r).trans (if_pos rfl), rfl, rfl, ?_, ?_, rfl, rfl, ?_, ?_⟩
    · by_cases hkind : i.kind = .object
      · exact Or.inl (if_pos hkind)
      · refine Or.inr ⟨hkind, ?_⟩
        rw [if_neg hkind]
        exact Or.inr (Or.inr ⟨r, i, hi, rfl⟩)
    · rcases hanchor with ⟨-, rfl, rfl⟩ | ⟨-, rfl, rfl⟩
      · exact Or.inr ⟨hrecorded, rfl, hfree⟩
      · exact Or.inl ⟨rfl, rfl⟩
    · intro t i' hne hi'
      have hi'' := (hget _ t).symm.trans hi'
      rw [if_neg hne] at hi''
      exact ⟨i', hi'', rfl⟩
    · intro n hn
      have hn' : n ∈ serials := hn
      have hbound : ∀ m ∈ c.arena.constProxies, m < c.arena.nextProxy + 1 := fun m hm =>
        Nat.lt_succ_of_lt (hid.flag_lt m hm)
      simp only at hflags
      rw [hflags] at hn'
      split at hn'
      · rcases List.mem_cons.mp hn' with rfl | hn'
        · exact Nat.lt_succ_self _
        · exact hbound n (List.mem_of_mem_filter hn')
      · exact hbound n hn'

/-- Every step keeps proxies identified. -/
theorem Identified.step (hid : c.Identified pinned) (hstep : Step pinned c c') :
    c'.Identified pinned := by
  rcases hstep.cases with hkeeps | ⟨new, h, a', hreg, -, rfl⟩ | ⟨held, r, k, h, a', hissue, hall, rfl⟩
  · refine hid.of_kept hstep.arena_step (fun p hp => Or.inl (hkeeps.proxies hp))
      (hkeeps.exists_get? Instance.identity fun _ => rfl) hkeeps.nextProxy_eq.ge hkeeps.nextAnchor_eq.ge ?_
    intro n hn
    rcases hkeeps.flags n hn with hn | ⟨p, hp, rfl⟩
    · exact hid.flag_lt n hn
    · exact hid.serial_lt p (Or.inr (Or.inl hp))
  · exact hid.register hreg
  · exact hid.issue hissue hall

/-! ## Any number of steps -/

theorem identified_empty : Identified ∅ empty := by
  have hnone (r : Reference) : empty.arena.get? r = none := by
    simp [Arena.get?, empty]
  have hknown : ∀ p, p ∉ known ∅ empty := by
    rintro p (hp | hp | ⟨r, i, hi, -⟩)
    · exact hp
    · exact hp
    · rw [hnone] at hi
      cases hi
  have hanchors : ∀ anchor, anchor ∉ empty.anchors := by
    rintro anchor (⟨p, hp, -⟩ | ⟨r, i, hi, -⟩)
    · exact hp
    · rw [hnone] at hi
      cases hi
  refine ⟨Arena.balanced_empty, Arena.anchored_empty, ?_, ?_, ?_, ?_, ?_, ?_⟩
  · exact fun p hp => absurd hp (hknown p)
  · exact fun p hp => absurd hp (hknown p)
  · exact fun n hn => absurd hn List.not_mem_nil
  · exact fun anchor h => absurd h (hanchors anchor)
  · exact fun anchor h => absurd h (hanchors anchor)
  · intro r i hi
    rw [hnone] at hi
    cases hi

theorem Path.identified (hpath : Path pinned c c') (hid : c.Identified pinned) :
    c'.Identified pinned := by
  induction hpath with
  | refl => exact hid
  | tail _ hlast ih => exact ih.step hlast

/-- Proxies in use may be pinned. -/
theorem Identified.pin (hid : c.Identified ∅) (hsub : pinned ⊆ c.proxies) :
    c.Identified pinned := by
  have hknown : ∀ p ∈ c.known pinned, p ∈ c.known ∅ := by
    rintro p (hp | hp)
    · exact Or.inr (Or.inl (hsub hp))
    · exact Or.inr hp
  exact ⟨hid.balanced, hid.anchored, fun p hp => hid.serial_lt p (hknown p hp),
    fun p hp q hq => hid.serial_inj p (hknown p hp) q (hknown q hq), hid.flag_lt, hid.anchor_lt,
    hid.anchor_inj, hid.eq_recorded⟩

end Custody

end ObjectBridge
