import ObjectBridge.Proofs.Arena.Identity

/-!
# Const flags

A handle is const by its own view or by the flag of its proxy.  Flags change in two ways only: a proxy that is
not pinned may become const, and the proxy of an object with identity stops being const when the object is
issued again by a handle that must not be const.

* `Arena.isConst_of_issue_const` and `Arena.isConst_of_issue_nonConst` — the handles that are issued.
* `Custody.Path.stays_mutable` — a pinned proxy that is not const does not become const.
* `Custody.Path.released` — a pinned proxy that is const stops being so only when its object is issued again.
-/

namespace ObjectBridge

namespace Arena

theorem isConst_eq_true_iff {a : Arena} {h : Handle} :
    a.isConst h = true ↔ h.constView = true ∨ h.proxy.serial ∈ a.constProxies := by
  simp [isConst]

theorem isConst_eq_false_iff {a : Arena} {h : Handle} :
    a.isConst h = false ↔ h.constView = false ∧ h.proxy.serial ∉ a.constProxies := by
  simp [isConst]

theorem mem_constProxies_setConst_true {a : Arena} {p : Proxy} {n : Nat} :
    n ∈ (a.setConst p true).constProxies ↔ n = p.serial ∨ n ∈ a.constProxies := by
  by_cases hn : n = p.serial <;> simp [setConst, hn]

theorem mem_constProxies_setConst_false {a : Arena} {p : Proxy} {n : Nat} :
    n ∈ (a.setConst p false).constProxies ↔ n ∈ a.constProxies ∧ n ≠ p.serial := by
  simp [setConst]

theorem mem_constProxies_issueFresh {a : Arena} {held : List Handle} {r : Reference} {i : Instance}
    {isConst : Bool} {n : Nat} (hlt : n < a.nextProxy) :
    n ∈ (a.issueFresh held r i isConst).2.constProxies ↔ n ∈ a.constProxies := by
  have hne : n ≠ a.nextProxy := Nat.ne_of_lt hlt
  rw [constProxies_issueFresh]
  cases isConst <;> simp [hne]

/-- To issue a handle sets no flag of an old proxy, and clears one only if the handle must not be const. -/
theorem mem_constProxies_issue {a a' : Arena} {held : List Handle} {r : Reference} {c : Constness}
    {h : Handle} (hissue : a.issue held r c = some (h, a')) {n : Nat} (hlt : n < a.nextProxy) :
    (n ∈ a'.constProxies ↔ n ∈ a.constProxies) ∨
      (c = .nonConst ∧ n ∉ a'.constProxies ∧
        ∃ i, a.get? r = some i ∧ i.kind = .object ∧ i.proxy.serial = n ∧
          a' = a.setConst i.proxy false) := by
  obtain ⟨i, hi, hcases⟩ := issue_cases hissue
  by_cases hold : i.kind = .object ∧ proxyHeld held i.proxy = true
  · rw [issue_of_held hi hold.1 hold.2, Option.some.injEq, Prod.mk.injEq] at hissue
    obtain ⟨-, rfl⟩ := hissue
    split
    · rename_i hc
      by_cases hn : n = i.proxy.serial
      · refine Or.inr ⟨hc, ?_, i, hi, hold.1, hn.symm, rfl⟩
        simp [mem_constProxies_setConst_false, hn]
      · exact Or.inl (by simp [mem_constProxies_setConst_false, hn])
    · exact Or.inl Iff.rfl
  · rw [issue_of_not_held hi hold, Option.some.injEq] at hissue
    have hsame : n ∈ (a.issueFresh held r i (c = .const)).2.constProxies ↔ n ∈ a.constProxies :=
      mem_constProxies_issueFresh hlt
    rw [hissue] at hsame
    exact Or.inl hsame

/-- A handle that is issued to be const is const. -/
theorem isConst_of_issue_const {a a' : Arena} {held : List Handle} {r : Reference} {h : Handle}
    (hissue : a.issue held r .const = some (h, a')) : a'.isConst h = true := by
  obtain ⟨i, hi, hcases⟩ := issue_cases hissue
  by_cases hold : i.kind = .object ∧ proxyHeld held i.proxy = true
  · rw [issue_of_held hi hold.1 hold.2, Option.some.injEq, Prod.mk.injEq] at hissue
    obtain ⟨rfl, rfl⟩ := hissue
    by_cases hflag : i.proxy.serial ∈ a.constProxies <;> simp [isConst, hflag]
  · rw [issue_of_not_held hi hold, Option.some.injEq] at hissue
    have hflags := constProxies_issueFresh a held r i true
    obtain ⟨anchor, next, serials, -, rfl, rfl⟩ := issueFresh_cases hissue
    simp only [decide_true] at hissue
    rw [hissue] at hflags
    rw [isConst_eq_true_iff]
    right
    show a.nextProxy ∈ serials
    simp only at hflags
    rw [hflags]
    exact List.mem_cons_self

/-- A handle that is issued not to be const is not const. -/
theorem isConst_of_issue_nonConst {a a' : Arena} {held : List Handle} {r : Reference} {h : Handle}
    (hflag : ∀ n ∈ a.constProxies, n < a.nextProxy)
    (hissue : a.issue held r .nonConst = some (h, a')) : a'.isConst h = false := by
  obtain ⟨i, hi, hcases⟩ := issue_cases hissue
  by_cases hold : i.kind = .object ∧ proxyHeld held i.proxy = true
  · rw [issue_of_held hi hold.1 hold.2, Option.some.injEq, Prod.mk.injEq] at hissue
    obtain ⟨rfl, rfl⟩ := hissue
    simp [isConst_eq_false_iff, mem_constProxies_setConst_false]
  · rw [issue_of_not_held hi hold, Option.some.injEq] at hissue
    have hflags := constProxies_issueFresh a held r i false
    obtain ⟨anchor, next, serials, -, rfl, rfl⟩ := issueFresh_cases hissue
    rw [isConst_eq_false_iff]
    refine ⟨rfl, ?_⟩
    show a.nextProxy ∉ serials
    have hissue' : a.issueFresh held r i false = _ := hissue
    rw [hissue'] at hflags
    simp only [Bool.false_eq_true, if_false] at hflags
    rw [hflags]
    -- A fresh proxy has the next serial, and the flagged ones have smaller serials.
    exact fun hmem => absurd (hflag _ hmem) (Nat.lt_irrefl _)

end Arena

namespace Custody

variable {pinned : Set Proxy} {c c' : Custody}

/-! ## One step -/

/-- A step changes the flag of an old proxy in two ways only: it sets the flag of one that is not pinned, or
it clears the flag because the object is issued again. -/
theorem Step.flags (hstep : Step pinned c c') {n : Nat} (hlt : n < c.arena.nextProxy) :
    (n ∈ c'.arena.constProxies ↔ n ∈ c.arena.constProxies) ∨
      (n ∈ c'.arena.constProxies ∧ ∀ q ∈ pinned, q.serial ≠ n) ∨
      (n ∉ c'.arena.constProxies ∧ ∃ r i, Reissue r c c' ∧ c.arena.get? r = some i ∧
        i.kind = .object ∧ i.proxy.serial = n ∧ c'.arena = c.arena.setConst i.proxy false) := by
  cases hstep with
  | move hsame hsub hmore =>
      rw [(Arena.fields_of_outline_eq hsame).2.2.2.2.2]
      exact Or.inl Iff.rfl
  | register new h hreg hshared =>
      rw [(Arena.constProxies_register hreg).1]
      exact Or.inl Iff.rfl
  | issue held r c h hconst hissue hall =>
      rcases Arena.mem_constProxies_issue hissue hlt with hsame | ⟨hc, -⟩
      · exact Or.inl hsame
      · exact absurd hc hconst
  | reissue r hreissue =>
      obtain ⟨held, h, hissue, -, -⟩ := hreissue.exists_issue
      -- Only the reissue of an object's own proxy takes a flag away.
      rcases Arena.mem_constProxies_issue hissue hlt with hsame | ⟨-, hcleared, i, hi, hkind, hn, heq⟩
      · exact Or.inl hsame
      · exact Or.inr (Or.inr ⟨hcleared, r, i, hreissue, hi, hkind, hn, heq⟩)
  | materialize r state hmat =>
      obtain ⟨i, hi, ⟨-, rfl⟩ | ⟨-, rfl⟩⟩ := Arena.materialize_cases hmat <;> exact Or.inl Iff.rfl
  | destroy r i hdes =>
      rw [(Arena.destroy?_cases hdes).2]
      exact Or.inl Iff.rfl
  | keep h keep operation hkeep =>
      obtain ⟨i, hi, rfl⟩ := Arena.setKeep_cases hkeep
      exact Or.inl Iff.rfl
  | flag p hp hfree =>
      by_cases hn : n = p.serial
      · subst hn
        exact Or.inr (Or.inl ⟨Arena.mem_constProxies_setConst_true.mpr (Or.inl rfl), hfree⟩)
      · exact Or.inl (by simp [Arena.mem_constProxies_setConst_true, hn])

/-- An object that has an old proxy after a step had it before. -/
theorem Step.get?_of_recorded (hid : c.Identified pinned) (hstep : Step pinned c c') {r : Reference}
    {i' : Instance} (hi' : c'.arena.get? r = some i') (hlt : i'.proxy.serial < c.arena.nextProxy) :
    ∃ i, c.arena.get? r = some i ∧ i.kind = i'.kind ∧ i.proxy = i'.proxy := by
  rcases hstep.cases with hkeeps | ⟨new, h, a', hreg, -, rfl⟩ | ⟨held, t, k, h, a', hissue, -, rfl⟩
  · obtain ⟨i, hi, heq⟩ := hkeeps.exists_get? Instance.identity (fun _ => rfl) r i' hi'
    obtain ⟨hkind, -, hproxy⟩ := Instance.identity_eq_iff.mp heq
    exact ⟨i, hi, hkind, hproxy⟩
  · rw [Arena.get?_register hid.balanced hreg] at hi'
    split at hi'
    · obtain rfl := Option.some.inj hi'
      have hserial := (Arena.constProxies_register hreg).2.2
      exact absurd (hserial ▸ hlt) (Nat.lt_irrefl _)
    · exact ⟨i', hi', rfl, rfl⟩
  · obtain ⟨i, hi, ⟨-, -, -, serials, rfl⟩ | ⟨-, hfresh⟩⟩ := Arena.issue_cases hissue
    · exact ⟨i', hi', rfl, rfl⟩
    · obtain ⟨anchor, next, serials, -, rfl, rfl⟩ := Arena.issueFresh_cases hfresh
      have hi'' := (Arena.get?_setOccupant hi _ r).symm.trans hi'
      split at hi''
      · rename_i heq
        obtain rfl := Option.some.inj hi''
        rw [heq]
        by_cases hkind : i.kind = .object
        · -- The new proxy is not an old one.
          simp [hkind] at hlt
        · exact ⟨i, hi, rfl, (if_neg hkind).symm⟩
      · exact ⟨i', hi'', rfl, rfl⟩

/-! ## Any number of steps -/

theorem Path.nextProxy_le (hpath : Path pinned c c') : c.arena.nextProxy ≤ c'.arena.nextProxy :=
  (Arena.Path.serials_le hpath.arena_path).1

theorem Path.nextAnchor_le (hpath : Path pinned c c') : c.arena.nextAnchor ≤ c'.arena.nextAnchor :=
  (Arena.Path.serials_le hpath.arena_path).2

/-- A pinned proxy that is not const does not become const. -/
theorem Path.stays_mutable (hpath : Path pinned c c') {p : Proxy} (hp : p ∈ pinned)
    (hlt : p.serial < c.arena.nextProxy) (hflag : p.serial ∉ c.arena.constProxies) :
    p.serial ∉ c'.arena.constProxies := by
  induction hpath with
  | refl => exact hflag
  | tail hbefore hlast ih =>
      rcases hlast.flags (hlt.trans_le (Path.nextProxy_le hbefore)) with hsame | ⟨-, hfree⟩ | ⟨hnot, -⟩
      · rwa [hsame]
      · exact absurd rfl (hfree p hp)
      · exact hnot

/-- An object that has an old proxy had it all the time. -/
theorem Path.get?_of_recorded (hpath : Path pinned c c') (hid : c.Identified pinned) {r : Reference}
    {i' : Instance} (hi' : c'.arena.get? r = some i') (hlt : i'.proxy.serial < c.arena.nextProxy) :
    ∃ i, c.arena.get? r = some i ∧ i.kind = i'.kind ∧ i.proxy = i'.proxy := by
  induction hpath generalizing i' with
  | refl => exact ⟨i', hi', rfl, rfl⟩
  | tail hbefore hlast ih =>
      obtain ⟨j, hj, hkind, hproxy⟩ := hlast.get?_of_recorded (Path.identified hbefore hid) hi'
        (hlt.trans_le (Path.nextProxy_le hbefore))
      obtain ⟨i, hi, hkind', hproxy'⟩ := ih hj (hproxy ▸ hlt)
      exact ⟨i, hi, hkind'.trans hkind, hproxy'.trans hproxy⟩

/-- Two proxies are of one object: they share the anchor, or they lead to one object while the generations
of no slot are used up. -/
def SameObject (c : Custody) (p q : Proxy) : Prop :=
  p.anchor = q.anchor ∨
    (p.anchor.target = q.anchor.target ∧ ∀ slot, (c.arena.slotAt slot).removals < 2 ^ 32)

/-- On the way from one custody to another, the object with identity that had a proxy all the time was issued
again by a handle that must not be const.  Thereupon no proxy of the object was const. -/
structure Released (pinned : Set Proxy) (q : Proxy) (c c' : Custody) : Prop where
  recorded : ∃ i, c.arena.get? q.anchor.target = some i ∧ i.kind = .object ∧ i.proxy = q
  reissued : ∃ b d, Path pinned c b ∧ Reissue q.anchor.target b d ∧ Path pinned d c' ∧
    q.serial ∈ b.arena.constProxies ∧
    ∀ p ∈ d.proxies, d.SameObject p q → p.serial ∉ d.arena.constProxies

/-- The step at which a flag is cleared. -/
theorem Path.exists_reissue (hpath : Path pinned c c') {n : Nat} (hlt : n < c.arena.nextProxy)
    (hflag : n ∈ c.arena.constProxies) (hcleared : n ∉ c'.arena.constProxies) :
    ∃ b d r i, Path pinned c b ∧ Reissue r b d ∧ Path pinned d c' ∧ n ∈ b.arena.constProxies ∧
      b.arena.get? r = some i ∧ i.kind = .object ∧ i.proxy.serial = n ∧
      d.arena = b.arena.setConst i.proxy false := by
  induction hpath with
  | refl => exact absurd hflag hcleared
  | @tail b d hbefore hlast ih =>
      by_cases hn : n ∈ b.arena.constProxies
      · rcases hlast.flags (hlt.trans_le (Path.nextProxy_le hbefore)) with
          hsame | ⟨hset, -⟩ | ⟨-, r, i, hreissue, hi, hkind, hserial, harena⟩
        · exact absurd (hsame.mpr hn) hcleared
        · exact absurd hset hcleared
        · exact ⟨b, d, r, i, hbefore, hreissue, Relation.ReflTransGen.refl, hn, hi, hkind, hserial,
            harena⟩
      · obtain ⟨b', d', r, i, hpath, hreissue, hrest, h⟩ := ih hn
        exact ⟨b', d', r, i, hpath, hreissue, hrest.tail hlast, h⟩

/-- A pinned proxy that is const stops being so only when its object is issued again. -/
theorem Path.released (hpath : Path pinned c c') (hstart : Path ∅ empty c)
    (hpinned : pinned ⊆ c.proxies) {q : Proxy} (hq : q ∈ pinned)
    (hflag : q.serial ∈ c.arena.constProxies) (hcleared : q.serial ∉ c'.arena.constProxies) :
    Released pinned q c c' := by
  have hid : c.Identified pinned := (Path.identified hstart identified_empty).pin hpinned
  obtain ⟨b, d, r, i, hbefore, hreissue, hafter, hset, hi, hkind, hserial, harena⟩ :=
    hpath.exists_reissue (hid.flag_lt _ hflag) hflag hcleared
  have hidb := Path.identified hbefore hid
  have hidd : d.Identified pinned := hidb.step (.reissue r hreissue)
  -- The proxy is told from all others by its serial, so it is the one that the object has.
  have hproxy : i.proxy = q :=
    hidb.serial_inj _ (Or.inr (Or.inr ⟨r, i, hi, rfl⟩)) _ (Or.inl hq) hserial
  obtain ⟨htarget, hanchor⟩ := hidb.anchored.of_get? hi
  have hr : q.anchor.target = r := by
    rw [← hproxy, hanchor hkind, htarget]
  obtain ⟨i₀, hi₀, hkind₀, hproxy₀⟩ := Path.get?_of_recorded hbefore hid hi
    (hserial ▸ hid.flag_lt _ hflag)
  refine ⟨⟨i₀, by rw [hr, hi₀], hkind₀.trans hkind, hproxy₀.trans hproxy⟩, b, d, hbefore,
    by rwa [hr], hafter, hset, ?_⟩
  have hid' : d.arena.get? r = some i := by
    rw [harena]
    exact hi
  intro p hp hsame
  have heq : p.anchor = i.anchor := by
    rcases hsame with hsame | ⟨hsame, hfew⟩
    · rw [hsame, ← hproxy, hanchor hkind]
    · have hsound : d.Sound := Path.sound
        (hstart.trans (Path.mono (Set.empty_subset _) (hbefore.tail (.reissue r hreissue))))
        (sound_empty ∅ rfl ∅) hfew
      exact hsound.eq_recorded _ (mem_anchors_of_mem hp) i (by rw [hsame, hr, hid'])
  rw [hidd.eq_recorded r i hid' hkind p hp heq, harena]
  simp [Arena.mem_constProxies_setConst_false]

end Custody

end ObjectBridge
