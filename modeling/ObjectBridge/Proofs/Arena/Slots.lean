import Mathlib.Data.List.Count
import Mathlib.Tactic
import ObjectBridge.Arena.Handles

/-!
# What the operations of the arena do to its slots

One lemma for each operation of the arena says everything that a successful call does.  Reasoning about
runs starts from these lemmas, and no definition of an operation has to be opened again.

* `Arena.Occupied` and `Arena.Vacant` — whether a slot holds an object.
* `Arena.tally` — the number of slots whose object satisfies a test.
* `register_cases`, `materialize_cases`, `destroy?_cases`, `setKeep_cases`, `issue_cases` and
  `Seat.install_cases` — the arena after an operation, and the conditions under which it succeeds.
-/

namespace ObjectBridge

/-- Changing one entry of a list changes the number of entries that satisfy a test by the old and the
new entry alone. -/
theorem countP_modify_add {α : Type _} (p : α → Bool) (f : α → α) (xs : List α) (k : Nat) (x : α)
    (hx : xs[k]? = some x) :
    (xs.modify k f).countP p + (if p x then 1 else 0) =
      xs.countP p + (if p (f x) then 1 else 0) := by
  induction xs generalizing k with
  | nil => simp at hx
  | cons y ys ih =>
      cases k with
      | zero =>
          simp only [List.getElem?_cons_zero, Option.some.injEq] at hx
          subst hx
          simp only [List.modify_zero_cons, List.countP_cons]
          omega
      | succ k =>
          have hrest := ih k (by simpa using hx)
          simp only [List.modify_succ_cons, List.countP_cons]
          omega

namespace Arena

/-- The slot exists and holds no object. -/
def Vacant (a : Arena) (slot : Nat) : Prop :=
  ∃ s, a.slots[slot]? = some s ∧ s.occupant = none

/-- The slot exists and holds an object. -/
def Occupied (a : Arena) (slot : Nat) : Prop :=
  ∃ s i, a.slots[slot]? = some s ∧ s.occupant = some i

/-- The slot with a number; a number without a slot reads as a slot that was never used. -/
def slotAt (a : Arena) (slot : Nat) : Slot :=
  a.slots[slot]?.getD {}

/-- The number of slots whose object satisfies a test. -/
def tally (a : Arena) (p : Instance → Bool) : Nat :=
  a.slots.toList.countP fun s => s.occupant.any p

/-! ## Reading -/

theorem get?_eq_some_iff {a : Arena} {r : Reference} {i : Instance} :
    a.get? r = some i ↔
      ∃ s, a.slots[r.slot]? = some s ∧ s.generation = r.generation ∧ s.occupant = some i := by
  unfold get?
  cases hslot : a.slots[r.slot]? with
  | none => simp
  | some s =>
      by_cases hgen : s.generation = r.generation
      · simp [hgen]
      · simp [hgen]

theorem slotAt_eq {a : Arena} {slot : Nat} {s : Slot} (hs : a.slots[slot]? = some s) :
    a.slotAt slot = s := by
  simp [slotAt, hs]

/-- A test that all slots pass, and that a slot passes which was never used. -/
theorem slotAt_of_all {a : Arena} {p : Slot → Bool} (hunused : p {} = true)
    (hall : a.slots.toList.all p = true) (slot : Nat) : p (a.slotAt slot) = true := by
  cases hs : a.slots[slot]? with
  | none => simpa [slotAt, hs] using hunused
  | some s =>
      rw [slotAt_eq hs]
      rw [← Array.getElem?_toList] at hs
      exact List.all_eq_true.mp hall s (List.mem_of_getElem? hs)

/-- Where no object was removed yet, no generation is used up. -/
theorem removals_lt_of_unused {a : Arena}
    (hnew : a.slots.toList.all (fun s => s.removals == 0) = true) (slot : Nat) :
    (a.slotAt slot).removals < 2 ^ 32 := by
  have hzero := slotAt_of_all (p := fun s => s.removals == 0) rfl hnew slot
  rw [eq_of_beq hzero]
  exact Nat.two_pow_pos 32

theorem get?_eq_some_iff_slotAt {a : Arena} {r : Reference} {i : Instance} :
    a.get? r = some i ↔
      (a.slotAt r.slot).generation = r.generation ∧ (a.slotAt r.slot).occupant = some i := by
  rw [get?_eq_some_iff, slotAt]
  cases a.slots[r.slot]? <;> simp

theorem occupied_iff_slotAt {a : Arena} {slot : Nat} :
    a.Occupied slot ↔ ∃ i, (a.slotAt slot).occupant = some i := by
  rw [Occupied, slotAt]
  cases a.slots[slot]? <;> simp

theorem isLive_iff {a : Arena} {r : Reference} : a.isLive r = true ↔ ∃ i, a.get? r = some i := by
  simp [isLive, Option.isSome_iff_exists]

/-- A reference reads as in another arena that has the same slot. -/
theorem get?_congr {a b : Arena} {r : Reference} (hslot : a.slots[r.slot]? = b.slots[r.slot]?) :
    a.get? r = b.get? r := by
  simp only [get?, hslot]

theorem resolve_eq_ok_iff {a : Arena} {h : Handle} {operation : String} {i : Instance} :
    a.resolve h operation = .ok i ↔ a.get? h.target = some i := by
  unfold resolve
  cases a.get? h.target <;> simp

/-! ## Writing an object -/

@[simp] theorem slots_setOccupant (a : Arena) (slot : Nat) (i : Instance) :
    (a.setOccupant slot i).slots = a.slots.modify slot fun s => { s with occupant := some i } := rfl

@[simp] theorem free_setOccupant (a : Arena) (slot : Nat) (i : Instance) :
    (a.setOccupant slot i).free = a.free := rfl

@[simp] theorem counts_setOccupant (a : Arena) (slot : Nat) (i : Instance) :
    (a.setOccupant slot i).counts = a.counts := rfl

@[simp] theorem live_setOccupant (a : Arena) (slot : Nat) (i : Instance) :
    (a.setOccupant slot i).live = a.live := rfl

@[simp] theorem nextAnchor_setOccupant (a : Arena) (slot : Nat) (i : Instance) :
    (a.setOccupant slot i).nextAnchor = a.nextAnchor := rfl

@[simp] theorem nextProxy_setOccupant (a : Arena) (slot : Nat) (i : Instance) :
    (a.setOccupant slot i).nextProxy = a.nextProxy := rfl

@[simp] theorem constProxies_setOccupant (a : Arena) (slot : Nat) (i : Instance) :
    (a.setOccupant slot i).constProxies = a.constProxies := rfl

/-- A slot that exists is the only one that changes when its object is replaced. -/
theorem slotAt_setOccupant {a : Arena} {r : Reference} {i : Instance} (hi : a.get? r = some i)
    (j : Instance) (slot : Nat) :
    (a.setOccupant r.slot j).slotAt slot =
      if r.slot = slot then { a.slotAt slot with occupant := some j } else a.slotAt slot := by
  obtain ⟨s, hs, -, -⟩ := get?_eq_some_iff.mp hi
  rw [slotAt, slots_setOccupant, Array.getElem?_modify]
  by_cases hslot : r.slot = slot
  · subst hslot
    simp [slotAt, hs]
  · simp [slotAt, hslot]

/-- A change of the object of a reference, or of nothing. -/
theorem modify_eq (a : Arena) (r : Reference) (f : Instance → Instance) :
    (∃ i, a.get? r = some i ∧ a.modify r f = a.setOccupant r.slot (f i)) ∨
      (a.get? r = none ∧ a.modify r f = a) := by
  unfold modify
  cases hget : a.get? r with
  | none => exact Or.inr ⟨rfl, rfl⟩
  | some i => exact Or.inl ⟨i, rfl, rfl⟩

/-! ## The operations, each by what it does -/

/-- The last slot that was freed is taken first, and a new slot only when none is free. -/
theorem takeSlot_cases {a base : Arena} {slot : Nat} (htake : a.takeSlot = .ok (slot, base)) :
    (∃ rest, a.free = slot :: rest ∧ base = { a with free := rest }) ∨
      (a.free = [] ∧ slot = a.slots.size ∧ slot < UInt32.size ∧
        base = { a with slots := a.slots.push {} }) := by
  unfold takeSlot at htake
  cases hfree : a.free with
  | cons head rest =>
      rw [hfree] at htake
      simp only [Except.ok.injEq, Prod.mk.injEq] at htake
      obtain ⟨rfl, rfl⟩ := htake
      exact Or.inl ⟨rest, rfl, rfl⟩
  | nil =>
      rw [hfree] at htake
      simp only at htake
      split at htake
      · rename_i hlt
        simp only [Except.ok.injEq, Prod.mk.injEq] at htake
        obtain ⟨rfl, rfl⟩ := htake
        exact Or.inr ⟨rfl, rfl, hlt, rfl⟩
      · simp at htake

/-- Taking a slot adds at most a slot that was never used. -/
theorem slotAt_takeSlot {a base : Arena} {slot : Nat} (htake : a.takeSlot = .ok (slot, base))
    (other : Nat) : base.slotAt other = a.slotAt other := by
  rcases takeSlot_cases htake with ⟨rest, -, rfl⟩ | ⟨-, -, -, rfl⟩
  · rfl
  · simp only [slotAt, Array.getElem?_push]
    split
    · rename_i hlast
      simp [hlast]
    · rfl

/-- The arena after an object was stored in a slot, given the arena from which the slot was taken. -/
def admitted (base : Arena) (new : NewInstance) (r : Reference) : Arena :=
  { base.setOccupant r.slot (new.stored (base.firstHandle new r).proxy) with
    counts := if new.native.isSome then base.countUp new.cls else base.counts
    live := base.live + 1
    nextAnchor := base.nextAnchor + 1
    nextProxy := base.nextProxy + 1 }

/-- A registration takes a slot and stores the object there under the generation of the slot. -/
theorem register_cases {a a' : Arena} {new : NewInstance} {h : Handle}
    (hreg : a.register new = .ok (h, a')) :
    ∃ slot base entry, a.takeSlot = .ok (slot, base) ∧ base.slots[slot]? = some entry ∧
      h = base.firstHandle new ⟨slot, entry.generation⟩ ∧
      a' = base.admitted new ⟨slot, entry.generation⟩ := by
  obtain ⟨⟨slot, base⟩, htake, hstored⟩ := bind_eq_ok_iff.mp hreg
  simp only at hstored
  cases hentry : base.slots[slot]? with
  | none => simp [hentry] at hstored
  | some entry =>
      simp only [hentry, pure, Except.pure, Except.ok.injEq, Prod.mk.injEq] at hstored
      obtain ⟨rfl, rfl⟩ := hstored
      exact ⟨slot, base, entry, htake, hentry, rfl, rfl⟩

/-- A registration changes the slot of the new object alone. -/
theorem slotAt_admitted {base : Arena} {slot : Nat} {entry : Slot}
    (hentry : base.slots[slot]? = some entry) (new : NewInstance) (other : Nat) :
    (base.admitted new ⟨slot, entry.generation⟩).slotAt other =
      if slot = other then
        { entry with
          occupant := some (new.stored (base.firstHandle new ⟨slot, entry.generation⟩).proxy) }
      else base.slotAt other := by
  show ((base.slots.modify slot _)[other]?).getD {} = _
  rw [Array.getElem?_modify]
  by_cases hslot : slot = other
  · subst hslot
    simp [hentry]
  · simp [hslot, slotAt]

/-- A deferred object gets its native state once and is counted then; later states are dropped. -/
theorem materialize_cases {a a' : Arena} {r : Reference} {state : NativeState}
    (hmat : a.materialize r state = .ok a') :
    ∃ i, a.get? r = some i ∧
      ((i.isMaterialized = true ∧ a' = a) ∨
        (i.isMaterialized = false ∧
          a' = { a.setOccupant r.slot { i with native := some state } with
            counts := a.countUp i.cls })) := by
  unfold materialize at hmat
  cases hget : a.get? r with
  | none => simp [hget] at hmat
  | some i =>
      simp only [hget] at hmat
      refine ⟨i, rfl, ?_⟩
      cases hmaterialized : i.isMaterialized with
      | true =>
          simp only [hmaterialized, if_true, Except.ok.injEq] at hmat
          exact Or.inl ⟨rfl, hmat.symm⟩
      | false =>
          simp only [hmaterialized, Bool.false_eq_true, if_false, Except.ok.injEq] at hmat
          exact Or.inr ⟨rfl, hmat.symm⟩

/-- A removal succeeds exactly for a live object, frees its slot and moves the generation on. -/
theorem destroy?_cases {a a' : Arena} {r : Reference} {i : Instance}
    (hdes : a.destroy? r = some (i, a')) :
    a.get? r = some i ∧
      a' = { a with
        slots := a.slots.modify r.slot fun s => ⟨s.generation + 1, none, s.removals + 1⟩
        free := r.slot :: a.free
        counts := if i.isMaterialized then a.countDown i.cls else a.counts
        live := a.live - 1 } := by
  unfold destroy? at hdes
  cases hget : a.get? r with
  | none => simp [hget] at hdes
  | some j =>
      simp only [hget, Option.some.injEq, Prod.mk.injEq] at hdes
      obtain ⟨rfl, rfl⟩ := hdes
      exact ⟨rfl, rfl⟩

/-- A removal empties the slot of the object and moves its generation on. -/
theorem slotAt_destroy? {a a' : Arena} {r : Reference} {i : Instance}
    (hdes : a.destroy? r = some (i, a')) (slot : Nat) :
    a'.slotAt slot =
      if r.slot = slot then
        ⟨(a.slotAt slot).generation + 1, none, (a.slotAt slot).removals + 1⟩
      else a.slotAt slot := by
  obtain ⟨hi, rfl⟩ := destroy?_cases hdes
  obtain ⟨s, hs, -, -⟩ := get?_eq_some_iff.mp hi
  rw [slotAt, Array.getElem?_modify]
  by_cases hslot : r.slot = slot
  · subst hslot
    simp [slotAt, hs]
  · simp [slotAt, hslot]

theorem destroy?_eq_none_iff {a : Arena} {r : Reference} :
    a.destroy? r = none ↔ a.get? r = none := by
  unfold destroy?
  cases a.get? r <;> simp

theorem destroy_eq_ok_iff {a a' : Arena} {h : Handle} {i : Instance} :
    a.destroy h = .ok (i, a') ↔ a.destroy? h.target = some (i, a') := by
  unfold destroy
  cases a.destroy? h.target <;> simp

/-- A change of ownership writes the object and nothing else. -/
theorem setKeep_cases {a a' : Arena} {h : Handle} {keep : Keep} {operation : String}
    (hkeep : a.setKeep h keep operation = .ok a') :
    ∃ i, a.get? h.target = some i ∧ a' = a.setOccupant h.target.slot { i with keep := keep } := by
  obtain ⟨i, hres, hset⟩ := bind_eq_ok_iff.mp hkeep
  exact ⟨i, resolve_eq_ok_iff.mp hres, (Except.ok.inj hset).symm⟩

/-- A handle with a new proxy is made on the anchor of the object if a handle uses it, and on a new
one otherwise. -/
theorem issueFresh_cases {a a' : Arena} {held : List Handle} {r : Reference} {i : Instance}
    {isConst : Bool} {h : Handle} (hfresh : a.issueFresh held r i isConst = (h, a')) :
    ∃ anchor next serials,
      ((anchorHeld held i.anchor = true ∧ anchor = i.anchor ∧ next = a.nextAnchor) ∨
        (anchorHeld held i.anchor = false ∧ anchor = ⟨a.nextAnchor, r⟩ ∧
          next = a.nextAnchor + 1)) ∧
      h = ⟨⟨a.nextProxy, anchor, i.cls, i.className⟩, false⟩ ∧
      a' = { a.setOccupant r.slot { i with
            anchor := anchor, proxy := if i.kind = .object then h.proxy else i.proxy } with
          nextAnchor := next, nextProxy := a.nextProxy + 1, constProxies := serials } := by
  unfold issueFresh at hfresh
  cases hheld : anchorHeld held i.anchor with
  | true =>
      simp only [hheld, if_true, Prod.mk.injEq] at hfresh
      obtain ⟨rfl, rfl⟩ := hfresh
      cases isConst with
      | true => exact ⟨i.anchor, a.nextAnchor, _, Or.inl ⟨rfl, rfl, rfl⟩, rfl, rfl⟩
      | false => exact ⟨i.anchor, a.nextAnchor, _, Or.inl ⟨rfl, rfl, rfl⟩, rfl, rfl⟩
  | false =>
      simp only [hheld, Bool.false_eq_true, if_false, Prod.mk.injEq] at hfresh
      obtain ⟨rfl, rfl⟩ := hfresh
      cases isConst with
      | true => exact ⟨⟨a.nextAnchor, r⟩, _, _, Or.inr ⟨rfl, rfl, rfl⟩, rfl, rfl⟩
      | false => exact ⟨⟨a.nextAnchor, r⟩, _, _, Or.inr ⟨rfl, rfl, rfl⟩, rfl, rfl⟩

/-- An object with identity whose proxy is in use gets a handle with it.  A const one is a view, unless
the proxy is const, and one that must not be const makes the proxy so. -/
theorem issue_of_held {a : Arena} {held : List Handle} {r : Reference} {i : Instance}
    (hi : a.get? r = some i) (hkind : i.kind = .object) (hheld : proxyHeld held i.proxy = true)
    (c : Constness) :
    a.issue held r c =
      some (⟨i.proxy, decide (c = .const) && !a.constProxies.contains i.proxy.serial⟩,
        if c = .nonConst then a.setConst i.proxy false else a) := by
  simp only [issue, hi, hkind, hheld, and_self, if_true]
  cases c with
  | const =>
      by_cases hconst : i.proxy.serial ∈ a.constProxies
      · simp [isConst, hconst]
      · simp [isConst, hconst, Handle.asConst]
  | nonConst => rfl
  | keep => rfl

/-- Any other object gets a handle with a new proxy. -/
theorem issue_of_not_held {a : Arena} {held : List Handle} {r : Reference} {i : Instance}
    (hi : a.get? r = some i) (hnew : ¬(i.kind = .object ∧ proxyHeld held i.proxy = true))
    (c : Constness) : a.issue held r c = some (a.issueFresh held r i (c = .const)) := by
  simp only [issue, hi, if_neg hnew]

/-- A handle that is issued either has the proxy of an object with identity, which a handle uses
already, or a new proxy.  Of the arena, the anchor and the proxy of the object, the serials and the
const flags change at most. -/
theorem issue_cases {a a' : Arena} {held : List Handle} {r : Reference} {c : Constness} {h : Handle}
    (hissue : a.issue held r c = some (h, a')) :
    ∃ i, a.get? r = some i ∧
      ((i.kind = .object ∧ proxyHeld held i.proxy = true ∧ h.proxy = i.proxy ∧
          ∃ serials, a' = { a with constProxies := serials }) ∨
        (¬(i.kind = .object ∧ proxyHeld held i.proxy = true) ∧
          a.issueFresh held r i (c = .const) = (h, a'))) := by
  cases hget : a.get? r with
  | none => simp [issue, hget] at hissue
  | some i =>
      refine ⟨i, rfl, ?_⟩
      by_cases hold : i.kind = .object ∧ proxyHeld held i.proxy = true
      · rw [issue_of_held hget hold.1 hold.2, Option.some.injEq, Prod.mk.injEq] at hissue
        obtain ⟨rfl, rfl⟩ := hissue
        refine Or.inl ⟨hold.1, hold.2, rfl, ?_⟩
        by_cases hc : c = .nonConst
        · rw [if_pos hc]
          exact ⟨_, rfl⟩
        · rw [if_neg hc]
          exact ⟨a.constProxies, rfl⟩
      · rw [issue_of_not_held hget hold, Option.some.injEq] at hissue
        exact Or.inr ⟨hold, hissue⟩

end Arena

namespace Seat

/-- An eviction removes the object that was seated, or changes nothing if it is gone already. -/
theorem evict_cases {s : Seat} {a a' : Arena} {evicted : Option Instance}
    (hev : s.evict a = (evicted, a')) :
    (evicted = none ∧ a' = a) ∨
      ∃ r i, s.occupant = some r ∧ a.destroy? r = some (i, a') ∧ evicted = some i := by
  unfold evict at hev
  cases hseat : s.occupant with
  | none =>
      simp only [hseat, Option.bind_none, Prod.mk.injEq] at hev
      exact Or.inl ⟨hev.1.symm, hev.2.symm⟩
  | some r =>
      simp only [hseat, Option.bind_some] at hev
      cases hdes : a.destroy? r with
      | none =>
          simp only [hdes, Prod.mk.injEq] at hev
          exact Or.inl ⟨hev.1.symm, hev.2.symm⟩
      | some removed =>
          obtain ⟨i, b⟩ := removed
          simp only [hdes, Prod.mk.injEq] at hev
          obtain ⟨rfl, rfl⟩ := hev
          exact Or.inr ⟨r, i, rfl, hdes, rfl⟩

/-- Seating freezes the new object, if it is another one, and then evicts the old one. -/
theorem install_cases {s s' : Seat} {a a' : Arena} {next : Option Handle}
    {evicted : Option Instance} (hins : s.install a next = .ok (evicted, s', a')) :
    ∃ b, (b = a ∨ ∃ h, next = some h ∧ a.setKeep h .unmanaged "install" = .ok b) ∧
      ((evicted = none ∧ a' = b) ∨
        ∃ r i, s.occupant = some r ∧ b.destroy? r = some (i, a') ∧ evicted = some i) := by
  unfold install at hins
  cases next with
  | none =>
      simp only [Except.ok.injEq, Prod.mk.injEq] at hins
      exact ⟨a, Or.inl rfl, evict_cases (Prod.ext hins.1 hins.2.2)⟩
  | some h =>
      simp only at hins
      split at hins
      · simp only [Except.ok.injEq, Prod.mk.injEq] at hins
        exact ⟨a, Or.inl rfl, Or.inl ⟨hins.1.symm, hins.2.2.symm⟩⟩
      · obtain ⟨b, hkeep, hevict⟩ := bind_eq_ok_iff.mp hins
        simp only [pure, Except.pure, Except.ok.injEq, Prod.mk.injEq] at hevict
        exact ⟨b, Or.inr ⟨h, rfl, hkeep⟩, evict_cases (Prod.ext hevict.1 hevict.2.2)⟩

end Seat

end ObjectBridge
