import Mathlib.Data.Nat.ModEq
import ObjectBridge.Proofs.Arena.Registry

/-!
# Generations tell occupants apart

A slot is used by one object after the other.  Its generation is the number of objects that were removed
from it so far, as far as 32 bits can tell, and a reference carries the generation of the object that it
was taken for.  So a reference is accepted exactly as long as the number of removals is the one at which
it was taken, modulo `2 ^ 32`.

* `Arena.Numbered` and `Arena.Anchored` — generations count removals, and the anchor of an object names
  its slot under the generation of the slot.
* `Arena.AcceptsIff` — what it means that a reference is accepted.
* `run_detects_stale_references` — when a reference is accepted at a later time of a run.
-/

namespace ObjectBridge

namespace Arena

/-- The generation of every slot is the number of its removals, as a word. -/
def Numbered (a : Arena) : Prop :=
  ∀ slot : Nat, (a.slotAt slot).generation = UInt32.ofNat (a.slotAt slot).removals

/-- Every object is anchored where it is, and an object with identity has its proxy on its anchor. -/
def Anchored (a : Arena) : Prop :=
  ∀ (slot : Nat) (i : Instance), (a.slotAt slot).occupant = some i →
    i.anchor.target = ⟨slot, (a.slotAt slot).generation⟩ ∧
      (i.kind = .object → i.proxy.anchor = i.anchor)

/-! ## Slots, step by step -/

/-- What a step leaves of a slot: the slot is as it was, or it got an object, or its object changed, or
its object was removed. -/
inductive SlotStep : Slot → Slot → Prop
  | same (s : Slot) : SlotStep s s
  | filled (s : Slot) (i : Instance) (hempty : s.occupant = none) :
      SlotStep s { s with occupant := some i }
  | changed (s : Slot) (i j : Instance) (hocc : s.occupant = some i) :
      SlotStep s { s with occupant := some j }
  | emptied (s : Slot) (i : Instance) (hocc : s.occupant = some i) :
      SlotStep s ⟨s.generation + 1, none, s.removals + 1⟩

/-- Changing the object of a reference changes its slot alone. -/
theorem slotStep_setOccupant {a : Arena} {r : Reference} {i : Instance} (hi : a.get? r = some i)
    (j : Instance) (slot : Nat) :
    SlotStep (a.slotAt slot) ((a.setOccupant r.slot j).slotAt slot) := by
  rw [slotAt_setOccupant hi]
  by_cases hslot : r.slot = slot
  · subst hslot
    rw [if_pos rfl]
    exact .changed _ i j (get?_eq_some_iff_slotAt.mp hi).2
  · rw [if_neg hslot]
    exact .same _

/-- A slot of the same outline has the same object, as far as the arena looks at objects. -/
theorem slotStep_of_outline_eq {s s' : Slot} (hsame : s'.outline = s.outline) : SlotStep s s' := by
  obtain ⟨generation, occupant, removals⟩ := s
  obtain ⟨generation', occupant', removals'⟩ := s'
  simp only [Slot.outline, Slot.mk.injEq] at hsame
  obtain ⟨hgeneration, hocc, hremovals⟩ := hsame
  subst hgeneration hremovals
  cases occupant with
  | none =>
      obtain rfl : occupant' = none := by simpa using hocc
      exact .same _
  | some i =>
      obtain ⟨j, rfl, -⟩ := Option.map_eq_some_iff.mp hocc
      exact .changed _ i j rfl

/-- Every step changes every slot in one of the four ways, or not at all. -/
theorem Step.slotStep {a a' : Arena} (hbal : a.Balanced) (hstep : Step a a') (slot : Nat) :
    SlotStep (a.slotAt slot) (a'.slotAt slot) := by
  cases hstep with
  | register new h hreg =>
      obtain ⟨taken, base, entry, htake, hentry, -, rfl⟩ := register_cases hreg
      obtain ⟨⟨t, ht, hempty⟩, -⟩ := hbal.takeSlot htake
      obtain rfl : entry = t := Option.some.inj (hentry.symm.trans ht)
      rw [slotAt_admitted hentry, ← slotAt_takeSlot htake slot]
      by_cases hslot : taken = slot
      · subst hslot
        rw [if_pos rfl, slotAt_eq hentry]
        exact .filled entry _ hempty
      · rw [if_neg hslot]
        exact .same _
  | materialize r state hmat =>
      obtain ⟨i, hi, ⟨-, rfl⟩ | ⟨-, rfl⟩⟩ := materialize_cases hmat
      · exact .same _
      · exact slotStep_setOccupant hi _ slot
  | destroy r i hdes =>
      rw [slotAt_destroy? hdes]
      by_cases hslot : r.slot = slot
      · subst hslot
        rw [if_pos rfl]
        exact .emptied _ i (get?_eq_some_iff_slotAt.mp (destroy?_cases hdes).1).2
      · rw [if_neg hslot]
        exact .same _
  | keep h keep operation hkeep =>
      obtain ⟨i, hi, rfl⟩ := setKeep_cases hkeep
      exact slotStep_setOccupant hi _ slot
  | issue held r c h hissue =>
      obtain ⟨i, hi, ⟨-, -, -, serials, rfl⟩ | ⟨-, hfresh⟩⟩ := issue_cases hissue
      · exact .same _
      · obtain ⟨anchor, next, serials, -, -, rfl⟩ := issueFresh_cases hfresh
        exact slotStep_setOccupant hi _ slot
  | flag p isConst => exact .same _
  | contents hsame =>
      -- The outlines agree, so the slots agree but for what the occupant holds.
      have hslot := congrArg (fun b : Arena => b.slotAt slot) hsame
      simp only [slotAt_outline] at hslot
      exact slotStep_of_outline_eq hslot

/-- Every step keeps the generations numbered. -/
theorem Numbered.step {a a' : Arena} (hbal : a.Balanced) (hstep : Step a a') (hnum : a.Numbered) :
    a'.Numbered := by
  intro slot
  have hold := hnum slot
  generalize hs : a.slotAt slot = s at hold
  generalize hs' : a'.slotAt slot = s'
  have hslot : SlotStep s s' := hs ▸ hs' ▸ hstep.slotStep hbal slot
  cases hslot with
  | same => exact hold
  | filled i hempty => exact hold
  | changed i j hocc => exact hold
  | emptied i hocc =>
      show s.generation + 1 = UInt32.ofNat (s.removals + 1)
      rw [hold, UInt32.ofNat_add]
      rfl

/-- Removals are never undone. -/
theorem Step.removals_le {a a' : Arena} (hbal : a.Balanced) (hstep : Step a a') (slot : Nat) :
    (a.slotAt slot).removals ≤ (a'.slotAt slot).removals := by
  have hslot := hstep.slotStep hbal slot
  generalize a.slotAt slot = s at hslot ⊢
  generalize a'.slotAt slot = s' at hslot ⊢
  cases hslot with
  | same => exact Nat.le_refl _
  | filled i hempty => exact Nat.le_refl _
  | changed i j hocc => exact Nat.le_refl _
  | emptied i hocc => exact Nat.le_succ _

/-- An occupied slot stays occupied until its object is removed. -/
theorem Step.occupied_or_removed {a a' : Arena} (hbal : a.Balanced) (hstep : Step a a') {slot : Nat}
    (hocc : a.Occupied slot) :
    a'.Occupied slot ∨ (a.slotAt slot).removals < (a'.slotAt slot).removals := by
  rw [occupied_iff_slotAt] at hocc ⊢
  have hslot := hstep.slotStep hbal slot
  generalize a.slotAt slot = s at hslot hocc ⊢
  generalize a'.slotAt slot = s' at hslot ⊢
  cases hslot with
  | same => exact Or.inl hocc
  | filled i hempty => exact Or.inl ⟨i, rfl⟩
  | changed i j _ => exact Or.inl ⟨j, rfl⟩
  | emptied i _ => exact Or.inr (Nat.lt_succ_self _)

theorem numbered_empty : Numbered {} := by
  intro slot
  simp [slotAt]

/-! ## Anchors -/

theorem anchored_empty : Anchored {} := by
  intro slot i hocc
  simp [slotAt] at hocc

/-- Objects stay anchored when one of them is replaced by an object that is anchored there. -/
theorem Anchored.setOccupant {a : Arena} (hanch : a.Anchored) {r : Reference} {i j : Instance}
    (hi : a.get? r = some i) (htarget : j.anchor.target = r)
    (hproxy : j.kind = .object → j.proxy.anchor = j.anchor) :
    (a.setOccupant r.slot j).Anchored := by
  intro slot k hocc
  rw [slotAt_setOccupant hi] at hocc ⊢
  by_cases hslot : r.slot = slot
  · subst hslot
    simp only [if_true, Option.some.injEq] at hocc ⊢
    subst hocc
    rw [htarget, (get?_eq_some_iff_slotAt.mp hi).1]
    exact ⟨rfl, hproxy⟩
  · rw [if_neg hslot] at hocc ⊢
    exact hanch slot k hocc

/-- An object is anchored at every reference that reaches it. -/
theorem Anchored.of_get? {a : Arena} (hanch : a.Anchored) {r : Reference} {i : Instance}
    (hi : a.get? r = some i) :
    i.anchor.target = r ∧ (i.kind = .object → i.proxy.anchor = i.anchor) := by
  obtain ⟨hgen, hocc⟩ := get?_eq_some_iff_slotAt.mp hi
  obtain ⟨htarget, hproxy⟩ := hanch r.slot i hocc
  rw [hgen] at htarget
  exact ⟨htarget, hproxy⟩

/-- A handle that is issued has the reference it was asked for as its target. -/
theorem Anchored.target_of_issue {a a' : Arena} (hanch : a.Anchored) {held : List Handle}
    {r : Reference} {c : Constness} {h : Handle} (hissue : a.issue held r c = some (h, a')) :
    h.target = r := by
  obtain ⟨i, hi, ⟨hkind, -, hproxy, -⟩ | ⟨-, hfresh⟩⟩ := issue_cases hissue
  · rw [Handle.target, hproxy, (hanch.of_get? hi).2 hkind]
    exact (hanch.of_get? hi).1
  · obtain ⟨anchor, next, serials, ⟨-, rfl, -⟩ | ⟨-, rfl, -⟩, rfl, -⟩ := issueFresh_cases hfresh
    · exact (hanch.of_get? hi).1
    · rfl

/-- The outline tells where objects are anchored. -/
theorem Anchored.of_outline_eq {a a' : Arena} (hanch : a.Anchored) (hsame : a'.outline = a.outline) :
    a'.Anchored := by
  intro slot j hocc
  have hslot := congrArg (fun b : Arena => b.slotAt slot) hsame
  simp only [slotAt_outline, Slot.outline, Slot.mk.injEq] at hslot
  obtain ⟨hgen, hold, -⟩ := hslot
  rw [hocc, Option.map_some] at hold
  obtain ⟨i, hi, heq⟩ := Option.map_eq_some_iff.mp hold.symm
  have hi' := hanch slot i hi
  rw [← Instance.anchor_eq_of_outline_eq heq, ← Instance.proxy_eq_of_outline_eq heq,
    ← Instance.kind_eq_of_outline_eq heq, hgen]
  exact hi'

/-- Every step leaves objects anchored. -/
theorem Anchored.step {a a' : Arena} (hstep : Step a a') (hanch : a.Anchored) : a'.Anchored := by
  cases hstep with
  | register new h hreg =>
      obtain ⟨taken, base, entry, htake, hentry, -, rfl⟩ := register_cases hreg
      intro slot i hocc
      rw [slotAt_admitted hentry] at hocc ⊢
      by_cases hslot : taken = slot
      · subst hslot
        simp only [if_true, Option.some.injEq] at hocc ⊢
        subst hocc
        exact ⟨rfl, fun _ => rfl⟩
      · rw [if_neg hslot, slotAt_takeSlot htake] at hocc ⊢
        exact hanch slot i hocc
  | materialize r state hmat =>
      obtain ⟨i, hi, ⟨-, rfl⟩ | ⟨-, rfl⟩⟩ := materialize_cases hmat
      · exact hanch
      · exact hanch.setOccupant hi (hanch.of_get? hi).1 (hanch.of_get? hi).2
  | destroy r i hdes =>
      intro slot k hocc
      rw [slotAt_destroy? hdes] at hocc ⊢
      by_cases hslot : r.slot = slot
      · simp [hslot] at hocc
      · rw [if_neg hslot] at hocc ⊢
        exact hanch slot k hocc
  | keep h keep operation hkeep =>
      obtain ⟨i, hi, rfl⟩ := setKeep_cases hkeep
      exact hanch.setOccupant hi (hanch.of_get? hi).1 (hanch.of_get? hi).2
  | issue held r c h hissue =>
      obtain ⟨i, hi, ⟨-, -, -, serials, rfl⟩ | ⟨-, hfresh⟩⟩ := issue_cases hissue
      · exact hanch
      · -- An object with identity gets the new proxy, whose anchor becomes the recorded one.
        have htarget := hanch.target_of_issue hissue
        obtain ⟨anchor, next, serials, -, rfl, rfl⟩ := issueFresh_cases hfresh
        refine hanch.setOccupant hi htarget ?_
        intro hkind
        simp only at hkind
        simp [hkind]
  | flag p isConst => exact hanch
  | contents hsame => exact hanch.of_outline_eq hsame

/-! ## The slot of a reference, operation by operation -/

theorem removals_setOccupant {a : Arena} {r : Reference} {i : Instance} (hi : a.get? r = some i)
    (j : Instance) (slot : Nat) :
    ((a.setOccupant r.slot j).slotAt slot).removals = (a.slotAt slot).removals := by
  rw [slotAt_setOccupant hi]
  split <;> rfl

theorem removals_register {a a' : Arena} {new : NewInstance} {h : Handle}
    (hreg : a.register new = .ok (h, a')) (slot : Nat) :
    (a'.slotAt slot).removals = (a.slotAt slot).removals := by
  obtain ⟨taken, base, entry, htake, hentry, -, rfl⟩ := register_cases hreg
  rw [slotAt_admitted hentry, ← slotAt_takeSlot htake slot]
  split
  · rename_i hslot
    rw [← hslot, slotAt_eq hentry]
  · rfl

theorem removals_materialize {a a' : Arena} {r : Reference} {state : NativeState}
    (hmat : a.materialize r state = .ok a') (slot : Nat) :
    (a'.slotAt slot).removals = (a.slotAt slot).removals := by
  obtain ⟨i, hi, ⟨-, rfl⟩ | ⟨-, rfl⟩⟩ := materialize_cases hmat
  · rfl
  · exact removals_setOccupant hi _ slot

theorem removals_setKeep {a a' : Arena} {h : Handle} {keep : Keep} {operation : String}
    (hkeep : a.setKeep h keep operation = .ok a') (slot : Nat) :
    (a'.slotAt slot).removals = (a.slotAt slot).removals := by
  obtain ⟨i, hi, rfl⟩ := setKeep_cases hkeep
  exact removals_setOccupant hi _ slot

theorem removals_issue {a a' : Arena} {held : List Handle} {r : Reference} {c : Constness}
    {h : Handle} (hissue : a.issue held r c = some (h, a')) (slot : Nat) :
    (a'.slotAt slot).removals = (a.slotAt slot).removals := by
  obtain ⟨i, hi, ⟨-, -, -, serials, rfl⟩ | ⟨-, hfresh⟩⟩ := issue_cases hissue
  · rfl
  · obtain ⟨anchor, next, serials, -, -, rfl⟩ := issueFresh_cases hfresh
    exact removals_setOccupant hi _ slot

theorem removals_modify (a : Arena) (r : Reference) (f : Instance → Instance) (slot : Nat) :
    ((a.modify r f).slotAt slot).removals = (a.slotAt slot).removals := by
  rcases modify_eq a r f with ⟨i, hi, heq⟩ | ⟨-, heq⟩
  · rw [heq]
    exact removals_setOccupant hi _ slot
  · rw [heq]

theorem removals_destroy? {a a' : Arena} {r : Reference} {i : Instance}
    (hdes : a.destroy? r = some (i, a')) (slot : Nat) :
    (a'.slotAt slot).removals =
      Function.update (fun slot => (a.slotAt slot).removals) r.slot
        ((a.slotAt r.slot).removals + 1) slot := by
  rw [slotAt_destroy? hdes]
  by_cases hslot : r.slot = slot
  · subst hslot
    simp
  · simp [hslot, Function.update_of_ne (Ne.symm hslot)]

/-- The object that a registration stores is reached by the handle that it answers with. -/
theorem get?_of_register {a a' : Arena} {new : NewInstance} {h : Handle}
    (hreg : a.register new = .ok (h, a')) : a'.get? h.target = some (new.stored h.proxy) := by
  obtain ⟨taken, base, entry, htake, hentry, rfl, rfl⟩ := register_cases hreg
  rw [get?_eq_some_iff_slotAt, slotAt_admitted hentry]
  simp [firstHandle, Handle.target]

/-! ## Acceptance -/

/-- A reference, and every handle with it as the target, is accepted by all operations under one
condition. -/
structure AcceptsIff (a : Arena) (r : Reference) (condition : Prop) : Prop where
  isLive : a.isLive r = true ↔ condition
  get? : (∃ i, a.get? r = some i) ↔ condition
  resolve : ∀ h operation, h.target = r → ((∃ i, a.resolve h operation = .ok i) ↔ condition)
  setKeep : ∀ h keep operation, h.target = r →
    ((∃ a', a.setKeep h keep operation = .ok a') ↔ condition)
  issue : ∀ held c, (∃ issued, a.issue held r c = some issued) ↔ condition
  materialize : ∀ state, (∃ a', a.materialize r state = .ok a') ↔ condition
  destroy : ∀ h, h.target = r → ((∃ removed, a.destroy h = .ok removed) ↔ condition)
  destroy? : (∃ removed, a.destroy? r = some removed) ↔ condition

/-- All operations accept the references of objects that are there. -/
theorem acceptsIff_isLive (a : Arena) (r : Reference) : a.AcceptsIff r (a.isLive r = true) := by
  rw [isLive]
  -- Every operation looks the reference up before anything else.
  cases hget : a.get? r with
  | none =>
      constructor
      case isLive => simp [isLive, hget]
      case get? => simp [hget]
      case resolve =>
        rintro h operation rfl
        simp [resolve, hget]
      case setKeep =>
        rintro h keep operation rfl
        simp [setKeep, resolve, hget, bind, Except.bind]
      case issue => simp [issue, hget]
      case materialize => simp [materialize, hget]
      case destroy =>
        rintro h rfl
        simp [destroy, destroy?, hget]
      case destroy? => simp [destroy?, hget]
  | some i =>
      constructor
      case isLive => simp [isLive, hget]
      case get? => simp [hget]
      case resolve =>
        rintro h operation rfl
        simp [resolve, hget]
      case setKeep =>
        rintro h keep operation rfl
        simp [setKeep, resolve, hget, bind, Except.bind, pure, Except.pure]
      case issue =>
        intro held c
        simp only [issue, hget, Option.isSome_some, iff_true]
        split
        · cases c <;> exact ⟨_, rfl⟩
        · exact ⟨_, rfl⟩
      case materialize =>
        intro state
        simp only [materialize, hget, Option.isSome_some, iff_true]
        split <;> exact ⟨_, rfl⟩
      case destroy =>
        rintro h rfl
        simp [destroy, destroy?, hget]
      case destroy? => simp [destroy?, hget]

theorem AcceptsIff.congr {a : Arena} {r : Reference} {p q : Prop} (haccepts : a.AcceptsIff r p)
    (hpq : p ↔ q) : a.AcceptsIff r q := by
  rwa [← propext hpq]

end Arena

/-- Words are equal when the numbers are congruent. -/
theorem ofNat_eq_ofNat_iff {m n : Nat} :
    UInt32.ofNat m = UInt32.ofNat n ↔ m ≡ n [MOD 2 ^ 32] := by
  rw [← UInt32.toNat_inj, UInt32.toNat_ofNat', UInt32.toNat_ofNat', Nat.ModEq]

namespace Registry

/-! ## Removals in a run -/

theorem removals_withSeat (g : Registry) (seat : Nat) (evicted : Option Instance) (next : Seat)
    (a : Arena) :
    (g.withSeat seat (evicted, next, a)).removals =
      match evicted, (g.seats seat).occupant with
      | some _, some r => Function.update g.removals r.slot (g.removals r.slot + 1)
      | _, _ => g.removals := by
  cases evicted with
  | none => rfl
  | some i => cases hseat : (g.seats seat).occupant <;> simp [withSeat, hseat, withRemoval, withArena]

/-- The history of a registry is the one that its slots keep. -/
def Remembers (g : Registry) : Prop :=
  ∀ slot, g.removals slot = (g.arena.slotAt slot).removals

/-- The history stays right when the slots keep theirs. -/
theorem Remembers.withArena {g : Registry} (hg : g.Remembers) {a : Arena}
    (hsame : ∀ slot, (a.slotAt slot).removals = (g.arena.slotAt slot).removals) :
    (g.withArena a).Remembers :=
  fun slot => (hg slot).trans (hsame slot).symm

/-- The history stays right when a removal is noted. -/
theorem Remembers.withRemoval {g : Registry} (hg : g.Remembers) {r : Reference} {i : Instance}
    {a : Arena} (hdes : g.arena.destroy? r = some (i, a)) :
    (g.withRemoval r.slot a).Remembers := by
  intro slot
  have hfun : g.removals = fun slot => (g.arena.slotAt slot).removals := funext hg
  show Function.update g.removals r.slot (g.removals r.slot + 1) slot = (a.slotAt slot).removals
  rw [Arena.removals_destroy? hdes, hfun]

/-- The history stays right when a seat is filled: the object that is evicted is removed from the slot
that the seat had been for. -/
theorem Remembers.install {g : Registry} (hg : g.Remembers) {seat : Nat} {next : Option Handle}
    {evicted : Option Instance} {seated : Seat} {a : Arena}
    (hins : (g.seats seat).install g.arena next = .ok (evicted, seated, a)) :
    (g.withSeat seat (evicted, seated, a)).Remembers := by
  obtain ⟨b, hfrozen, hevicted⟩ := Seat.install_cases hins
  have hb : (g.withArena b).Remembers := by
    rcases hfrozen with rfl | ⟨h, -, hkeep⟩
    · exact hg
    · exact hg.withArena (Arena.removals_setKeep hkeep)
  intro slot
  show (g.withSeat seat (evicted, seated, a)).removals slot =
    ((g.withSeat seat (evicted, seated, a)).arena.slotAt slot).removals
  rw [arena_withSeat, removals_withSeat]
  rcases hevicted with ⟨rfl, rfl⟩ | ⟨r, i, hseat, hdes, rfl⟩
  · exact hb slot
  · rw [hseat]
    exact hb.withRemoval hdes slot

/-- Every operation keeps the history right. -/
theorem Remembers.step {g : Registry} (hg : g.Remembers) (op : Operation) :
    (g.step op).Remembers := by
  -- A refused operation leaves the arena as it was, and only an object that goes adds a removal.
  cases op with
  | register new =>
      simp only [Registry.step]
      cases hreg : g.arena.register new with
      | error e => exact hg
      | ok outcome => exact hg.withArena (Arena.removals_register hreg)
  | materialize r state =>
      simp only [Registry.step]
      cases hmat : g.arena.materialize r state with
      | error e => exact hg
      | ok a => exact hg.withArena (Arena.removals_materialize hmat)
  | destroy h =>
      simp only [Registry.step]
      cases hdes : g.arena.destroy h with
      | error e => exact hg
      | ok outcome => exact hg.withRemoval (Arena.destroy_eq_ok_iff.mp hdes)
  | destroyReference r =>
      simp only [Registry.step]
      cases hdes : g.arena.destroy? r with
      | none => exact hg
      | some outcome => exact hg.withRemoval hdes
  | setKeep h keep operation =>
      simp only [Registry.step]
      cases hkeep : g.arena.setKeep h keep operation with
      | error e => exact hg
      | ok a => exact hg.withArena (Arena.removals_setKeep hkeep)
  | issue held r c =>
      simp only [Registry.step]
      cases hissue : g.arena.issue held r c with
      | none => exact hg
      | some outcome => exact hg.withArena (Arena.removals_issue hissue)
  | changeHandlers r event f => exact hg.withArena (Arena.removals_modify _ r _)
  | changeNative r f => exact hg.withArena (Arena.removals_modify _ r _)
  | install seat next =>
      simp only [Registry.step]
      cases hins : (g.seats seat).install g.arena next with
      | error e => exact hg
      | ok outcome => exact hg.install hins

theorem remembers_run (ops : List Operation) : (run ops).Remembers :=
  run_induction (fun slot => by simp [Arena.slotAt]) (fun _ op hg => hg.step op) ops

theorem numbered_arena_run (ops : List Operation) : (run ops).arena.Numbered := by
  have hstep (a a' : Arena) (h : Arena.Step a a') (ha : a.Balanced ∧ a.Numbered) :
      a'.Balanced ∧ a'.Numbered :=
    ⟨ha.1.step h, ha.2.step ha.1 h⟩
  exact ((foldl_path {} ops).preserves hstep ⟨Arena.balanced_empty, Arena.numbered_empty⟩).2

/-- Along a run nothing is taken back from the history, and a slot whose history does not grow stays
in use. -/
theorem removals_le_and_occupied (before after : List Operation) (slot : Nat) :
    (run before).removals slot ≤ (run (before ++ after)).removals slot ∧
      ((run before).arena.Occupied slot →
        (run (before ++ after)).arena.Occupied slot ∨
          (run before).removals slot < (run (before ++ after)).removals slot) := by
  rw [remembers_run before, remembers_run (before ++ after), run_append]
  -- One step after the other from the middle of the run, with the number of removals there as `old`.
  generalize hb : ((run before).arena.slotAt slot).removals = old
  have hstep (a a' : Arena) (h : Arena.Step a a')
      (ha : a.Balanced ∧ old ≤ (a.slotAt slot).removals ∧
        ((run before).arena.Occupied slot → a.Occupied slot ∨ old < (a.slotAt slot).removals)) :
      a'.Balanced ∧ old ≤ (a'.slotAt slot).removals ∧
        ((run before).arena.Occupied slot →
          a'.Occupied slot ∨ old < (a'.slotAt slot).removals) := by
    obtain ⟨hbal, hle, hocc⟩ := ha
    have hgrows := h.removals_le hbal slot
    refine ⟨hbal.step h, hle.trans hgrows, ?_⟩
    intro hfirst
    rcases hocc hfirst with hmid | hmore
    · rcases h.occupied_or_removed hbal hmid with hlast | hmore
      · exact Or.inl hlast
      · exact Or.inr (Nat.lt_of_le_of_lt hle hmore)
    · exact Or.inr (Nat.lt_of_lt_of_le hmore hgrows)
  have hstart : (run before).arena.Balanced ∧ old ≤ ((run before).arena.slotAt slot).removals ∧
      ((run before).arena.Occupied slot →
        (run before).arena.Occupied slot ∨ old < ((run before).arena.slotAt slot).removals) :=
    ⟨balanced_arena_run before, hb.ge, Or.inl⟩
  exact ((foldl_path (run before) after).preserves hstep hstart).2

/-- The generation of a slot is the number of removals from it, as a word. -/
theorem generation_slotAt (ops : List Operation) (slot : Nat) :
    ((run ops).arena.slotAt slot).generation = UInt32.ofNat ((run ops).removals slot) := by
  rw [numbered_arena_run ops slot, remembers_run ops slot]

/-- A reference to an object has the generation of its slot. -/
theorem generation_of_isLive {ops : List Operation} {r : Reference}
    (hlive : (run ops).arena.isLive r = true) :
    r.generation = UInt32.ofNat ((run ops).removals r.slot) := by
  obtain ⟨i, hi⟩ := Arena.isLive_iff.mp hlive
  rw [← (Arena.get?_eq_some_iff_slotAt.mp hi).1, generation_slotAt]

/-- The reference of a new object has the generation of its slot. -/
theorem generation_of_register {ops : List Operation} {new : NewInstance} {h : Handle} {a : Arena}
    (hreg : (run ops).arena.register new = .ok (h, a)) :
    h.target.generation = UInt32.ofNat ((run ops).removals h.target.slot) := by
  obtain ⟨taken, base, entry, htake, hentry, rfl, -⟩ := Arena.register_cases hreg
  rw [← generation_slotAt]
  show entry.generation = ((run ops).arena.slotAt taken).generation
  rw [← Arena.slotAt_takeSlot htake, Arena.slotAt_eq hentry]

/-- A reference to an object is accepted later exactly if its slot is in use then and the number of
removals is congruent to the one at that time. -/
theorem acceptsIff_later (before after : List Operation) {r : Reference}
    (hlive : (run before).arena.isLive r = true) :
    (run (before ++ after)).arena.AcceptsIff r
      ((run (before ++ after)).arena.Occupied r.slot ∧
        (run before).removals r.slot ≡ (run (before ++ after)).removals r.slot [MOD 2 ^ 32]) := by
  refine (Arena.acceptsIff_isLive _ r).congr ?_
  rw [Arena.isLive_iff, Arena.occupied_iff_slotAt, ← ofNat_eq_ofNat_iff,
    ← generation_of_isLive hlive, ← generation_slotAt]
  constructor
  · rintro ⟨j, hj⟩
    obtain ⟨hsame, hocc⟩ := Arena.get?_eq_some_iff_slotAt.mp hj
    exact ⟨⟨j, hocc⟩, hsame.symm⟩
  · rintro ⟨⟨j, hocc⟩, hsame⟩
    exact ⟨j, Arena.get?_eq_some_iff_slotAt.mpr ⟨hsame.symm, hocc⟩⟩

/-- A reference is not accepted after its object was removed, as long as the generations of the slot
are not used up. -/
theorem acceptsIff_false_of_removed (before after : List Operation) {r : Reference}
    (hlive : (run before).arena.isLive r = true)
    (hremoved : (run before).removals r.slot < (run (before ++ after)).removals r.slot)
    (hfew : (run (before ++ after)).removals r.slot < 2 ^ 32) :
    (run (before ++ after)).arena.AcceptsIff r False := by
  refine (acceptsIff_later before after hlive).congr ?_
  simp only [iff_false, not_and]
  intro _ hmod
  -- Different numbers below the modulus are not congruent.
  rw [Nat.ModEq, Nat.mod_eq_of_lt hfew, Nat.mod_eq_of_lt (hremoved.trans hfew)] at hmod
  omega

/-- Two objects of one run never have the same reference, as long as the generations of their slot
are not used up. -/
theorem target_ne_of_register (before between : List Operation) {first second : NewInstance}
    {h k : Handle} {a b : Arena} (hfirst : (run before).arena.register first = .ok (h, a))
    (hsecond : (run (before ++ .register first :: between)).arena.register second = .ok (k, b))
    (hfew : (run (before ++ .register first :: between)).removals k.target.slot < 2 ^ 32) :
    h.target ≠ k.target := by
  have hrun : run (before ++ .register first :: between) =
      run ((before ++ [.register first]) ++ between) := by
    rw [List.append_assoc, List.singleton_append]
  have harena : (run (before ++ [.register first])).arena = a := by
    rw [run_append]
    simp [step, hfirst, withArena]
  have hlive : (run (before ++ [.register first])).arena.isLive h.target = true := by
    rw [harena, Arena.isLive_iff]
    exact ⟨_, Arena.get?_of_register hfirst⟩
  intro heq
  rw [hrun] at hsecond hfew
  -- The second object finds its slot empty, so the first one was removed before.
  have hempty := (balanced_arena_run _).not_occupied_of_register hsecond
  rw [← heq] at hempty hfew
  obtain ⟨-, hocc⟩ :=
    removals_le_and_occupied (before ++ [.register first]) between h.target.slot
  have hfilled : (run (before ++ [.register first])).arena.Occupied h.target.slot := by
    obtain ⟨i, hi⟩ := Arena.isLive_iff.mp hlive
    exact Arena.occupied_iff_slotAt.mpr ⟨i, (Arena.get?_eq_some_iff_slotAt.mp hi).2⟩
  have hremoved := (hocc hfilled).resolve_left hempty
  -- Both objects have the generation of the slot, so the numbers of removals are congruent.
  have hmod := ofNat_eq_ofNat_iff.mp
    ((generation_of_isLive hlive).symm.trans
      ((congrArg Reference.generation heq).trans
        ((generation_of_register hsecond).trans (by rw [← heq]))))
  rw [Nat.ModEq, Nat.mod_eq_of_lt hfew, Nat.mod_eq_of_lt (hremoved.trans hfew)] at hmod
  omega

theorem anchored_arena_run (ops : List Operation) : (run ops).arena.Anchored := by
  have hstep (a a' : Arena) (h : Arena.Step a a') (ha : a.Anchored) : a'.Anchored := ha.step h
  exact (foldl_path {} ops).preserves hstep Arena.anchored_empty

/-- Stale references are recognised.  The generation of a slot is the number of removals from it
modulo `2 ^ 32`.  A reference to an object of the slot, which is what registrations and issued handles
give, is accepted at any later time exactly if the slot is in use then and the numbers of removals at
the two times are congruent.  As long as fewer than `2 ^ 32` objects were removed from the slot, it is
not accepted again once its object was removed, and no two objects have the same reference. -/
theorem run_detects_stale_references (before after : List Operation) :
    (∀ slot, ((run before).arena.slotAt slot).generation =
        UInt32.ofNat ((run before).removals slot)) ∧
      (∀ new h a, (run before).arena.register new = .ok (h, a) → a.isLive h.target = true) ∧
      (∀ held r c h a, (run before).arena.issue held r c = some (h, a) → h.target = r) ∧
      (∀ r, (run before).arena.isLive r = true →
        (run (before ++ after)).arena.AcceptsIff r
          ((run (before ++ after)).arena.Occupied r.slot ∧
            (run before).removals r.slot ≡ (run (before ++ after)).removals r.slot
              [MOD 2 ^ 32]) ∧
        ((run before).removals r.slot < (run (before ++ after)).removals r.slot →
          (run (before ++ after)).removals r.slot < 2 ^ 32 →
          (run (before ++ after)).arena.AcceptsIff r False)) ∧
      (∀ first h a, (run before).arena.register first = .ok (h, a) →
        ∀ second k b, (run (before ++ .register first :: after)).arena.register second = .ok (k, b) →
          (run (before ++ .register first :: after)).removals k.target.slot < 2 ^ 32 →
          h.target ≠ k.target) := by
  refine ⟨generation_slotAt before, ?_, ?_, ?_, ?_⟩
  · intro new h a hreg
    exact Arena.isLive_iff.mpr ⟨_, Arena.get?_of_register hreg⟩
  · intro held r c h a hissue
    exact (anchored_arena_run before).target_of_issue hissue
  · intro r hlive
    exact ⟨acceptsIff_later before after hlive, acceptsIff_false_of_removed before after hlive⟩
  · intro first h a hfirst second k b hsecond hfew
    exact target_ne_of_register before after hfirst hsecond hfew

end Registry

end ObjectBridge
