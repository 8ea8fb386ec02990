import Mathlib.Data.Set.Insert
import ObjectBridge.Proofs.Arena.Generations

/-!
# Handles and the anchors that the arena records

The arena holds no handles.  Of each object it records one anchor, and it looks for a handle with that
anchor to find out whether the object is in use.  That is right only if every handle of the object has
this anchor, whichever way it was issued, and no handle of anything else has it.

A `Custody` is an arena together with the proxies of the handles that exist.

* `Custody.Step` — how an arena and the handles change together.  Handles are only made by registrations
  and by `Arena.issue`, which is told of all the handles that exist.  Some proxies are pinned: whatever
  happens, handles with them stay in use.
* `Custody.Step.cases` — a step makes no handle, or it stores an object, or it issues a handle.
* `Custody.Sound` — the anchors of objects and handles tell the objects apart.
* `Custody.Path.sound` — the anchors stay sound as long as the generations of no slot are used up.
-/

namespace ObjectBridge

namespace Arena

/-! ## Objects after an operation -/

theorem get?_setOccupant {a : Arena} {r : Reference} {i : Instance} (hi : a.get? r = some i)
    (j : Instance) (t : Reference) :
    (a.setOccupant r.slot j).get? t = if t = r then some j else a.get? t := by
  have hgen := (get?_eq_some_iff_slotAt.mp hi).1
  rw [Option.ext_iff]
  intro k
  by_cases htr : t = r
  · subst htr
    rw [if_pos rfl, get?_eq_some_iff_slotAt, slotAt_setOccupant hi, if_pos rfl]
    simp [hgen]
  · rw [if_neg htr, get?_eq_some_iff_slotAt, get?_eq_some_iff_slotAt, slotAt_setOccupant hi]
    -- Another reference to the slot is of another generation, and names nothing before or after.
    by_cases hslot : r.slot = t.slot
    · have hother : (a.slotAt t.slot).generation ≠ t.generation := by
        intro heq
        rw [← hslot, hgen] at heq
        exact htr (Reference.ext hslot.symm heq.symm)
      rw [if_pos hslot]
      simp [hother]
    · rw [if_neg hslot]

/-- Replacing an object by one that agrees with it in some respect leaves all objects as they are in that
respect. -/
theorem exists_get?_of_setOccupant {β : Type} (f : Instance → β) {a b : Arena} {r : Reference}
    {i j : Instance} (hi : a.get? r = some i) {t : Reference} {i' : Instance}
    (hi' : b.get? t = some i') (hslots : b.slots = (a.setOccupant r.slot j).slots)
    (hij : f j = f i) : ∃ k, a.get? t = some k ∧ f k = f i' := by
  have hsame : b.get? t = (a.setOccupant r.slot j).get? t := get?_congr (by rw [hslots])
  rw [hsame, get?_setOccupant hi] at hi'
  by_cases htr : t = r
  · subst htr
    rw [if_pos rfl, Option.some.injEq] at hi'
    exact ⟨i, hi, by rw [← hi', hij]⟩
  · rw [if_neg htr] at hi'
    exact ⟨i', hi', rfl⟩

theorem get?_destroy? {a a' : Arena} {r : Reference} {i : Instance}
    (hdes : a.destroy? r = some (i, a')) (t : Reference) :
    a'.get? t = if t.slot = r.slot then none else a.get? t := by
  by_cases hslot : t.slot = r.slot
  · rw [if_pos hslot, Option.eq_none_iff_forall_ne_some]
    intro j hj
    have hocc := (get?_eq_some_iff_slotAt.mp hj).2
    rw [slotAt_destroy? hdes, if_pos hslot.symm] at hocc
    simp at hocc
  · rw [if_neg hslot]
    obtain ⟨-, rfl⟩ := destroy?_cases hdes
    refine get?_congr ?_
    rw [Array.getElem?_modify, if_neg (Ne.symm hslot)]

/-- After a registration the new object is there, and all others as before. -/
theorem get?_register {a a' : Arena} {new : NewInstance} {h : Handle} (hbal : a.Balanced)
    (hreg : a.register new = .ok (h, a')) (t : Reference) :
    a'.get? t = if t = h.target then some (new.stored h.proxy) else a.get? t := by
  have hempty := hbal.not_occupied_of_register hreg
  by_cases hsame : t = h.target
  · rw [if_pos hsame, hsame, get?_of_register hreg]
  · rw [if_neg hsame]
    obtain ⟨slot, base, entry, htake, hentry, rfl, rfl⟩ := register_cases hreg
    have hslotAt := slotAt_admitted hentry new t.slot
    rw [Option.ext_iff]
    intro j
    rw [get?_eq_some_iff_slotAt, get?_eq_some_iff_slotAt, hslotAt, ← slotAt_takeSlot htake t.slot]
    -- The slot was vacant, and its generation names the new object alone.
    by_cases hslot : slot = t.slot
    · subst hslot
      rw [if_pos rfl, slotAt_takeSlot htake]
      constructor
      · rintro ⟨hgen, -⟩
        refine absurd ?_ hsame
        cases t
        simp_all [firstHandle, Handle.target]
      · rintro ⟨-, hocc⟩
        exact absurd (occupied_iff_slotAt.mpr ⟨j, hocc⟩) hempty
    · rw [if_neg hslot]

/-- No object comes up at a registration but the new one. -/
theorem eq_target_or_get?_of_register {a a' : Arena} {new : NewInstance} {h : Handle} {t : Reference}
    {j : Instance} (hreg : a.register new = .ok (h, a')) (hj : a'.get? t = some j) :
    t = h.target ∨ a.get? t = some j := by
  obtain ⟨slot, base, entry, htake, hentry, rfl, rfl⟩ := register_cases hreg
  rw [get?_eq_some_iff_slotAt, slotAt_admitted hentry new t.slot] at hj
  by_cases hslot : slot = t.slot
  · refine Or.inl ?_
    rw [if_pos hslot] at hj
    exact Reference.ext hslot.symm hj.1.symm
  · rw [if_neg hslot, slotAt_takeSlot htake] at hj
    exact Or.inr (get?_eq_some_iff_slotAt.mpr hj)

/-- It depends on the arena alone whether an object can be registered. -/
theorem isOk_register (a : Arena) (new new' : NewInstance) :
    (a.register new).isOk = (a.register new').isOk := by
  rcases htake : a.takeSlot with e | ⟨slot, base⟩
  · simp only [register, htake]
    rfl
  · simp only [register, htake, bind, Except.bind]
    cases base.slots[slot]? <;> rfl

theorem nextAnchor_register {a a' : Arena} {new : NewInstance} {h : Handle}
    (hreg : a.register new = .ok (h, a')) :
    a'.nextAnchor = a.nextAnchor + 1 ∧ h.proxy.anchor.serial = a.nextAnchor := by
  obtain ⟨slot, base, entry, htake, hentry, rfl, rfl⟩ := register_cases hreg
  rcases takeSlot_cases htake with ⟨rest, -, rfl⟩ | ⟨-, -, -, rfl⟩
  · exact ⟨rfl, rfl⟩
  · exact ⟨rfl, rfl⟩

end Arena

/-- The object without what may change while no handle is made: its native state, its handlers, and who may remove
it. -/
def Instance.face (i : Instance) : Instance :=
  { i with native := none, keep := .managed, events := [] }

/-- An arena, the proxies of the handles that exist and the overrides that classes carry. -/
structure Custody where
  arena : Arena
  proxies : Set Proxy
  overrides : Set Overrides

namespace Custody

/-- Before anything happens there are no objects and no handles. -/
def empty : Custody := ⟨{}, ∅, ∅⟩

/-- A handle that must not be const is issued for an object, in view of all handles that exist. -/
inductive Reissue (r : Reference) : Custody → Custody → Prop
  /-- A handle in use is returned by reference. -/
  | returned {a a' : Arena} {ps : Set Proxy} {os : Set Overrides} (held : List Handle)
      (k h : Handle) (hk : k ∈ held) (htarget : k.target = r)
      (hissue : a.issue held r .nonConst = some (h, a')) (hall : ∀ p ∈ ps, ∃ k ∈ held, k.proxy = p) :
      Reissue r ⟨a, ps, os⟩ ⟨a', insert h.proxy ps, os⟩
  /-- The object in a seat is read. -/
  | seated {a a' : Arena} {ps : Set Proxy} {os : Set Overrides} (held : List Handle) (seat : Seat)
      (h : Handle) (hseat : seat.occupant = some r) (hcurrent : seat.current a held = some (h, a'))
      (hall : ∀ p ∈ ps, ∃ k ∈ held, k.proxy = p) :
      Reissue r ⟨a, ps, os⟩ ⟨a', insert h.proxy ps, os⟩

/-- One change of an arena and the handles that exist, while some proxies are pinned. -/
inductive Step (pinned : Set Proxy) : Custody → Custody → Prop
  /-- Handles are let go of, native states and handlers change, and classes are added. -/
  | move {a a' : Arena} {ps ps' : Set Proxy} {os os' : Set Overrides}
      (hsame : a'.outline = a.outline) (hsub : ps' ⊆ ps) (hmore : os ⊆ os') :
      Step pinned ⟨a, ps, os⟩ ⟨a', ps', os'⟩
  /-- An object is stored, with the overrides of a class or of another object, and its first handle is
  made. -/
  | register {a a' : Arena} {ps : Set Proxy} {os : Set Overrides} (new : NewInstance) (h : Handle)
      (hreg : a.register new = .ok (h, a'))
      (hshared : ∀ o, new.overrides = some o →
        o ∈ os ∨ ∃ r i, a.get? r = some i ∧ i.overrides = some o) :
      Step pinned ⟨a, ps, os⟩ ⟨a', insert h.proxy ps, os⟩
  /-- Another handle is made that may be const, in view of all handles that exist. -/
  | issue {a a' : Arena} {ps : Set Proxy} {os : Set Overrides} (held : List Handle) (r : Reference)
      (c : Constness) (h : Handle) (hconst : c ≠ .nonConst)
      (hissue : a.issue held r c = some (h, a')) (hall : ∀ p ∈ ps, ∃ k ∈ held, k.proxy = p) :
      Step pinned ⟨a, ps, os⟩ ⟨a', insert h.proxy ps, os⟩
  /-- Another handle is made that must not be const. -/
  | reissue {c c' : Custody} (r : Reference) (hreissue : Reissue r c c') : Step pinned c c'
  | materialize {a a' : Arena} {ps : Set Proxy} {os : Set Overrides} (r : Reference)
      (state : NativeState) (hmat : a.materialize r state = .ok a') :
      Step pinned ⟨a, ps, os⟩ ⟨a', ps, os⟩
  | destroy {a a' : Arena} {ps : Set Proxy} {os : Set Overrides} (r : Reference) (i : Instance)
      (hdes : a.destroy? r = some (i, a')) : Step pinned ⟨a, ps, os⟩ ⟨a', ps, os⟩
  | keep {a a' : Arena} {ps : Set Proxy} {os : Set Overrides} (h : Handle) (keep : Keep)
      (operation : String) (hkeep : a.setKeep h keep operation = .ok a') :
      Step pinned ⟨a, ps, os⟩ ⟨a', ps, os⟩
  /-- A proxy in use becomes const, which is not pinned. -/
  | flag {a : Arena} {ps : Set Proxy} {os : Set Overrides} (p : Proxy) (hp : p ∈ ps)
      (hfree : ∀ q ∈ pinned, q.serial ≠ p.serial) :
      Step pinned ⟨a, ps, os⟩ ⟨a.setConst p true, ps, os⟩

/-- Changes, one after the other. -/
abbrev Path (pinned : Set Proxy) : Custody → Custody → Prop := Relation.ReflTransGen (Step pinned)

variable {pinned : Set Proxy}

theorem Reissue.exists_issue {r : Reference} {c c' : Custody} (hreissue : Reissue r c c') :
    ∃ held h, c.arena.issue held r .nonConst = some (h, c'.arena) ∧
      c' = ⟨c'.arena, insert h.proxy c.proxies, c.overrides⟩ ∧
      ∀ p ∈ c.proxies, ∃ k ∈ held, k.proxy = p := by
  cases hreissue with
  | returned held k h hk htarget hissue hall => exact ⟨held, h, hissue, rfl, hall⟩
  | seated held seat h hseat hcurrent hall =>
      refine ⟨held, h, ?_, rfl, hall⟩
      rwa [Seat.current, hseat] at hcurrent

/-- With fewer proxies pinned the same changes are possible. -/
theorem Step.mono {fewer : Set Proxy} (hsub : fewer ⊆ pinned) {c c' : Custody}
    (hstep : Step pinned c c') : Step fewer c c' := by
  cases hstep with
  | move hsame hsub hmore => exact .move hsame hsub hmore
  | register new h hreg hshared => exact .register new h hreg hshared
  | issue held r c h hconst hissue hall => exact .issue held r c h hconst hissue hall
  | reissue r hreissue => exact .reissue r hreissue
  | materialize r state hmat => exact .materialize r state hmat
  | destroy r i hdes => exact .destroy r i hdes
  | keep h keep operation hkeep => exact .keep h keep operation hkeep
  | flag p hp hfree => exact .flag p hp fun q hq => hfree q (hsub hq)

theorem Path.mono {fewer : Set Proxy} (hsub : fewer ⊆ pinned) {c c' : Custody}
    (hpath : Path pinned c c') : Path fewer c c' :=
  hpath.lift id fun _ _ hstep => hstep.mono hsub

/-- The anchors of the objects and of the handles. -/
def anchors (c : Custody) : Set Anchor :=
  { anchor | (∃ p ∈ c.proxies, p.anchor = anchor) ∨
      ∃ r i, c.arena.get? r = some i ∧ i.anchor = anchor }

/-- The anchors of objects and handles tell the objects apart: a serial belongs to one anchor alone, an
anchor that leads to an object is the recorded one, and an anchor that leads nowhere now was made for an
object that was there before. -/
structure Sound (c : Custody) : Prop where
  balanced : c.arena.Balanced
  numbered : c.arena.Numbered
  anchored : c.arena.Anchored
  serial_lt : ∀ anchor ∈ c.anchors, anchor.serial < c.arena.nextAnchor
  serial_inj : ∀ anchor ∈ c.anchors, ∀ other ∈ c.anchors,
    anchor.serial = other.serial → anchor = other
  eq_recorded : ∀ anchor ∈ c.anchors, ∀ i, c.arena.get? anchor.target = some i →
    anchor = i.anchor
  past : ∀ anchor ∈ c.anchors, ∃ k : Nat, anchor.target.generation = UInt32.ofNat k ∧
    k ≤ (c.arena.slotAt anchor.target.slot).removals ∧
      (k = (c.arena.slotAt anchor.target.slot).removals → c.arena.Occupied anchor.target.slot)

theorem mem_anchors_of_mem {c : Custody} {p : Proxy} (hp : p ∈ c.proxies) : p.anchor ∈ c.anchors :=
  Or.inl ⟨p, hp, rfl⟩

theorem mem_anchors_of_get? {c : Custody} {r : Reference} {i : Instance}
    (hi : c.arena.get? r = some i) : i.anchor ∈ c.anchors :=
  Or.inr ⟨r, i, hi, rfl⟩

/-- A step changes the arena by a step. -/
theorem Step.arena_step {c c' : Custody} (hstep : Step pinned c c') : Arena.Step c.arena c'.arena := by
  cases hstep with
  | move hsame hsub hmore => exact .contents hsame
  | register new h hreg hshared => exact .register new h hreg
  | issue held r c h hconst hissue hall => exact .issue held r c h hissue
  | reissue r hreissue =>
      obtain ⟨held, h, hissue, -, -⟩ := hreissue.exists_issue
      exact .issue held r .nonConst h hissue
  | materialize r state hmat => exact .materialize r state hmat
  | destroy r i hdes => exact .destroy r i hdes
  | keep h keep operation hkeep => exact .keep h keep operation hkeep
  | flag p hp hfree => exact .flag p true

theorem Path.arena_path {c c' : Custody} (hpath : Path pinned c c') : Arena.Path c.arena c'.arena := by
  induction hpath with
  | refl => exact Relation.ReflTransGen.refl
  | tail _ hlast ih => exact ih.tail hlast.arena_step

/-! ## Three kinds of step -/

/-- A change by which no handle is made.  Every object that is left was there before and has the same face, and only
proxies of handles may have become const. -/
structure Keeps (c c' : Custody) : Prop where
  face : ∀ r i', c'.arena.get? r = some i' → ∃ i, c.arena.get? r = some i ∧ i.face = i'.face
  proxies : c'.proxies ⊆ c.proxies
  overrides : c.overrides ⊆ c'.overrides
  nextAnchor_eq : c'.arena.nextAnchor = c.arena.nextAnchor
  nextProxy_eq : c'.arena.nextProxy = c.arena.nextProxy
  flags : ∀ n ∈ c'.arena.constProxies, n ∈ c.arena.constProxies ∨ ∃ p ∈ c.proxies, p.serial = n

/-- Objects that are left agree with what they were before in every respect that their faces tell. -/
theorem Keeps.exists_get? {β : Type} {c c' : Custody} (h : Keeps c c') (f : Instance → β)
    (hf : ∀ i, f i.face = f i) (r : Reference) (i' : Instance) (hi' : c'.arena.get? r = some i') :
    ∃ i, c.arena.get? r = some i ∧ f i = f i' := by
  obtain ⟨i, hi, hface⟩ := h.face r i' hi'
  refine ⟨i, hi, ?_⟩
  rw [← hf i, hface, hf i']

/-- The object of a reference is replaced by one with the same face. -/
theorem keeps_setOccupant {a b : Arena} {ps : Set Proxy} {os : Set Overrides} {r : Reference} {i j : Instance}
    (hi : a.get? r = some i) (hslots : b.slots = (a.setOccupant r.slot j).slots) (hface : j.face = i.face)
    (hanchor : b.nextAnchor = a.nextAnchor) (hproxy : b.nextProxy = a.nextProxy)
    (hflags : b.constProxies = a.constProxies) : Keeps ⟨a, ps, os⟩ ⟨b, ps, os⟩ where
  face _ _ hi' := Arena.exists_get?_of_setOccupant Instance.face hi hi' hslots hface
  proxies := Set.Subset.rfl
  overrides := Set.Subset.rfl
  nextAnchor_eq := hanchor
  nextProxy_eq := hproxy
  flags _ hn := Or.inl (hflags ▸ hn)

theorem keeps_refl (c : Custody) : Keeps c c where
  face _ i hi := ⟨i, hi, rfl⟩
  proxies := Set.Subset.rfl
  overrides := Set.Subset.rfl
  nextAnchor_eq := rfl
  nextProxy_eq := rfl
  flags _ hn := Or.inl hn

theorem keeps_destroy? {a a' : Arena} {ps : Set Proxy} {os : Set Overrides} {r : Reference} {i : Instance}
    (hdes : a.destroy? r = some (i, a')) : Keeps ⟨a, ps, os⟩ ⟨a', ps, os⟩ := by
  have hnext := (Arena.destroy?_cases hdes).2
  refine ⟨?_, Set.Subset.rfl, Set.Subset.rfl, by rw [hnext], by rw [hnext], ?_⟩
  · intro t i' hi'
    rw [Arena.get?_destroy? hdes] at hi'
    split at hi'
    · cases hi'
    · exact ⟨i', hi', rfl⟩
  · intro n hn
    rw [hnext] at hn
    exact Or.inl hn

/-- A step makes no handle, or it stores an object and makes its first handle, or it issues another handle for an
object. -/
theorem Step.cases {c c' : Custody} (hstep : Step pinned c c') :
    Keeps c c' ∨
      (∃ new h a', c.arena.register new = .ok (h, a') ∧
        (∀ o, new.overrides = some o →
          o ∈ c.overrides ∨ ∃ r i, c.arena.get? r = some i ∧ i.overrides = some o) ∧
        c' = ⟨a', insert h.proxy c.proxies, c.overrides⟩) ∨
      ∃ held r k h a', c.arena.issue held r k = some (h, a') ∧
        (∀ p ∈ c.proxies, ∃ k ∈ held, k.proxy = p) ∧
        c' = ⟨a', insert h.proxy c.proxies, c.overrides⟩ := by
  -- Registering and the two kinds of issue make a handle; every other step keeps the faces.
  cases hstep with
  | move hsame hsub hmore =>
      obtain ⟨-, -, -, hanchor, hproxy, hflags⟩ := Arena.fields_of_outline_eq hsame
      refine Or.inl ⟨?_, hsub, hmore, hanchor, hproxy, fun n hn => Or.inl (hflags ▸ hn)⟩
      intro t i' hi'
      obtain ⟨i, hi, heq⟩ := Arena.get?_of_outline_eq hsame hi'
      exact ⟨i, hi, (congrArg Instance.face heq :)⟩
  | register new h hreg hshared => exact Or.inr (Or.inl ⟨new, h, _, hreg, hshared, rfl⟩)
  | issue held r k h hconst hissue hall => exact Or.inr (Or.inr ⟨held, r, k, h, _, hissue, hall, rfl⟩)
  | reissue r hreissue =>
      obtain ⟨held, h, hissue, heq, hall⟩ := hreissue.exists_issue
      exact Or.inr (Or.inr ⟨held, r, .nonConst, h, _, hissue, hall, heq⟩)
  | materialize r state hmat =>
      obtain ⟨i, hi, ⟨-, rfl⟩ | ⟨-, rfl⟩⟩ := Arena.materialize_cases hmat
      · exact Or.inl (keeps_refl _)
      · exact Or.inl (keeps_setOccupant hi rfl rfl rfl rfl rfl)
  | destroy r i hdes => exact Or.inl (keeps_destroy? hdes)
  | keep h keep operation hkeep =>
      obtain ⟨i, hi, rfl⟩ := Arena.setKeep_cases hkeep
      exact Or.inl (keeps_setOccupant hi rfl rfl rfl rfl rfl)
  | flag p hp hfree =>
      refine Or.inl { keeps_refl _ with flags := fun n hn => ?_ }
      rcases List.mem_cons.mp hn with rfl | hn
      · exact Or.inr ⟨p, hp, rfl⟩
      · exact Or.inl (List.mem_of_mem_filter hn)

/-! ## One step -/

/-- An anchor that was made for an object of the past or the present stays one. -/
theorem Sound.past_of_step {c : Custody} (hsound : c.Sound) {a' : Arena}
    (hstep : Arena.Step c.arena a') {anchor : Anchor} (hanchor : anchor ∈ c.anchors) :
    ∃ k : Nat, anchor.target.generation = UInt32.ofNat k ∧
      k ≤ (a'.slotAt anchor.target.slot).removals ∧
        (k = (a'.slotAt anchor.target.slot).removals → a'.Occupied anchor.target.slot) := by
  obtain ⟨k, hgen, hle, hocc⟩ := hsound.past anchor hanchor
  have hgrows := hstep.removals_le hsound.balanced anchor.target.slot
  refine ⟨k, hgen, hle.trans hgrows, ?_⟩
  intro hlast
  rcases hstep.occupied_or_removed hsound.balanced (hocc (by omega)) with hstill | hmore
  · exact hstill
  · omega

/-- A change by which objects keep their anchors, and by which no anchor comes up. -/
theorem Sound.of_kept {c c' : Custody} (hsound : c.Sound) (hstep : Arena.Step c.arena c'.arena)
    (hnext : c.arena.nextAnchor ≤ c'.arena.nextAnchor)
    (hproxies : ∀ p ∈ c'.proxies, p.anchor ∈ c.anchors)
    (hget : ∀ t i', c'.arena.get? t = some i' →
      ∃ i, c.arena.get? t = some i ∧ i.anchor = i'.anchor) : c'.Sound := by
  -- No anchor comes up, so what holds of all the anchors goes on to hold.
  have hanchors : ∀ anchor ∈ c'.anchors, anchor ∈ c.anchors := by
    rintro anchor (⟨p, hp, rfl⟩ | ⟨t, i', hi', rfl⟩)
    · exact hproxies p hp
    · obtain ⟨i, hi, heq⟩ := hget t i' hi'
      rw [← heq]
      exact mem_anchors_of_get? hi
  have hlt : ∀ anchor ∈ c'.anchors, anchor.serial < c'.arena.nextAnchor := by
    intro anchor hanchor
    exact Nat.lt_of_lt_of_le (hsound.serial_lt anchor (hanchors anchor hanchor)) hnext
  have hinj : ∀ anchor ∈ c'.anchors, ∀ other ∈ c'.anchors,
      anchor.serial = other.serial → anchor = other := by
    intro anchor hanchor other hother
    exact hsound.serial_inj anchor (hanchors anchor hanchor) other (hanchors other hother)
  have hrecorded : ∀ anchor ∈ c'.anchors, ∀ i, c'.arena.get? anchor.target = some i →
      anchor = i.anchor := by
    intro anchor hanchor i' hi'
    obtain ⟨i, hi, heq⟩ := hget _ i' hi'
    rw [← heq]
    exact hsound.eq_recorded anchor (hanchors anchor hanchor) i hi
  exact ⟨hsound.balanced.step hstep, hsound.numbered.step hsound.balanced hstep,
    hsound.anchored.step hstep, hlt, hinj, hrecorded,
    fun anchor hanchor => hsound.past_of_step hstep (hanchors anchor hanchor)⟩

/-- A change by which one object gets a new anchor, for which no other one is left. -/
theorem Sound.of_fresh {c c' : Custody} (hsound : c.Sound) (hstep : Arena.Step c.arena c'.arena)
    {r : Reference} {j : Instance} (hj : c'.arena.get? r = some j)
    (hanchor : j.anchor = ⟨c.arena.nextAnchor, r⟩)
    (hnext : c'.arena.nextAnchor = c.arena.nextAnchor + 1)
    (hproxies : ∀ p ∈ c'.proxies, p.anchor = j.anchor ∨
      (p.anchor ∈ c.anchors ∧ p.anchor.target ≠ r))
    (hget : ∀ t i', t ≠ r → c'.arena.get? t = some i' →
      ∃ i, c.arena.get? t = some i ∧ i.anchor = i'.anchor) : c'.Sound := by
  have hanchors : ∀ anchor ∈ c'.anchors, anchor = j.anchor ∨
      (anchor ∈ c.anchors ∧ anchor.target ≠ r) := by
    rintro anchor (⟨p, hp, rfl⟩ | ⟨t, i', hi', rfl⟩)
    · exact hproxies p hp
    · by_cases htr : t = r
      · subst htr
        exact Or.inl (congrArg Instance.anchor (Option.some.inj (hi'.symm.trans hj)))
      · obtain ⟨i, hi, heq⟩ := hget t i' htr hi'
        rw [← heq]
        refine Or.inr ⟨mem_anchors_of_get? hi, ?_⟩
        rwa [(hsound.anchored.of_get? hi).1]
  have hserial : j.anchor.serial = c.arena.nextAnchor := congrArg Anchor.serial hanchor
  have htarget : j.anchor.target = r := congrArg Anchor.target hanchor
  have hnumbered := hsound.numbered.step hsound.balanced hstep
  have hlt : ∀ anchor ∈ c'.anchors, anchor.serial < c'.arena.nextAnchor := by
    intro anchor hmem
    rcases hanchors anchor hmem with rfl | ⟨hold, -⟩
    · omega
    · have hbefore := hsound.serial_lt anchor hold
      omega
  have hinj : ∀ anchor ∈ c'.anchors, ∀ other ∈ c'.anchors,
      anchor.serial = other.serial → anchor = other := by
    -- The new serial is beyond all others, so the new anchor agrees with itself alone.
    intro anchor hmem other hmem' heq
    rcases hanchors anchor hmem with rfl | ⟨hold, -⟩
    · rcases hanchors other hmem' with rfl | ⟨hold', -⟩
      · rfl
      · have hbefore := hsound.serial_lt other hold'
        omega
    · rcases hanchors other hmem' with rfl | ⟨hold', -⟩
      · have hbefore := hsound.serial_lt anchor hold
        omega
      · exact hsound.serial_inj anchor hold other hold' heq
  have hrecorded : ∀ anchor ∈ c'.anchors, ∀ i, c'.arena.get? anchor.target = some i →
      anchor = i.anchor := by
    -- The old anchors do not lead to the object any more, so they lead to what they led to before.
    intro anchor hmem i' hi'
    rcases hanchors anchor hmem with rfl | ⟨hold, hne⟩
    · rw [htarget] at hi'
      exact congrArg Instance.anchor (Option.some.inj (hj.symm.trans hi'))
    · obtain ⟨i, hi, heq⟩ := hget _ i' hne hi'
      rw [← heq]
      exact hsound.eq_recorded anchor hold i hi
  have hpast : ∀ anchor ∈ c'.anchors, ∃ k : Nat,
      anchor.target.generation = UInt32.ofNat k ∧
        k ≤ (c'.arena.slotAt anchor.target.slot).removals ∧
        (k = (c'.arena.slotAt anchor.target.slot).removals →
          c'.arena.Occupied anchor.target.slot) := by
    intro anchor hmem
    rcases hanchors anchor hmem with rfl | ⟨hold, -⟩
    · obtain ⟨hgen, hocc⟩ := Arena.get?_eq_some_iff_slotAt.mp hj
      rw [htarget]
      exact ⟨_, hgen.symm.trans (hnumbered r.slot), Nat.le_refl _,
        fun _ => Arena.occupied_iff_slotAt.mpr ⟨j, hocc⟩⟩
    · exact hsound.past_of_step hstep hold
  exact ⟨hsound.balanced.step hstep, hnumbered, hsound.anchored.step hstep, hlt, hinj, hrecorded,
    hpast⟩

/-- No anchor leads to an object that is about to be stored, as long as the generations of its slot are
not used up. -/
theorem Sound.target_ne_of_register {c : Custody} (hsound : c.Sound) {new : NewInstance} {h : Handle}
    {a' : Arena} (hreg : c.arena.register new = .ok (h, a'))
    (hfew : ∀ slot, (c.arena.slotAt slot).removals < 2 ^ 32) {anchor : Anchor}
    (hanchor : anchor ∈ c.anchors) : anchor.target ≠ h.target := by
  intro heq
  obtain ⟨k, hgen, hle, hocc⟩ := hsound.past anchor hanchor
  rw [heq] at hgen hle hocc
  have hempty := hsound.balanced.not_occupied_of_register hreg
  have hnew : h.target.generation =
      UInt32.ofNat (c.arena.slotAt h.target.slot).removals := by
    obtain ⟨slot, base, entry, htake, hentry, rfl, -⟩ := Arena.register_cases hreg
    rw [← hsound.numbered]
    show entry.generation = (c.arena.slotAt slot).generation
    rw [← Arena.slotAt_takeSlot htake, Arena.slotAt_eq hentry]
  have hmod := ofNat_eq_ofNat_iff.mp (hgen.symm.trans hnew)
  have hbound := hfew h.target.slot
  rw [Nat.ModEq, Nat.mod_eq_of_lt hbound, Nat.mod_eq_of_lt (by omega)] at hmod
  exact hempty (hocc hmod)

/-- A new anchor is issued only if no handle of the object is left. -/
theorem Sound.target_ne_of_not_anchorHeld {c : Custody} (hsound : c.Sound) {held : List Handle}
    (hall : ∀ p ∈ c.proxies, ∃ k ∈ held, k.proxy = p) {r : Reference} {i : Instance}
    (hi : c.arena.get? r = some i) (hfree : Arena.anchorHeld held i.anchor = false) {p : Proxy}
    (hp : p ∈ c.proxies) : p.anchor.target ≠ r := by
  intro heq
  have hrecorded := hsound.eq_recorded p.anchor (Or.inl ⟨p, hp, rfl⟩) i (by rw [heq]; exact hi)
  obtain ⟨k, hk, rfl⟩ := hall p hp
  have hheld : Arena.anchorHeld held i.anchor = true := by
    rw [Arena.anchorHeld, List.any_eq_true]
    exact ⟨k, hk, by rw [hrecorded, beq_self_eq_true]⟩
  rw [hheld] at hfree
  cases hfree

/-- A registered object gets a new anchor, and no anchor of the past leads to its slot and
generation. -/
theorem Sound.register {c : Custody} (hsound : c.Sound) {new : NewInstance} {h : Handle} {a' : Arena}
    (hreg : c.arena.register new = .ok (h, a'))
    (hfew : ∀ slot, (c.arena.slotAt slot).removals < 2 ^ 32) :
    Sound ⟨a', insert h.proxy c.proxies, c.overrides⟩ := by
  obtain ⟨hnext, hserial⟩ := Arena.nextAnchor_register hreg
  have hget := Arena.get?_register hsound.balanced hreg
  have hj := hget h.target
  rw [if_pos rfl] at hj
  have hanchor : (new.stored h.proxy).anchor = ⟨_, h.target⟩ :=
    congrArg (fun serial => (⟨serial, h.target⟩ : Anchor)) hserial
  have hothers : ∀ p ∈ c.proxies, p.anchor ∈ c.anchors ∧ p.anchor.target ≠ h.target := by
    intro p hp
    have hmem := mem_anchors_of_mem hp
    exact ⟨hmem, hsound.target_ne_of_register hreg hfew hmem⟩
  refine hsound.of_fresh (Arena.Step.register new h hreg) hj hanchor hnext ?_ ?_
  · rintro p (rfl | hp)
    · exact Or.inl rfl
    · exact Or.inr (hothers p hp)
  · intro t i' hne hi'
    rw [hget, if_neg hne] at hi'
    exact ⟨i', hi', rfl⟩

/-- A handle that is issued has the recorded anchor, or a new one if no handle of the object is left. -/
theorem Sound.issue {c : Custody} (hsound : c.Sound) {held : List Handle} {r : Reference}
    {k : Constness} {h : Handle} {a' : Arena} (hissue : c.arena.issue held r k = some (h, a'))
    (hall : ∀ p ∈ c.proxies, ∃ k ∈ held, k.proxy = p) :
    Sound ⟨a', insert h.proxy c.proxies, c.overrides⟩ := by
  have harena : Arena.Step c.arena a' := .issue held r k h hissue
  obtain ⟨i, hi, ⟨hkind, -, hproxy, serials, rfl⟩ | ⟨-, hfresh⟩⟩ := Arena.issue_cases hissue
  · -- The proxy is issued again.
    refine hsound.of_kept harena (Nat.le_refl _) ?_ ?_
    · rintro p (rfl | hp)
      · rw [hproxy, (hsound.anchored.of_get? hi).2 hkind]
        exact mem_anchors_of_get? hi
      · exact mem_anchors_of_mem hp
    · intro t i' hi'
      exact ⟨i', hi', rfl⟩
  · obtain ⟨anchor, next, serials, hanchor, rfl, rfl⟩ := Arena.issueFresh_cases hfresh
    have hget := Arena.get?_setOccupant hi
    rcases hanchor with ⟨-, rfl, rfl⟩ | ⟨hfree, rfl, rfl⟩
    · -- A handle is left, so a new proxy gets the anchor that it has.
      refine hsound.of_kept harena (Nat.le_refl _) ?_ ?_
      · rintro p (rfl | hp)
        · exact mem_anchors_of_get? hi
        · exact mem_anchors_of_mem hp
      · intro t i' hi'
        exact Arena.exists_get?_of_setOccupant _ hi hi' rfl rfl
    · -- No handle is left, so a new anchor is made.
      refine hsound.of_fresh harena ((hget _ r).trans (if_pos rfl)) rfl rfl ?_ ?_
      · rintro p (rfl | hp)
        · exact Or.inl rfl
        · exact Or.inr ⟨mem_anchors_of_mem hp,
            hsound.target_ne_of_not_anchorHeld hall hi hfree hp⟩
      · intro t i' hne hi'
        have hi'' := (hget _ t).symm.trans hi'
        rw [if_neg hne] at hi''
        exact ⟨i', hi'', rfl⟩

/-- Every step keeps the anchors sound, as long as the generations of no slot are used up. -/
theorem Sound.step {c c' : Custody} (hsound : c.Sound) (hstep : Step pinned c c')
    (hfew : ∀ slot, (c.arena.slotAt slot).removals < 2 ^ 32) : c'.Sound := by
  rcases hstep.cases with hkeeps | ⟨new, h, a', hreg, -, rfl⟩ | ⟨held, r, k, h, a', hissue, hall, rfl⟩
  · exact hsound.of_kept hstep.arena_step hkeeps.nextAnchor_eq.ge
      (fun p hp => mem_anchors_of_mem (hkeeps.proxies hp)) (hkeeps.exists_get? Instance.anchor fun _ => rfl)
  · exact hsound.register hreg hfew
  · exact hsound.issue hissue hall

/-! ## Any number of steps -/

theorem sound_empty (ps : Set Proxy) (hps : ps = ∅) (os : Set Overrides) : Sound ⟨{}, ps, os⟩ := by
  have hnone (r : Reference) : ({} : Arena).get? r = none := by
    simp [Arena.get?]
  have hanchors : ∀ anchor, anchor ∉ anchors ⟨{}, ps, os⟩ := by
    rintro anchor (⟨p, hp, -⟩ | ⟨r, i, hi, -⟩)
    · rw [hps] at hp
      exact hp
    · rw [hnone] at hi
      cases hi
  exact ⟨Arena.balanced_empty, Arena.numbered_empty, Arena.anchored_empty,
    fun anchor h => absurd h (hanchors anchor), fun anchor h => absurd h (hanchors anchor),
    fun anchor h => absurd h (hanchors anchor), fun anchor h => absurd h (hanchors anchor)⟩

/-- The anchors stay sound along a path at whose end the generations of no slot are used up. -/
theorem Path.sound {c c' : Custody} (hpath : Path pinned c c') (hsound : c.Sound)
    (hfew : ∀ slot, (c'.arena.slotAt slot).removals < 2 ^ 32) : c'.Sound := by
  induction hpath with
  | refl => exact hsound
  | tail hbefore hlast ih =>
      rename_i b d
      have hbal : b.arena.Balanced := hsound.balanced.path (Path.arena_path hbefore)
      -- Removals are never undone, so there were no more of them before the last step.
      have hfewer : ∀ slot, (b.arena.slotAt slot).removals < 2 ^ 32 := by
        intro slot
        exact Nat.lt_of_le_of_lt (hlast.arena_step.removals_le hbal slot) (hfew slot)
      exact (ih hfewer).step hlast hfewer

end Custody

end ObjectBridge
