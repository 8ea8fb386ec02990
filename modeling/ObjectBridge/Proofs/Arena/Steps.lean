import Mathlib.Logic.Relation
import ObjectBridge.Proofs.Arena.Slots

/-!
# What can happen to an arena

Whatever a run does, it changes the arena by the seven kinds of step listed in `Arena.Step`.  A property
of the arena that every step preserves therefore holds after every run.

The native states and the handlers of the objects change freely and say nothing about the slots, so one
kind of step is to replace them.  `Arena.outline` is the arena without them.

* `Arena.Step` — one change of the arena.
* `Arena.Path` — any number of changes, one after the other.
-/

namespace ObjectBridge

/-- The object without the contents of its native state and without its handlers. -/
def Instance.outline (i : Instance) : Instance :=
  { i with native := i.native.map fun _ => ⟨{ name := "" }, []⟩, events := [] }

/-- The slot with the outline of its object. -/
def Slot.outline (s : Slot) : Slot :=
  { s with occupant := s.occupant.map Instance.outline }

namespace Instance

@[simp] theorem cls_outline (i : Instance) : i.outline.cls = i.cls := rfl

@[simp] theorem className_outline (i : Instance) : i.outline.className = i.className := rfl

@[simp] theorem kind_outline (i : Instance) : i.outline.kind = i.kind := rfl

@[simp] theorem keep_outline (i : Instance) : i.outline.keep = i.keep := rfl

@[simp] theorem anchor_outline (i : Instance) : i.outline.anchor = i.anchor := rfl

@[simp] theorem proxy_outline (i : Instance) : i.outline.proxy = i.proxy := rfl

@[simp] theorem overrides_outline (i : Instance) : i.outline.overrides = i.overrides := rfl

@[simp] theorem isMaterialized_outline (i : Instance) :
    i.outline.isMaterialized = i.isMaterialized := by
  simp [outline, isMaterialized]

theorem anchor_eq_of_outline_eq {i j : Instance} (h : i.outline = j.outline) :
    i.anchor = j.anchor := by
  rw [← anchor_outline, h, anchor_outline]

theorem proxy_eq_of_outline_eq {i j : Instance} (h : i.outline = j.outline) :
    i.proxy = j.proxy := by
  rw [← proxy_outline, h, proxy_outline]

theorem kind_eq_of_outline_eq {i j : Instance} (h : i.outline = j.outline) : i.kind = j.kind := by
  rw [← kind_outline, h, kind_outline]

end Instance

namespace Arena

/-- The arena with the outlines of its objects. -/
def outline (a : Arena) : Arena :=
  { a with slots := a.slots.map Slot.outline }

/-- One change of the arena. -/
inductive Step : Arena → Arena → Prop
  /-- A new object is stored. -/
  | register {a a' : Arena} (new : NewInstance) (h : Handle)
      (hreg : a.register new = .ok (h, a')) : Step a a'
  /-- A deferred object gets its native state. -/
  | materialize {a a' : Arena} (r : Reference) (state : NativeState)
      (hmat : a.materialize r state = .ok a') : Step a a'
  /-- An object is removed. -/
  | destroy {a a' : Arena} (r : Reference) (i : Instance)
      (hdes : a.destroy? r = some (i, a')) : Step a a'
  /-- The ownership of an object changes. -/
  | keep {a a' : Arena} (h : Handle) (keep : Keep) (operation : String)
      (hkeep : a.setKeep h keep operation = .ok a') : Step a a'
  /-- Another handle is issued for an object. -/
  | issue {a a' : Arena} (held : List Handle) (r : Reference) (c : Constness) (h : Handle)
      (hissue : a.issue held r c = some (h, a')) : Step a a'
  /-- A proxy changes its const flag. -/
  | flag {a : Arena} (p : Proxy) (isConst : Bool) : Step a (a.setConst p isConst)
  /-- Native states that exist already and handlers are replaced. -/
  | contents {a a' : Arena} (hsame : a'.outline = a.outline) : Step a a'

/-- Changes of the arena, one after the other. -/
abbrev Path : Arena → Arena → Prop := Relation.ReflTransGen Step

/-- What every step preserves holds after any number of steps. -/
theorem Path.preserves {P : Arena → Prop} (hstep : ∀ a a', Step a a' → P a → P a') {a b : Arena}
    (hpath : Path a b) (ha : P a) : P b := by
  induction hpath with
  | refl => exact ha
  | tail _ hlast ih => exact hstep _ _ hlast ih

/-! ## Arenas with the same outline -/

@[simp] theorem getElem?_slots_outline (a : Arena) (slot : Nat) :
    a.outline.slots[slot]? = a.slots[slot]?.map Slot.outline := by
  simp [outline]

theorem get?_outline (a : Arena) (r : Reference) :
    a.outline.get? r = (a.get? r).map Instance.outline := by
  simp only [get?, getElem?_slots_outline]
  cases a.slots[r.slot]? with
  | none => rfl
  | some s =>
      by_cases hgen : s.generation = r.generation
      · simp [Slot.outline, hgen]
      · simp [Slot.outline, hgen]

/-- A slot of an arena has a counterpart in every arena of the same outline. -/
theorem slot_of_outline_eq {a a' : Arena} (hsame : a'.outline = a.outline) {slot : Nat} {s' : Slot}
    (hs' : a'.slots[slot]? = some s') :
    ∃ s, a.slots[slot]? = some s ∧ s.outline = s'.outline := by
  have hslot := congrArg (fun b : Arena => b.slots[slot]?) hsame
  simp only [getElem?_slots_outline, hs', Option.map_some] at hslot
  exact Option.map_eq_some_iff.mp hslot.symm

theorem slotAt_outline (a : Arena) (slot : Nat) :
    a.outline.slotAt slot = (a.slotAt slot).outline := by
  rw [slotAt, slotAt, getElem?_slots_outline]
  cases a.slots[slot]? <;> rfl

/-- Everything but the slots is part of the outline. -/
theorem fields_of_outline_eq {a a' : Arena} (hsame : a'.outline = a.outline) :
    a'.free = a.free ∧ a'.counts = a.counts ∧ a'.live = a.live ∧ a'.nextAnchor = a.nextAnchor ∧
      a'.nextProxy = a.nextProxy ∧ a'.constProxies = a.constProxies := by
  simp only [outline, Arena.mk.injEq] at hsame
  exact hsame.2

theorem vacant_of_outline_eq {a a' : Arena} (hsame : a'.outline = a.outline) {slot : Nat}
    (hvacant : a'.Vacant slot) : a.Vacant slot := by
  obtain ⟨s', hs', hempty⟩ := hvacant
  obtain ⟨s, hs, hsame⟩ := slot_of_outline_eq hsame hs'
  refine ⟨s, hs, ?_⟩
  have hocc := congrArg Slot.occupant hsame
  simpa [Slot.outline, hempty] using hocc

/-- The empty slots are part of the outline. -/
theorem vacant_iff_of_outline_eq {a a' : Arena} (hsame : a'.outline = a.outline) (slot : Nat) :
    a'.Vacant slot ↔ a.Vacant slot :=
  ⟨vacant_of_outline_eq hsame, vacant_of_outline_eq hsame.symm⟩

/-- An object of an arena has a counterpart in every arena of the same outline. -/
theorem get?_of_outline_eq {a a' : Arena} (hsame : a'.outline = a.outline) {r : Reference}
    {i' : Instance} (hi' : a'.get? r = some i') :
    ∃ i, a.get? r = some i ∧ i.outline = i'.outline := by
  have hget := congrArg (fun b : Arena => b.get? r) hsame
  simp only [get?_outline, hi', Option.map_some] at hget
  exact Option.map_eq_some_iff.mp hget.symm

/-- Replacing an object by one of the same outline keeps the outline of the arena. -/
theorem outline_setOccupant {a : Arena} {r : Reference} {i j : Instance} (hi : a.get? r = some i)
    (hij : j.outline = i.outline) : (a.setOccupant r.slot j).outline = a.outline := by
  obtain ⟨s, hs, -, hocc⟩ := get?_eq_some_iff.mp hi
  have hslots : (a.slots.modify r.slot fun s => { s with occupant := some j }).map Slot.outline =
      a.slots.map Slot.outline := by
    apply Array.ext_getElem?
    intro slot
    rw [Array.getElem?_map, Array.getElem?_map, Array.getElem?_modify]
    by_cases hslot : r.slot = slot
    · subst hslot
      simp [hs, Slot.outline, hocc, hij]
    · simp [hslot]
  simp only [outline, slots_setOccupant, hslots]
  rfl

/-- Changing an object without changing its outline keeps the outline of the arena. -/
theorem outline_modify {a : Arena} {r : Reference} {f : Instance → Instance}
    (hf : ∀ i, a.get? r = some i → (f i).outline = i.outline) :
    (a.modify r f).outline = a.outline := by
  rcases modify_eq a r f with ⟨i, hi, heq⟩ | ⟨-, heq⟩
  · rw [heq]
    exact outline_setOccupant hi (hf i hi)
  · rw [heq]

/-- Handlers are not part of the outline. -/
theorem outline_setHandlers (i : Instance) (event : String) (hs : Handlers) :
    (i.setHandlers event hs).outline = i.outline := rfl

/-- The contents of a native state are not part of the outline. -/
theorem outline_native {i : Instance} (state : NativeState) (hmat : i.isMaterialized = true) :
    ({ i with native := some state } : Instance).outline = i.outline := by
  obtain ⟨old, hold⟩ := Option.isSome_iff_exists.mp hmat
  simp [Instance.outline, hold]

end Arena

namespace Seat

/-- Seating an object is a path of at most two steps. -/
theorem install_path {s s' : Seat} {a a' : Arena} {next : Option Handle}
    {evicted : Option Instance} (hins : s.install a next = .ok (evicted, s', a')) :
    Arena.Path a a' := by
  obtain ⟨b, hfrozen, hevicted⟩ := install_cases hins
  have hfirst : Arena.Path a b := by
    rcases hfrozen with rfl | ⟨h, -, hkeep⟩
    · exact Relation.ReflTransGen.refl
    · exact Relation.ReflTransGen.single (.keep h .unmanaged "install" hkeep)
  rcases hevicted with ⟨-, rfl⟩ | ⟨r, i, -, hdes, -⟩
  · exact hfirst
  · exact hfirst.tail (.destroy r i hdes)

end Seat

end ObjectBridge
