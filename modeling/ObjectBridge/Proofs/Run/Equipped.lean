import ObjectBridge.Proofs.Arena.Generations
import ObjectBridge.Proofs.Run.Orderly

/-!
# Objects have the overrides of their classes

An object is stored with the overrides of its class, whichever way it comes up: constructed, made by native code or
copied.  Neither it nor the class loses them.

* `State.Equipped` — every object has the overrides of its class.
* `Step.equipped` and `Path.equipped` — it stays so.
* `Equipped.exists_class` — the class of an object.
* `Equipped.overrides_eq` — the overrides of an object, read off the classes.
-/

namespace ObjectBridge

namespace State

variable {s t : State}

/-- Every object is of a class that is registered, and has its overrides. -/
def Equipped (s : State) : Prop :=
  ∀ r i, s.arena.get? r = some i → ∃ c, s.classes.get? c.id = some c ∧ i.lineage = c.lineage

/-- The class of an object, with its name and kind. -/
theorem Equipped.exists_class (hs : s.Equipped) {r : Reference} {i : Instance} (hi : s.arena.get? r = some i) :
    ∃ c, s.classes.get? i.cls = some c ∧ c.name = i.className ∧ c.kind = i.kind ∧ c.overrides = i.overrides := by
  obtain ⟨c, hc, hlineage⟩ := hs r i hi
  obtain ⟨hcls, hname, hkind, hoverrides⟩ := Lineage.mk.inj hlineage
  exact ⟨c, hcls ▸ hc, hname.symm, hkind.symm, hoverrides.symm⟩

theorem Equipped.overrides_eq (hs : s.Equipped) {r : Reference} {i : Instance}
    (hi : s.arena.get? r = some i) : i.overrides = s.classes.overrides i.cls := by
  obtain ⟨c, hc, -, -, hoverrides⟩ := hs.exists_class hi
  rw [ClassTable.overrides, hc, ← hoverrides]
  rfl

/-- An object that is stored with the overrides of its class. -/
theorem Equipped.register (hs : s.Equipped) {new : NewInstance} {h : Handle} {a : Arena}
    (hreg : s.arena.register new = .ok (h, a)) {c : ClassInfo} (hclass : s.classes.get? c.id = some c)
    (hnew : new.lineage = c.lineage) : Equipped { s with arena := a } := by
  intro r i hi
  rcases Arena.eq_target_or_get?_of_register hreg hi with rfl | hold
  · -- The object is the new one.
    have hsame : i = new.stored h.proxy :=
      Option.some.inj (hi.symm.trans (Arena.get?_of_register hreg))
    exact ⟨c, hclass, hsame ▸ hnew⟩
  · exact hs r i hold

/-- Classes that are added leave objects as they are. -/
theorem Equipped.setClasses (hs : s.Equipped) {classes : ClassTable}
    (hextends : s.classes.Extends classes) : Equipped { s with classes := classes } := by
  intro r i hi
  obtain ⟨c, hc, hlineage⟩ := hs r i hi
  exact ⟨c, hextends.get? hc, hlineage⟩

theorem Step.equipped (hstep : s.Step t) (hs : s.Equipped) : t.Equipped := by
  have hsame {u : State} (hclasses : u.classes = s.classes) (harena : u.arena = s.arena) : u.Equipped := by
    intro r i hi
    rw [harena] at hi
    rw [hclasses]
    exact hs r i hi
  cases hstep with
  | vary hworld => exact hsame hworld.1 hworld.2
  | retain a hretains =>
      intro r i' hi'
      obtain ⟨i, hi, hlineage⟩ := hretains r i' hi'
      rw [← hlineage]
      exact hs r i hi
  | store c new h a hclass hnew hreg => exact hs.register hreg hclass hnew
  | copy r i c new h a hi hclass hnew hreg =>
      obtain ⟨c', hclass', hlineage⟩ := hs r i hi
      obtain ⟨hcls, -, -, hoverrides⟩ := Lineage.mk.inj hlineage
      -- The copy is of the class of its original, which is known already.
      obtain rfl : c' = c := Option.some.inj (hclass'.symm.trans (hcls ▸ hclass))
      refine hs.register hreg hclass' (hnew.trans ?_)
      rw [hoverrides]
      rfl
  | define d id classes hdefine =>
      obtain ⟨c, rfl, -⟩ := ClassTable.define_cases hdefine
      exact hs.setClasses (ClassTable.extends_snoc _ c)
  | defineSubclass name base overrides id classes hdefine =>
      obtain ⟨-, -, -, c, -, -, rfl, -⟩ := ClassTable.defineSubclass_cases hdefine
      exact hs.setClasses (ClassTable.extends_snoc _ c)
  | enter hworld | leave hworld =>
      exact hsame (congrArg World.classes hworld) (congrArg World.arena hworld)

theorem Path.equipped (hpath : s.Path t) (hs : s.Equipped) : t.Equipped := by
  induction hpath with
  | refl => exact hs
  | tail _ hlast ih => exact hlast.equipped ih

end State

end ObjectBridge
