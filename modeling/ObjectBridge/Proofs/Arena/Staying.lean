import ObjectBridge.Proofs.Arena.Custody

/-!
# Objects that stay, and which of them have been used

As long as nothing is removed from a slot, its object stays the same one: it keeps its class, and a native state that it
has is not taken back.  A reference that reaches an object at two times, between which the generations of the slot are
not used up, reaches the same object.

An object may be stored without its native state, and gets one when it is asked for the first time.  A history tells
which objects were stored, with a native state or without one, and which ones were asked.  The objects of an arena that
have native states are those that have been used according to its history.

* `Instance.Continues` — what an object has become.
* `Arena.Made` and `Arena.Settled` — objects that have their native states.
* `Path.continues` — an object that stays.
* `Path.removals_eq_of_get?` — nothing was removed where a reference still reaches an object.
* `Arena.Use` — what is done about native states, and `Use.used`, whether it makes an object a used one.
* `Arena.Uses` — the changes of an arena, and the history that they make up.
* `Path.exists_uses` — every arena has a history.
* `Uses.isMaterialized_eq` — the objects with native states are the used ones.
-/

namespace ObjectBridge

/-- What an object has become: an object of the same class, with a native state if there was one. -/
structure Instance.Continues (i j : Instance) : Prop where
  cls_eq : j.cls = i.cls
  isMaterialized : i.isMaterialized = true → j.isMaterialized = true

theorem Instance.Continues.refl (i : Instance) : i.Continues i :=
  ⟨rfl, id⟩

theorem Instance.Continues.trans {i j k : Instance} (hij : i.Continues j) (hjk : j.Continues k) : i.Continues k :=
  ⟨hjk.cls_eq.trans hij.cls_eq, fun hmade => hjk.isMaterialized (hij.isMaterialized hmade)⟩

namespace Arena

/-- An object that has its native state. -/
def Made (r : Reference) (a : Arena) : Prop :=
  ∃ i, a.get? r = some i ∧ i.isMaterialized = true

/-- An object has the same native state in two arenas. -/
def Settled (r : Reference) (a a' : Arena) : Prop :=
  ∀ i i', a.get? r = some i → a'.get? r = some i' → i'.native = i.native

variable {a b : Arena} {r : Reference} {i j : Instance}

theorem made_of_materialize {state : NativeState} (hmat : a.materialize r state = .ok b) : Made r b := by
  obtain ⟨i, hi, ⟨hmade, rfl⟩ | ⟨-, rfl⟩⟩ := materialize_cases hmat
  · exact ⟨i, hi, hmade⟩
  · refine ⟨{ i with native := some state }, ?_, rfl⟩
    show (a.setOccupant r.slot { i with native := some state }).get? r = _
    rw [get?_setOccupant hi, if_pos rfl]

/-- The object of some reference is replaced by what it has become. -/
theorem continues_of_setOccupant {t : Reference} {k k' : Instance} (hk : a.get? t = some k)
    (hslots : b.slots = (a.setOccupant t.slot k').slots) (hnext : k.Continues k') (hi : a.get? r = some i) :
    ∃ j, b.get? r = some j ∧ i.Continues j := by
  have hget : b.get? r = (a.setOccupant t.slot k').get? r := get?_congr (by rw [hslots])
  rw [hget, get?_setOccupant hk]
  by_cases hsame : r = t
  · subst hsame
    obtain rfl := Option.some.inj (hi.symm.trans hk)
    exact ⟨k', if_pos rfl, hnext⟩
  · exact ⟨i, (if_neg hsame).trans hi, .refl i⟩

/-- An object stays at a step that removes nothing from its slot. -/
theorem Step.continues (hbal : a.Balanced) (hstep : Step a b) (hi : a.get? r = some i)
    (hsame : (b.slotAt r.slot).removals = (a.slotAt r.slot).removals) : ∃ j, b.get? r = some j ∧ i.Continues j := by
  cases hstep with
  | register new h hreg =>
      rw [get?_register hbal hreg]
      by_cases htarget : r = h.target
      · subst htarget
        exact absurd (occupied_iff_slotAt.mpr ⟨i, (get?_eq_some_iff_slotAt.mp hi).2⟩)
          (hbal.not_occupied_of_register hreg)
      · exact ⟨i, (if_neg htarget).trans hi, .refl i⟩
  | materialize t state hmat =>
      obtain ⟨k, hk, ⟨-, rfl⟩ | ⟨-, rfl⟩⟩ := materialize_cases hmat
      · exact ⟨i, hi, .refl i⟩
      · exact continues_of_setOccupant hk rfl ⟨rfl, fun _ => rfl⟩ hi
  | destroy t k hdes =>
      rw [slotAt_destroy? hdes] at hsame
      by_cases hslot : t.slot = r.slot
      · -- The slot of `r` would count one removal more.
        rw [if_pos hslot] at hsame
        exact absurd hsame (Nat.succ_ne_self _)
      · rw [get?_destroy? hdes, if_neg (Ne.symm hslot)]
        exact ⟨i, hi, .refl i⟩
  | keep h keep operation hkeep =>
      obtain ⟨k, hk, rfl⟩ := setKeep_cases hkeep
      exact continues_of_setOccupant hk rfl ⟨rfl, id⟩ hi
  | issue held t c h hissue =>
      obtain ⟨k, hk, ⟨-, -, -, serials, rfl⟩ | ⟨-, hfresh⟩⟩ := issue_cases hissue
      · exact ⟨i, hi, .refl i⟩
      · obtain ⟨anchor, next, serials, -, -, rfl⟩ := issueFresh_cases hfresh
        exact continues_of_setOccupant hk rfl ⟨rfl, id⟩ hi
  | flag p isConst => exact ⟨i, hi, .refl i⟩
  | contents houtline =>
      obtain ⟨j, hj, hij⟩ := get?_of_outline_eq houtline.symm hi
      refine ⟨j, hj, (congrArg Instance.cls hij :), fun hmade => ?_⟩
      rw [← Instance.isMaterialized_outline, hij, Instance.isMaterialized_outline, hmade]

/-- Slots count removals in every arena that the steps of arenas lead to. -/
theorem Numbered.path (hpath : Path a b) (hbal : a.Balanced) (hnum : a.Numbered) : b.Numbered := by
  have hstep (c d : Arena) (hcd : Step c d) (hc : c.Balanced ∧ c.Numbered) : d.Balanced ∧ d.Numbered :=
    ⟨hc.1.step hcd, hc.2.step hc.1 hcd⟩
  exact (hpath.preserves hstep ⟨hbal, hnum⟩).2

/-- Removals are never undone. -/
theorem Path.removals_le (hpath : Path a b) (hbal : a.Balanced) (slot : Nat) :
    (a.slotAt slot).removals ≤ (b.slotAt slot).removals := by
  induction hpath with
  | refl => exact Nat.le_refl _
  | tail hbefore hlast ih => exact ih.trans (hlast.removals_le (hbal.path hbefore) slot)

/-- An object stays as long as nothing is removed from its slot. -/
theorem Path.continues (hpath : Path a b) (hbal : a.Balanced) (hi : a.get? r = some i)
    (hsame : (b.slotAt r.slot).removals = (a.slotAt r.slot).removals) : ∃ j, b.get? r = some j ∧ i.Continues j := by
  induction hpath with
  | refl => exact ⟨i, hi, .refl i⟩
  | @tail c d hpath hlast ih =>
      have hfirst := Path.removals_le hpath hbal r.slot
      have hthen := hlast.removals_le (hbal.path hpath) r.slot
      obtain ⟨k, hk, hik⟩ := ih (Nat.le_antisymm (hsame ▸ hthen) hfirst)
      obtain ⟨j, hj, hkj⟩ := hlast.continues (hbal.path hpath) hk (by omega)
      exact ⟨j, hj, hik.trans hkj⟩

/-- An object that has its native state keeps one as long as nothing is removed from its slot. -/
theorem Path.made (hpath : Path a b) (hbal : a.Balanced) (hmade : Made r a)
    (hsame : (b.slotAt r.slot).removals = (a.slotAt r.slot).removals) : Made r b := by
  obtain ⟨i, hi, hstate⟩ := hmade
  obtain ⟨j, hj, hij⟩ := Path.continues hpath hbal hi hsame
  exact ⟨j, hj, hij.isMaterialized hstate⟩

/-- Nothing was removed from a slot where a reference still reaches an object, as long as the generations are not used
up. -/
theorem Path.removals_eq_of_get? (hpath : Path a b) (hbal : a.Balanced) (hnum : a.Numbered)
    (hfew : (b.slotAt r.slot).removals < 2 ^ 32) (hi : a.get? r = some i) (hj : b.get? r = some j) :
    (b.slotAt r.slot).removals = (a.slotAt r.slot).removals := by
  have hgrows := Path.removals_le hpath hbal r.slot
  have hword : UInt32.ofNat (a.slotAt r.slot).removals = UInt32.ofNat (b.slotAt r.slot).removals := by
    rw [← hnum r.slot, ← hnum.path hpath hbal r.slot, (get?_eq_some_iff_slotAt.mp hi).1,
      (get?_eq_some_iff_slotAt.mp hj).1]
  have hmod := ofNat_eq_ofNat_iff.mp hword
  rw [Nat.ModEq, Nat.mod_eq_of_lt hfew, Nat.mod_eq_of_lt (Nat.lt_of_le_of_lt hgrows hfew)] at hmod
  exact hmod.symm

/-- A reference that reaches an object at two times reaches the same object, as long as the generations of its slot are
not used up. -/
theorem Path.continues_of_get? (hpath : Path a b) (hbal : a.Balanced) (hnum : a.Numbered)
    (hfew : (b.slotAt r.slot).removals < 2 ^ 32) (hi : a.get? r = some i) (hj : b.get? r = some j) : i.Continues j := by
  obtain ⟨k, hk, hik⟩ := Path.continues hpath hbal hi (Path.removals_eq_of_get? hpath hbal hnum hfew hi hj)
  obtain rfl := Option.some.inj (hj.symm.trans hk)
  exact hik

end Arena

end ObjectBridge

/-! ## Histories -/

namespace ObjectBridge.Arena

/-- What is done about native states. -/
inductive Use where
  /-- An object is stored, with a native state or without one. -/
  | store (r : Reference) (made : Bool)
  /-- An object is asked for its native state. -/
  | ask (r : Reference)

namespace Use

/-- Whether an object is a used one after an entry of a history, given whether it was one before. -/
def after (r : Reference) (used : Bool) : Use → Bool
  | store t made => if t = r then made else used
  | ask t => t == r || used

/-- Whether an object has been used: it was stored with a native state, as copies are, or it was asked for one since it
was stored. -/
def used (r : Reference) (us : List Use) : Bool :=
  us.foldl (after r) false

theorem used_concat (r : Reference) (us : List Use) (u : Use) : used r (us ++ [u]) = u.after r (used r us) := by
  rw [used, List.foldl_append]
  rfl

/-- An object that takes the reference of a used one has not been used. -/
example : used ⟨0, 0⟩ [.store ⟨0, 0⟩ false, .ask ⟨0, 0⟩] = true ∧
    used ⟨0, 0⟩ [.store ⟨0, 0⟩ false, .ask ⟨0, 0⟩, .store ⟨0, 0⟩ false, .ask ⟨1, 0⟩] = false := by
  decide

end Use

/-- Every object of the later arena was in the earlier one, with a native state if it has one. -/
def KeepsNatives (a b : Arena) : Prop :=
  ∀ r i, b.get? r = some i → ∃ j, a.get? r = some j ∧ i.isMaterialized = j.isMaterialized

/-- Changes of an arena, one after the other, and the history that they make up. -/
inductive Uses : Arena → List Use → Arena → Prop
  | refl (a : Arena) : Uses a [] a
  | store {a b c : Arena} {us : List Use} (hpast : Uses a us b) (new : NewInstance) (h : Handle)
      (hreg : b.register new = .ok (h, c)) : Uses a (us ++ [.store h.target new.native.isSome]) c
  | ask {a b c : Arena} {us : List Use} (hpast : Uses a us b) (r : Reference) (state : NativeState)
      (hmat : b.materialize r state = .ok c) : Uses a (us ++ [.ask r]) c
  | keep {a b c : Arena} {us : List Use} (hpast : Uses a us b) (hstep : Step b c) (hkeeps : b.KeepsNatives c) :
      Uses a us c

variable {a b c : Arena} {us vs : List Use} {r : Reference} {i : Instance}

theorem Uses.path (h : Uses a us b) : Path a b := by
  induction h with
  | refl => exact .refl
  | store _ new h hreg ih => exact ih.tail (.register new h hreg)
  | ask _ r state hmat ih => exact ih.tail (.materialize r state hmat)
  | keep _ hstep _ ih => exact ih.tail hstep

/-! ## Every arena has a history -/

/-- An object is replaced by one that has a native state if the object has one. -/
theorem keepsNatives_of_setOccupant {t : Reference} {k k' : Instance} (hk : a.get? t = some k)
    (hslots : b.slots = (a.setOccupant t.slot k').slots) (hsame : k'.isMaterialized = k.isMaterialized) :
    a.KeepsNatives b := by
  intro r i hi
  have hget : b.get? r = (a.setOccupant t.slot k').get? r := get?_congr (by rw [hslots])
  rw [hget, get?_setOccupant hk] at hi
  by_cases hr : r = t
  · subst hr
    rw [if_pos rfl] at hi
    obtain rfl := Option.some.inj hi
    exact ⟨k, hk, hsame⟩
  · rw [if_neg hr] at hi
    exact ⟨i, hi, rfl⟩

/-- Every step stores an object, asks an object or leaves the native states alone. -/
theorem Step.exists_uses (hstep : Step a b) : ∃ us, Uses a us b := by
  have hkeep (hkeeps : a.KeepsNatives b) : ∃ us, Uses a us b := ⟨[], .keep (.refl a) hstep hkeeps⟩
  cases hstep with
  | register new h hreg => exact ⟨_, .store (.refl a) new h hreg⟩
  | materialize r state hmat => exact ⟨_, .ask (.refl a) r state hmat⟩
  | destroy t k hdes =>
      refine hkeep fun r i hi => ?_
      rw [get?_destroy? hdes] at hi
      split at hi
      · cases hi
      · exact ⟨i, hi, rfl⟩
  | keep h keep operation hset =>
      obtain ⟨k, hk, rfl⟩ := setKeep_cases hset
      exact hkeep (keepsNatives_of_setOccupant hk rfl rfl)
  | issue held t c h hissue =>
      obtain ⟨k, hk, ⟨-, -, -, serials, rfl⟩ | ⟨-, hfresh⟩⟩ := issue_cases hissue
      · exact hkeep fun r i hi => ⟨i, hi, rfl⟩
      · obtain ⟨anchor, next, serials, -, -, rfl⟩ := issueFresh_cases hfresh
        exact hkeep (keepsNatives_of_setOccupant hk rfl rfl)
  | flag p isConst => exact hkeep fun r i hi => ⟨i, hi, rfl⟩
  | contents houtline =>
      refine hkeep fun r i hi => ?_
      obtain ⟨j, hj, hij⟩ := get?_of_outline_eq houtline hi
      refine ⟨j, hj, ?_⟩
      rw [← Instance.isMaterialized_outline, ← hij, Instance.isMaterialized_outline]

theorem Uses.trans (h : Uses a us b) (hlater : Uses b vs c) : Uses a (us ++ vs) c := by
  induction hlater with
  | refl => rwa [List.append_nil]
  | store _ new h hreg ih =>
      rw [← List.append_assoc]
      exact ih.store new h hreg
  | ask _ r state hmat ih =>
      rw [← List.append_assoc]
      exact ih.ask r state hmat
  | keep _ hstep hkeeps ih => exact ih.keep hstep hkeeps

theorem Path.exists_uses (hpath : Path a b) : ∃ us, Uses a us b := by
  induction hpath with
  | refl => exact ⟨[], .refl a⟩
  | tail _ hlast ih =>
      obtain ⟨us, hus⟩ := ih
      obtain ⟨vs, hvs⟩ := hlast.exists_uses
      exact ⟨us ++ vs, hus.trans hvs⟩

/-! ## Used objects -/

/-- The objects that have native states are those that have been used. -/
theorem Uses.isMaterialized_eq (h : Uses {} us a) (hi : a.get? r = some i) : i.isMaterialized = Use.used r us := by
  induction h generalizing i with
  | refl => simp [get?] at hi
  | store hpast new h hreg ih =>
      rw [Use.used_concat, Use.after]
      -- The history of an earlier object under the same reference does not count.
      rw [get?_register (balanced_empty.path hpast.path) hreg] at hi
      by_cases hr : r = h.target
      · rw [if_pos hr] at hi
        rw [if_pos hr.symm, ← Option.some.inj hi]
        rfl
      · rw [if_neg hr] at hi
        rw [if_neg (Ne.symm hr)]
        exact ih hi
  | ask hpast t state hmat ih =>
      rw [Use.used_concat, Use.after]
      obtain ⟨k, hk, hcases⟩ := materialize_cases hmat
      -- Where the native state was there already, to ask for it changes nothing, and the object has been used before.
      by_cases hr : t = r
      · subst hr
        obtain ⟨j, hj, hmade⟩ := made_of_materialize hmat
        obtain rfl := Option.some.inj (hi.symm.trans hj)
        rw [hmade, beq_self_eq_true, Bool.true_or]
      · rw [beq_eq_false_iff_ne.mpr hr, Bool.false_or]
        refine ih ?_
        obtain ⟨-, rfl⟩ | ⟨-, rfl⟩ := hcases
        · exact hi
        · have hget := get?_setOccupant hk { k with native := some state } r
          rw [if_neg (Ne.symm hr)] at hget
          exact hget.symm.trans hi
  | keep hpast hstep hkeeps ih =>
      obtain ⟨j, hj, hsame⟩ := hkeeps r i hi
      rw [hsame]
      exact ih hj

end ObjectBridge.Arena
