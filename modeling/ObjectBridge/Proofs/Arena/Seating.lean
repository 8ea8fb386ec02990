import ObjectBridge.Proofs.Arena.Removal
import ObjectBridge.Proofs.Run.Success

/-!
# Seating is exact

A seat remembers the reference of the object that was seated last, while the object may be removed by
others, its slot may be used again, and any number of seats may be for it.  Seating acts on references, so
it removes at most the very object that was seated.

* `Arena.Spared` — an object that no sweep may take, and the operations that leave it so.
* `Seat.Exact` — what becomes of a seat and of every reference when something is seated.
* `Registry.history` — operations and sweeps in any order.
* `Registry.SeatedLast` — when the object of a seat was seated.
* `history_seats_exactly` — seating fails without a trace or does what it should, in every history.
-/

namespace ObjectBridge

/-! ## Objects that no sweep may take -/

namespace Arena

/-- The object of a reference is there, and no sweep may take it. -/
def Spared (a : Arena) (r : Reference) : Prop :=
  ∃ i, a.get? r = some i ∧ i.keep = .unmanaged

variable {a a' b : Arena} {r t : Reference} {i : Instance}

/-- Sweeps do not collect a spared object, whatever handles are in use. -/
theorem Spared.not_mem_collectable (hspared : a.Spared r) (held : List Handle) :
    r ∉ a.collectable held := by
  intro hmem
  obtain ⟨i, hi, hkeep⟩ := hspared
  obtain ⟨j, hj, hmanaged, -⟩ := mem_collectable_iff.mp hmem
  obtain rfl := Option.some.inj (hi.symm.trans hj)
  simp [hkeep] at hmanaged

/-- Some object is replaced by one that is kept no less. -/
theorem Spared.setOccupant (hspared : a.Spared r) (hi : a.get? t = some i) {j : Instance}
    (hslots : b.slots = (a.setOccupant t.slot j).slots)
    (hkeep : t = r → i.keep = .unmanaged → j.keep = .unmanaged) : b.Spared r := by
  have hsame : b.get? r = (a.setOccupant t.slot j).get? r := get?_congr (by rw [hslots])
  obtain ⟨k, hk, hunmanaged⟩ := hspared
  rw [Spared, hsame, get?_setOccupant hi]
  by_cases hrt : r = t
  · subst hrt
    obtain rfl := Option.some.inj (hi.symm.trans hk)
    exact ⟨j, if_pos rfl, hkeep rfl hunmanaged⟩
  · exact ⟨k, by rw [if_neg hrt, hk], hunmanaged⟩

theorem Spared.register (hspared : a.Spared r) {new : NewInstance} {h : Handle}
    (hbal : a.Balanced) (hreg : a.register new = .ok (h, a')) : a'.Spared r := by
  obtain ⟨i, hi, hkeep⟩ := hspared
  -- The new object takes a slot without an object.
  have hother : r ≠ h.target := by
    rintro rfl
    apply hbal.not_occupied_of_register hreg
    exact occupied_iff_slotAt.mpr ⟨i, (get?_eq_some_iff_slotAt.mp hi).2⟩
  exact ⟨i, by rw [get?_register hbal hreg, if_neg hother, hi], hkeep⟩

theorem Spared.materialize (hspared : a.Spared r) {state : NativeState}
    (hmat : a.materialize t state = .ok a') : a'.Spared r := by
  obtain ⟨i, hi, ⟨-, rfl⟩ | ⟨-, rfl⟩⟩ := materialize_cases hmat
  · exact hspared
  · exact hspared.setOccupant hi rfl fun _ hkeep => hkeep

theorem Spared.destroy? (hspared : a.Spared r) (hdes : a.destroy? t = some (i, a'))
    (hother : r ≠ t) : a'.Spared r := by
  obtain ⟨j, hj, hkeep⟩ := hspared
  exact ⟨j, by rw [get?_destroy?_eq hdes, if_neg hother, hj], hkeep⟩

/-- Only an object that is managed on purpose is not spared any more. -/
theorem Spared.setKeep (hspared : a.Spared r) {h : Handle} {keep : Keep} {operation : String}
    (hset : a.setKeep h keep operation = .ok a') (hkeep : h.target = r → keep = .unmanaged) :
    a'.Spared r := by
  obtain ⟨i, hi, rfl⟩ := setKeep_cases hset
  exact hspared.setOccupant hi rfl fun hsame _ => hkeep hsame

theorem Spared.issue (hspared : a.Spared r) {held : List Handle} {c : Constness} {h : Handle}
    (hissue : a.issue held t c = some (h, a')) : a'.Spared r := by
  obtain ⟨i, hi, ⟨-, -, -, serials, rfl⟩ | ⟨-, hfresh⟩⟩ := issue_cases hissue
  · exact hspared
  · obtain ⟨anchor, next, serials, -, -, rfl⟩ := issueFresh_cases hfresh
    exact hspared.setOccupant hi rfl fun _ hkeep => hkeep

theorem Spared.modify (hspared : a.Spared r) {f : Instance → Instance}
    (hf : ∀ i, (f i).keep = i.keep) : (a.modify t f).Spared r := by
  rcases modify_eq a t f with ⟨i, hi, heq⟩ | ⟨-, heq⟩
  · rw [heq]
    exact hspared.setOccupant hi rfl fun _ hkeep => (hf i).trans hkeep
  · rw [heq]
    exact hspared

end Arena

/-! ## One seat -/

namespace Seat

variable {s s' : Seat} {a a' : Arena} {next : Option Handle} {evicted : Option Instance}

/-- The seat was for the object of a reference, and is to be for something else. -/
def Leaves (s : Seat) (next : Option Handle) (r : Reference) : Prop :=
  s.occupant = some r ∧ next.map Handle.target ≠ some r

/-- What becomes of a seat and of the arena when an object, or nothing, is seated: the seat is for it,
the object that has to leave is removed if it is still there, and no other object is removed. -/
structure Exact (s s' : Seat) (a a' : Arena) (next : Option Handle) (evicted : Option Instance) :
    Prop where
  occupant : s'.occupant = next.map Handle.target
  /-- What is removed is the object seated before, if it is still there and another one comes. -/
  evicted_iff : ∀ i, evicted = some i ↔ ∃ r, s.Leaves next r ∧ a.get? r = some i
  left : ∀ r, s.Leaves next r → a'.get? r = none
  /-- An object that comes is there, and no sweep may take it from now on. -/
  seated : ∀ h, next = some h → s.occupant ≠ some h.target →
    ∃ i, a.get? h.target = some i ∧ a'.get? h.target = some { i with keep := .unmanaged }
  /-- Seating the object that was seated last changes nothing. -/
  again : ∀ h, next = some h → s.occupant = some h.target → a' = a
  others : ∀ r, s.occupant ≠ some r → next.map Handle.target ≠ some r → a'.get? r = a.get? r

/-- Seating fails exactly for an object that is gone and is not the one that was seated last. -/
theorem install_eq_error_iff {e : Error} :
    s.install a next = .error e ↔
      ∃ h, next = some h ∧ s.occupant ≠ some h.target ∧ a.get? h.target = none ∧
        e = Arena.useAfterFree h "install" := by
  cases next with
  | none => simp [install]
  | some h =>
      simp only [install, Option.some.injEq, exists_eq_left']
      by_cases hsame : s.occupant = some h.target
      · simp [hsame]
      · cases hget : a.get? h.target with
        | none =>
            simp only [hsame, if_false, Arena.setKeep, Arena.resolve, hget, bind, Except.bind,
              Except.error.injEq, ne_eq, not_false_eq_true, true_and]
            exact eq_comm
        | some i =>
            simp [hsame, Arena.setKeep, Arena.resolve, hget, bind, Except.bind, pure, Except.pure]

/-- An object that is there can be seated. -/
theorem exists_install_of_isLive {h : Handle} (hlive : a.isLive h.target = true) :
    ∃ outcome, s.install a (some h) = .ok outcome := by
  cases hins : s.install a (some h) with
  | ok outcome => exact ⟨outcome, rfl⟩
  | error e =>
      obtain ⟨k, hk, -, hgone, -⟩ := install_eq_error_iff.mp hins
      obtain rfl := Option.some.inj hk
      simp [Arena.isLive, hgone] at hlive

/-- An eviction removes the object of the reference that the seat remembers, if it is still there. -/
theorem evict_exact (hev : s.evict a = (evicted, a')) :
    (∀ i, evicted = some i ↔ ∃ r, s.occupant = some r ∧ a.get? r = some i) ∧
      ∀ r, a'.get? r = if s.occupant = some r then none else a.get? r := by
  cases hocc : s.occupant with
  | none =>
      simp only [evict, hocc, Option.bind_none, Prod.mk.injEq] at hev
      obtain ⟨rfl, rfl⟩ := hev
      simp
  | some t =>
      cases hdes : a.destroy? t with
      | none =>
          simp only [evict, hocc, Option.bind_some, hdes, Prod.mk.injEq] at hev
          obtain ⟨rfl, rfl⟩ := hev
          have hgone : a.get? t = none := Arena.destroy?_eq_none_iff.mp hdes
          constructor
          · simp [hgone]
          · intro r
            by_cases htr : t = r
            · rw [← htr, if_pos rfl, hgone]
            · rw [if_neg (by simpa using htr)]
      | some removed =>
          simp only [evict, hocc, Option.bind_some, hdes, Prod.mk.injEq] at hev
          obtain ⟨rfl, rfl⟩ := hev
          have hi : a.get? t = some removed.1 := (Arena.destroy?_cases hdes).1
          constructor
          · simp [hi]
          · intro r
            rw [Arena.get?_destroy?_eq hdes]
            simp [eq_comm]

/-- Leaving a seat empty. -/
theorem exact_of_install_none (hins : s.install a none = .ok (evicted, s', a')) :
    s.Exact s' a a' none evicted := by
  simp only [install, Except.ok.injEq, Prod.mk.injEq] at hins
  obtain ⟨hremoved, rfl, hleft⟩ := hins
  obtain ⟨hevicted, hget⟩ := evict_exact (Prod.ext hremoved hleft)
  constructor
  case occupant => rfl
  case evicted_iff => simpa [Leaves] using hevicted
  case left =>
    intro r hr
    rw [hget, if_pos hr.1]
  case seated => simp
  case again => simp
  case others =>
    intro r hother _
    rw [hget, if_neg hother]

/-- Seating an object that was not seated last: it is spared first, and then the other one leaves. -/
theorem exact_of_install_other {h : Handle} (hother : s.occupant ≠ some h.target)
    (hins : s.install a (some h) = .ok (evicted, s', a')) : s.Exact s' a a' (some h) evicted := by
  rw [install, if_neg hother] at hins
  obtain ⟨b, hset, hevict⟩ := bind_eq_ok_iff.mp hins
  simp only [pure, Except.pure, Except.ok.injEq, Prod.mk.injEq] at hevict
  obtain ⟨hremoved, rfl, hleft⟩ := hevict
  obtain ⟨hevicted, hget⟩ := evict_exact (Prod.ext hremoved hleft)
  obtain ⟨i, hi, rfl⟩ := Arena.setKeep_cases hset
  -- Before the eviction only the new occupant changes.
  have hkept (r : Reference) (hr : r ≠ h.target) :
      (a.setOccupant h.target.slot { i with keep := .unmanaged }).get? r = a.get? r := by
    rw [Arena.get?_setOccupant hi, if_neg hr]
  have hleaves {r : Reference} (hr : s.occupant = some r) : r ≠ h.target := by
    rintro rfl
    exact hother hr
  constructor
  case occupant => rfl
  case evicted_iff =>
    intro j
    rw [hevicted]
    refine exists_congr fun r => ?_
    constructor
    · rintro ⟨hocc, hj⟩
      have hr := hleaves hocc
      rw [hkept r hr] at hj
      exact ⟨⟨hocc, by simpa using hr.symm⟩, hj⟩
    · rintro ⟨⟨hocc, -⟩, hj⟩
      exact ⟨hocc, by rw [hkept r (hleaves hocc), hj]⟩
  case left =>
    intro r hr
    rw [hget, if_pos hr.1]
  case seated =>
    intro k hk _
    obtain rfl := Option.some.inj hk
    refine ⟨i, hi, ?_⟩
    rw [hget, if_neg hother, Arena.get?_setOccupant hi, if_pos rfl]
  case again =>
    intro k hk hsame
    obtain rfl := Option.some.inj hk
    exact absurd hsame hother
  case others =>
    intro r hocc hr
    rw [hget, if_neg hocc, hkept r]
    rintro rfl
    exact hr rfl

/-- Seating is exact whenever it succeeds. -/
theorem exact_of_install (hins : s.install a next = .ok (evicted, s', a')) :
    s.Exact s' a a' next evicted := by
  cases next with
  | none => exact exact_of_install_none hins
  | some h =>
      by_cases hsame : s.occupant = some h.target
      · simp only [install, if_pos hsame, Except.ok.injEq, Prod.mk.injEq] at hins
        obtain ⟨rfl, rfl, rfl⟩ := hins
        constructor
        case occupant => exact hsame
        case evicted_iff =>
          -- Nobody leaves a seat that stays for the same object.
          intro i
          simp [Leaves, hsame]
        case left =>
          rintro r ⟨hocc, hr⟩
          exact absurd (hsame.symm.trans hocc) hr
        case seated =>
          intro k hk hother
          obtain rfl := Option.some.inj hk
          exact absurd hsame hother
        case again => exact fun _ _ _ => rfl
        case others => exact fun _ _ _ => rfl
      · exact exact_of_install_other hsame hins

/-- Seating an object leaves it there. -/
theorem Exact.isLive (hexact : s.Exact s' a a' next evicted) {h : Handle} (hnext : next = some h)
    (hlive : a.isLive h.target = true) : a'.isLive h.target = true := by
  by_cases hsame : s.occupant = some h.target
  · rw [hexact.again h hnext hsame]
    exact hlive
  · obtain ⟨i, -, hi⟩ := hexact.seated h hnext hsame
    exact Arena.isLive_iff.mpr ⟨_, hi⟩

/-- Seating an object that was not seated last spares it from sweeps. -/
theorem Exact.spared (hexact : s.Exact s' a a' next evicted) {h : Handle} (hnext : next = some h)
    (hother : s.occupant ≠ some h.target) : a'.Spared h.target := by
  obtain ⟨i, -, hi⟩ := hexact.seated h hnext hother
  exact ⟨_, hi, rfl⟩

/-- The handle that a seat gives is for the object it is for, which is there. -/
theorem exists_current (hanch : a.Anchored) {r : Reference} (hocc : s.occupant = some r)
    (hlive : a.isLive r = true) (held : List Handle) :
    ∃ k b, s.current a held = some (k, b) ∧ k.target = r := by
  obtain ⟨⟨k, b⟩, hissue⟩ := ((Arena.acceptsIff_isLive a r).issue held .nonConst).mpr hlive
  exact ⟨k, b, by rw [current, hocc, Option.bind_some, hissue], hanch.target_of_issue hissue⟩

end Seat

namespace Lifetime

/-- Seating by the program is seating in its arena, and one that fails leaves the whole state as it is. -/
theorem outcome_install (cls : ClassId) (name : String) (next : Option Handle) (s : State) :
    (install cls name next).outcome s =
      match (s.seat cls name).install s.arena next with
      | .error e => (.error (.raised e), s)
      | .ok (_, seat, arena) =>
          (.ok (), { s with seats := put (cls, name) seat s.seats, arena := arena }) := by
  rw [install, Run.outcome_get_bind]
  cases hins : (s.seat cls name).install s.arena next with
  | error e => rfl
  | ok outcome => rfl

end Lifetime

namespace Registry

/-! ## Histories with sweeps -/

/-- What happens to a registry: an operation, or a pass of a sweep while some handles are in use. -/
inductive Action
  | operation (op : Operation)
  | sweep (held : List Handle)

/-- The operations of an action.  A pass removes the objects that it collects before the first removal. -/
def operations (g : Registry) : Action → List Operation
  | .operation op => [op]
  | .sweep held => (g.arena.collectable held).map .destroyReference

/-- Perform an action. -/
def act (g : Registry) (x : Action) : Registry :=
  (g.operations x).foldl step g

/-- Perform actions on the empty registry, one after the other. -/
def history (xs : List Action) : Registry :=
  xs.foldl act {}

variable {g : Registry} {seat : Nat} {r : Reference}

theorem history_append (xs ys : List Action) : history (xs ++ ys) = ys.foldl act (history xs) := by
  rw [history, history, List.foldl_append]

theorem history_concat (xs : List Action) (x : Action) :
    history (xs ++ [x]) = (history xs).act x :=
  history_append xs [x]

theorem exists_foldl_act (g : Registry) (xs : List Action) :
    ∃ ops : List Operation, xs.foldl act g = ops.foldl step g := by
  induction xs generalizing g with
  | nil => exact ⟨[], rfl⟩
  | cons x xs ih =>
      obtain ⟨ops, hops⟩ := ih (g.act x)
      refine ⟨g.operations x ++ ops, ?_⟩
      rw [List.foldl_cons, hops, List.foldl_append]
      rfl

/-- A history is a run, and a longer history is a longer run. -/
theorem exists_run (xs ys : List Action) :
    ∃ before after, history xs = run before ∧ history (xs ++ ys) = run (before ++ after) := by
  obtain ⟨before, hfirst⟩ := exists_foldl_act {} xs
  obtain ⟨after, hafter⟩ := exists_foldl_act (history xs) ys
  have hbefore : history xs = run before := hfirst
  refine ⟨before, after, hbefore, ?_⟩
  rw [history_append, hafter, run_append, hbefore]

theorem balanced_arena_history (xs : List Action) : (history xs).arena.Balanced := by
  obtain ⟨ops, -, hops, -⟩ := exists_run xs []
  rw [hops]
  exact balanced_arena_run ops

theorem anchored_arena_history (xs : List Action) : (history xs).arena.Anchored := by
  obtain ⟨ops, -, hops, -⟩ := exists_run xs []
  rw [hops]
  exact anchored_arena_run ops

/-- Removals by reference leave the arena without the objects. -/
theorem arena_destroyReferences (rs : List Reference) (g : Registry) :
    ((rs.map .destroyReference).foldl step g).arena = g.arena.without rs := by
  induction rs generalizing g with
  | nil => rfl
  | cons r rest ih =>
      rw [List.map_cons, List.foldl_cons, ih]
      cases hdes : g.arena.destroy? r with
      | none => rw [Arena.without_cons_of_gone hdes, step, hdes]
      | some removed => rw [Arena.without_cons_of_destroy? hdes, step, hdes]; rfl

/-- A pass leaves the arena that a pass of the program's sweep leaves. -/
theorem arena_act_sweep (g : Registry) (held : List Handle) :
    (g.act (.sweep held)).arena =
      (Lifetime.removeAll g.arena 0 (g.arena.collectable held)).1 := by
  rw [Lifetime.removeAll_collectable]
  exact arena_destroyReferences _ g

/-! ## Spared objects in a history -/

/-- An operation leaves an object spared, as long as it does not let sweeps take it, or removes it. -/
theorem spared_or_removed_step (hbal : g.arena.Balanced) (hspared : g.arena.Spared r) (op : Operation)
    (hkept : ∀ h operation, op = .setKeep h .managed operation → h.target ≠ r) :
    (g.step op).arena.Spared r ∨ g.removals r.slot < (g.step op).removals r.slot := by
  cases op with
  | register new =>
      simp only [step]
      cases hreg : g.arena.register new with
      | error e => exact Or.inl hspared
      | ok outcome => exact Or.inl (hspared.register hbal hreg)
  | materialize t state =>
      simp only [step]
      cases hmat : g.arena.materialize t state with
      | error e => exact Or.inl hspared
      | ok a => exact Or.inl (hspared.materialize hmat)
  | destroy h =>
      simp only [step]
      cases hdes : g.arena.destroy h with
      | error e => exact Or.inl hspared
      | ok outcome =>
          by_cases hsame : r = h.target
          · subst hsame
            exact Or.inr (by simp [withRemoval])
          · exact Or.inl (hspared.destroy? (Arena.destroy_eq_ok_iff.mp hdes) hsame)
  | destroyReference t =>
      simp only [step]
      cases hdes : g.arena.destroy? t with
      | none => exact Or.inl hspared
      | some outcome =>
          by_cases hsame : r = t
          · subst hsame
            exact Or.inr (by simp [withRemoval])
          · exact Or.inl (hspared.destroy? hdes hsame)
  | setKeep h keep operation =>
      simp only [step]
      cases hset : g.arena.setKeep h keep operation with
      | error e => exact Or.inl hspared
      | ok a =>
          refine Or.inl (hspared.setKeep hset ?_)
          intro hsame
          cases keep with
          | managed => exact absurd hsame (hkept h operation rfl)
          | unmanaged => rfl
  | issue held t c =>
      simp only [step]
      cases hissue : g.arena.issue held t c with
      | none => exact Or.inl hspared
      | some outcome => exact Or.inl (hspared.issue hissue)
  | changeHandlers t event f => exact Or.inl (hspared.modify fun _ => rfl)
  | changeNative t f => exact Or.inl (hspared.modify fun _ => rfl)
  | install seat next =>
      simp only [step]
      cases hins : (g.seats seat).install g.arena next with
      | error e => exact Or.inl hspared
      | ok outcome =>
          obtain ⟨evicted, seated, a⟩ := outcome
          obtain ⟨b, hfrozen, hevicted⟩ := Seat.install_cases hins
          have hb : b.Spared r := by
            rcases hfrozen with rfl | ⟨h, -, hset⟩
            · exact hspared
            · exact hspared.setKeep hset fun _ => rfl
          rcases hevicted with ⟨-, rfl⟩ | ⟨t, i, hseat, hdes, rfl⟩
          · exact Or.inl (by simpa only [arena_withSeat] using hb)
          · by_cases hsame : r = t
            · subst hsame
              exact Or.inr (by simp [removals_withSeat, hseat])
            · exact Or.inl (by simpa only [arena_withSeat] using hb.destroy? hdes hsame)

/-- An operation does not take removals back. -/
theorem removals_le_step (hbal : g.arena.Balanced) (hg : g.Remembers) (op : Operation) (slot : Nat) :
    g.removals slot ≤ (g.step op).removals slot := by
  rw [hg slot, hg.step op slot]
  have hstep (a a' : Arena) (h : Arena.Step a a')
      (ha : a.Balanced ∧ (g.arena.slotAt slot).removals ≤ (a.slotAt slot).removals) :
      a'.Balanced ∧ (g.arena.slotAt slot).removals ≤ (a'.slotAt slot).removals :=
    ⟨ha.1.step h, ha.2.trans (h.removals_le ha.1 slot)⟩
  exact ((step_path g op).preserves hstep ⟨hbal, Nat.le_refl _⟩).2

/-- After `removals` removals from its slot an object was spared, and it still is, unless another removal
took it away. -/
structure Keeps (g : Registry) (r : Reference) (removals : Nat) : Prop where
  balanced : g.arena.Balanced
  remembers : g.Remembers
  spared_or_removed : (removals ≤ g.removals r.slot ∧ g.arena.Spared r) ∨ removals < g.removals r.slot

theorem Keeps.step {removals : Nat} (hg : g.Keeps r removals) (op : Operation)
    (hkept : ∀ h operation, op = .setKeep h .managed operation → h.target ≠ r) :
    (g.step op).Keeps r removals := by
  have hle := removals_le_step hg.balanced hg.remembers op r.slot
  refine ⟨hg.balanced.path (step_path g op), hg.remembers.step op, ?_⟩
  rcases hg.spared_or_removed with ⟨hold, hspared⟩ | hmore
  · rcases spared_or_removed_step hg.balanced hspared op hkept with hnew | hgrows
    · exact Or.inl ⟨hold.trans hle, hnew⟩
    · exact Or.inr (Nat.lt_of_le_of_lt hold hgrows)
  · exact Or.inr (Nat.lt_of_lt_of_le hmore hle)

theorem Keeps.foldl {removals : Nat} (hg : g.Keeps r removals) (ops : List Operation)
    (hkept : ∀ h operation, .setKeep h .managed operation ∈ ops → h.target ≠ r) :
    (ops.foldl Registry.step g).Keeps r removals := by
  induction ops generalizing g with
  | nil => exact hg
  | cons op ops ih =>
      have hfirst := hg.step op fun h operation heq =>
        hkept h operation (heq ▸ List.mem_cons_self)
      exact ih hfirst fun h operation hmem => hkept h operation (List.mem_cons_of_mem op hmem)

/-- Sweeps set no ownership, so only an operation can let sweeps take an object. -/
theorem Keeps.history {removals : Nat} (hg : g.Keeps r removals) (xs : List Action)
    (hkept : ∀ h operation, .operation (.setKeep h .managed operation) ∈ xs → h.target ≠ r) :
    (xs.foldl act g).Keeps r removals := by
  induction xs generalizing g with
  | nil => exact hg
  | cons x xs ih =>
      have hfirst : (g.act x).Keeps r removals := by
        refine hg.foldl (g.operations x) ?_
        intro h operation hmem
        cases x with
        | operation op =>
            obtain rfl := List.mem_singleton.mp hmem
            exact hkept h operation List.mem_cons_self
        | sweep held => simp [operations] at hmem
      exact ih hfirst fun h operation hmem => hkept h operation (List.mem_cons_of_mem x hmem)

/-! ## When the object of a seat was seated -/

theorem seats_withSeat (g : Registry) (seat : Nat) (outcome : Option Instance × Seat × Arena) :
    (g.withSeat seat outcome).seats = Function.update g.seats seat outcome.2.1 := by
  obtain ⟨evicted, next, a⟩ := outcome
  cases evicted with
  | none => rfl
  | some i => cases hseat : (g.seats seat).occupant <;> simp [withSeat, hseat, withRemoval, withArena]

/-- An operation that is no seating leaves all seats as they are. -/
theorem seats_step (g : Registry) (op : Operation) (hother : ∀ seat next, op ≠ .install seat next) :
    (g.step op).seats = g.seats := by
  cases op with
  | install seat next => exact absurd rfl (hother seat next)
  | changeHandlers t event f => rfl
  | changeNative t f => rfl
  | _ =>
      simp only [step]
      split <;> rfl

theorem seats_destroyReferences (rs : List Reference) (g : Registry) :
    ((rs.map .destroyReference).foldl step g).seats = g.seats := by
  induction rs generalizing g with
  | nil => rfl
  | cons t rest ih =>
      rw [List.map_cons, List.foldl_cons, ih]
      exact seats_step g _ fun seat next h => by cases h

/-- A seat that is for an object was for it before, or the object is seated now, and is there. -/
theorem occupant_act {x : Action} (hocc : ((g.act x).seats seat).occupant = some r) :
    (g.seats seat).occupant = some r ∨
      ∃ h, x = .operation (.install seat (some h)) ∧ h.target = r ∧ g.arena.isLive r = true ∧
        (g.seats seat).occupant ≠ some r := by
  by_cases hbefore : (g.seats seat).occupant = some r
  · exact Or.inl hbefore
  · refine Or.inr ?_
    cases x with
    | sweep held =>
        have hsame : (g.act (.sweep held)).seats = g.seats := seats_destroyReferences _ g
        rw [hsame] at hocc
        exact absurd hocc hbefore
    | operation op =>
        change ((g.step op).seats seat).occupant = some r at hocc
        cases op with
        | install other next =>
            simp only [step] at hocc
            cases hins : (g.seats other).install g.arena next with
            | error e =>
                rw [hins] at hocc
                exact absurd hocc hbefore
            | ok outcome =>
                obtain ⟨evicted, s', a'⟩ := outcome
                simp only [hins, seats_withSeat] at hocc
                by_cases hseat : seat = other
                · subst hseat
                  rw [Function.update_self, (Seat.exact_of_install hins).occupant] at hocc
                  obtain ⟨h, rfl, rfl⟩ := Option.map_eq_some_iff.mp hocc
                  obtain ⟨i, hi, -⟩ := (Seat.exact_of_install hins).seated h rfl hbefore
                  exact ⟨h, rfl, rfl, Arena.isLive_iff.mpr ⟨i, hi⟩, hbefore⟩
                · rw [Function.update_of_ne hseat] at hocc
                  exact absurd hocc hbefore
        | _ =>
            rw [seats_step g _ fun seat next h => by cases h] at hocc
            exact absurd hocc hbefore

/-- An object was seated after the actions `before`, when it was there and the seat was not for it, and the
seat was for it ever since. -/
structure SeatedLast (actions before after : List Action) (seat : Nat) (h : Handle) : Prop where
  actions_eq : actions = before ++ .operation (.install seat (some h)) :: after
  isLive : (history before).arena.isLive h.target = true
  comes : ((history before).seats seat).occupant ≠ some h.target
  stays : ∀ between rest, after = between ++ rest →
    ((history (before ++ .operation (.install seat (some h)) :: between)).seats seat).occupant =
      some h.target

/-- After the seating the object is spared. -/
theorem SeatedLast.keeps {actions before after : List Action} {h : Handle}
    (hlast : SeatedLast actions before after seat h) :
    ((history before).act (.operation (.install seat (some h)))).Keeps h.target
      ((history before).removals h.target.slot) := by
  obtain ⟨ops, -, hops, -⟩ := exists_run before []
  have hremembers : (history before).Remembers := by
    rw [hops]
    exact remembers_run ops
  have hbal := balanced_arena_history before
  have hseated : (history before).act (.operation (.install seat (some h))) =
      (history before).step (.install seat (some h)) := rfl
  rw [hseated]
  refine ⟨hbal.path (step_path _ _), hremembers.step _, Or.inl ⟨?_, ?_⟩⟩
  · exact removals_le_step hbal hremembers _ _
  · obtain ⟨⟨evicted, s', a'⟩, hins⟩ :=
      Seat.exists_install_of_isLive (s := (history before).seats seat) hlast.isLive
    simp only [step, hins, arena_withSeat]
    exact (Seat.exact_of_install hins).spared rfl hlast.comes

/-- What a seat is for was seated at some time, and stayed seated. -/
theorem exists_seatedLast (actions : List Action) (seat : Nat) (r : Reference)
    (hocc : ((history actions).seats seat).occupant = some r) :
    ∃ before h after, h.target = r ∧ SeatedLast actions before after seat h := by
  induction actions using List.reverseRecOn with
  | nil => simp [history] at hocc
  | append_singleton actions x ih =>
      have hnow := hocc
      rw [history_concat] at hocc
      rcases occupant_act hocc with hbefore | ⟨h, rfl, rfl, hlive, hcomes⟩
      · obtain ⟨before, h, after, rfl, hlast⟩ := ih hbefore
        refine ⟨before, h, after ++ [x], rfl, ⟨?_, hlast.isLive, hlast.comes, ?_⟩⟩
        · rw [hlast.actions_eq, List.append_assoc, List.cons_append]
        · -- The moments since the seating are the earlier ones and the one after `x`.
          intro between rest hsplit
          rcases List.eq_nil_or_concat rest with rfl | ⟨rest, y, rfl⟩
          · rw [List.append_nil] at hsplit
            rw [← hsplit, ← List.cons_append, ← List.append_assoc, ← hlast.actions_eq]
            exact hnow
          · rw [List.concat_eq_append, ← List.append_assoc] at hsplit
            exact hlast.stays between rest (List.append_inj_left' hsplit rfl)
      · refine ⟨actions, h, [], rfl, ⟨rfl, hlive, hcomes, ?_⟩⟩
        intro between rest hsplit
        obtain ⟨rfl, -⟩ := List.append_eq_nil_iff.mp hsplit.symm
        exact hnow

/-- As long as the generations of its slot are not used up, what was seated is there exactly if nothing
was removed from the slot since, so nothing that came later is taken for it. -/
theorem SeatedLast.isLive_iff {actions before after : List Action} {h : Handle}
    (hlast : SeatedLast actions before after seat h)
    (hfew : (history actions).removals h.target.slot < 2 ^ 32) :
    (history actions).arena.isLive h.target = true ↔
      (history actions).removals h.target.slot = (history before).removals h.target.slot := by
  obtain ⟨ops, more, hbefore, hnow⟩ :=
    exists_run before (.operation (.install seat (some h)) :: after)
  rw [← hlast.actions_eq] at hnow
  have hlive := hlast.isLive
  rw [hbefore] at hlive ⊢
  rw [hnow] at hfew ⊢
  rw [(acceptsIff_later ops more hlive).isLive]
  obtain ⟨hle, hocc⟩ := removals_le_and_occupied ops more h.target.slot
  constructor
  · rintro ⟨-, hmod⟩
    rw [Nat.ModEq, Nat.mod_eq_of_lt hfew, Nat.mod_eq_of_lt (hle.trans_lt hfew)] at hmod
    exact hmod.symm
  · intro heq
    obtain ⟨i, hi⟩ := Arena.isLive_iff.mp hlive
    have hfilled := Arena.occupied_iff_slotAt.mpr ⟨i, (Arena.get?_eq_some_iff_slotAt.mp hi).2⟩
    rcases hocc hfilled with hstill | hmore
    · exact ⟨hstill, by rw [heq]⟩
    · omega

/-- As long as nobody lets sweeps take what was seated, no sweep collects it. -/
theorem SeatedLast.not_mem_collectable {actions before after : List Action} {h : Handle}
    (hlast : SeatedLast actions before after seat h)
    (hfew : (history actions).removals h.target.slot < 2 ^ 32)
    (hkept : ∀ k operation, .operation (.setKeep k .managed operation) ∈ after → k.target ≠ h.target)
    (held : List Handle) : h.target ∉ (history actions).arena.collectable held := by
  have hkeeps := hlast.keeps.history after hkept
  rw [← List.foldl_cons, ← history_append, ← hlast.actions_eq] at hkeeps
  rcases hkeeps.spared_or_removed with ⟨-, hspared⟩ | hmore
  · exact hspared.not_mem_collectable held
  · -- The object was removed, so there is nothing to collect.
    intro hmem
    have hsame := (hlast.isLive_iff hfew).mp (Arena.isLive_of_mem_collectable hmem)
    omega

/-- Seating is exact and leaves no trace when it fails.  It fails exactly for an object that is gone and
is not the one seated last; then the registry is as it was, and so is every state of the program with
this arena and this seat.  An object that is there can be seated; afterwards the seat gives handles for
it, and it is still there.  An empty seat gives none.  Of all objects, the one seated before is removed,
if it is still there and another one comes, and no other one changes.  It is the very object that was
seated, as long as the generations of its slot are not used up, and no sweep takes it unless somebody
let sweeps take it after it was seated. -/
theorem history_seats_exactly (actions : List Action) (seat : Nat) (next : Option Handle) :
    let g := history actions
    let g' := g.step (.install seat next)
    (∀ e, (g.seats seat).install g.arena next = .error e →
        g' = g ∧
        (∃ h, next = some h ∧ (g.seats seat).occupant ≠ some h.target ∧
          g.arena.isLive h.target = false ∧ e = Arena.useAfterFree h "install") ∧
        ∀ (s : State) (cls : ClassId) (name : String), s.arena = g.arena →
          s.seat cls name = g.seats seat →
          (Lifetime.install cls name next).outcome s = (.error (.raised e), s)) ∧
      (∀ h, next = some h → g.arena.isLive h.target = true →
        (∃ outcome, (g.seats seat).install g.arena next = .ok outcome) ∧
        g'.arena.isLive h.target = true ∧
        ((g.seats seat).occupant ≠ some h.target → g'.arena.Spared h.target) ∧
        ∀ held, ∃ k a, (g'.seats seat).current g'.arena held = some (k, a) ∧
          k.target = h.target) ∧
      (next = none → (g'.seats seat).occupant = none ∧
        ∀ held, (g'.seats seat).current g'.arena held = none) ∧
      (∀ evicted s' a', (g.seats seat).install g.arena next = .ok (evicted, s', a') →
        g'.arena = a' ∧ g'.seats = Function.update g.seats seat s' ∧
        (g.seats seat).Exact s' g.arena a' next evicted) ∧
      (∀ r, (g.seats seat).occupant = some r →
        ∃ before h after, h.target = r ∧ SeatedLast actions before after seat h ∧
          (g.removals r.slot < 2 ^ 32 →
            (g.arena.isLive r = true ↔ g.removals r.slot = (history before).removals r.slot) ∧
            ((∀ k operation, .operation (.setKeep k .managed operation) ∈ after → k.target ≠ r) →
              ∀ held, r ∉ g.arena.collectable held ∧
                (g.act (.sweep held)).arena.get? r = g.arena.get? r))) := by
  intro g g'
  have hok : ∀ evicted s' a', (g.seats seat).install g.arena next = .ok (evicted, s', a') →
      g'.arena = a' ∧ g'.seats = Function.update g.seats seat s' ∧
        (g.seats seat).Exact s' g.arena a' next evicted := by
    intro evicted s' a' hins
    simp only [g', step, hins, arena_withSeat, seats_withSeat, true_and]
    exact Seat.exact_of_install hins
  refine ⟨?_, ?_, ?_, hok, ?_⟩
  · intro e hins
    refine ⟨by simp only [g', step, hins], ?_, ?_⟩
    · obtain ⟨h, hnext, hother, hgone, he⟩ := Seat.install_eq_error_iff.mp hins
      exact ⟨h, hnext, hother, by simp [Arena.isLive, hgone], he⟩
    · intro s cls name harena hseat
      rw [Lifetime.outcome_install, harena, hseat, hins]
  · intro h hnext hlive
    subst hnext
    obtain ⟨⟨evicted, s', a'⟩, hins⟩ := Seat.exists_install_of_isLive (s := g.seats seat) hlive
    obtain ⟨harena, hseats, hexact⟩ := hok evicted s' a' hins
    have hstays : g'.arena.isLive h.target = true := by
      rw [harena]
      exact hexact.isLive rfl hlive
    refine ⟨⟨_, hins⟩, hstays, ?_, ?_⟩
    · intro hother
      rw [harena]
      exact hexact.spared rfl hother
    · intro held
      have hanch : g'.arena.Anchored :=
        (step_path g _).preserves (fun _ _ hstep ha => ha.step hstep) (anchored_arena_history actions)
      have hocc : (g'.seats seat).occupant = some h.target := by
        rw [hseats, Function.update_self]
        exact hexact.occupant
      exact Seat.exists_current hanch hocc hstays held
  · intro hnext
    subst hnext
    obtain ⟨-, hseats, -⟩ := hok _ _ _ rfl
    have hempty : (g'.seats seat).occupant = none := by
      rw [hseats, Function.update_self]
    exact ⟨hempty, fun held => by rw [Seat.current, hempty, Option.bind_none]⟩
  · intro r hocc
    obtain ⟨before, h, after, rfl, hlast⟩ := exists_seatedLast actions seat r hocc
    refine ⟨before, h, after, rfl, hlast, ?_⟩
    intro hfew
    refine ⟨hlast.isLive_iff hfew, ?_⟩
    intro hkept held
    have hspared := hlast.not_mem_collectable hfew hkept held
    refine ⟨hspared, ?_⟩
    rw [arena_act_sweep, Lifetime.removeAll_collectable, Arena.get?_without, if_neg hspared]

end Registry

end ObjectBridge
