import Mathlib.Data.List.DropRight
import ObjectBridge.Proofs.Arena.Generations
import ObjectBridge.Proofs.Arena.Removal

/-!
# What is done to handlers

Objects are stored without handlers, and the handlers of an event change by operations alone that are addressed to
the object and the event.  A history tells which objects were stored and which of these operations were done, in
order; whatever else happens to an arena is not part of it.

* `Deed` — one entry of a history.
* `Arena.Act` and `Arena.Does` — one change of an arena, and any number of them, with their history.
* `Deed.handlers` — the handlers that a history makes up, of one event of one object.
* `Arena.Does.connected_eq` — these are the handlers of the object.
* `Arena.Does.countP_stores_le_one` — a reference is given to one object only, as long as no generation is used up.
-/

namespace ObjectBridge

/-! ## Ordered sets -/

namespace Handlers

variable {hs : Handlers} {f g : Callable}

/-- No callable is connected twice. -/
def Distinct (hs : Handlers) : Prop :=
  hs.Pairwise fun f g => f.same g = false

theorem same_comm (f g : Callable) : f.same g = g.same f := by
  rw [Callable.same, Callable.same, Bool.beq_comm]

theorem contains_eq_false_iff : hs.contains f = false ↔ ∀ g ∈ hs, g.same f = false := by
  simp only [contains, List.any_eq_false, Bool.not_eq_true]

/-- A removal leaves the other callables where they are. -/
theorem sublist_remove (f : Callable) (hs : Handlers) : (hs.remove f).Sublist hs := by
  induction hs with
  | nil => exact List.Sublist.refl _
  | cons g rest ih =>
      rw [remove]
      split
      · exact List.sublist_cons_self g rest
      · exact ih.cons_cons g

/-- What was removed is not connected. -/
theorem Distinct.contains_remove (hdistinct : hs.Distinct) (f : Callable) :
    (hs.remove f).contains f = false := by
  induction hs with
  | nil => rfl
  | cons g rest ih =>
      obtain ⟨hg, hrest⟩ := List.pairwise_cons.mp hdistinct
      rw [remove]
      split
      · -- No other callable is the same as the one that goes.
        rename_i hsame
        refine contains_eq_false_iff.mpr fun k hk => ?_
        have hserial : g.serial = f.serial := eq_of_beq hsame
        have hother := hg k hk
        rw [same_comm] at hother
        rwa [Callable.same, ← hserial]
      · rename_i hsame
        rw [contains, List.any_cons, Bool.eq_false_of_not_eq_true hsame]
        exact ih hrest

/-- Every change keeps the callables apart. -/
theorem Distinct.change (hdistinct : hs.Distinct) (c : Change) : (hs.change c).Distinct := by
  cases c with
  | set f => exact List.pairwise_singleton _ f
  | add f =>
      show (hs.add f).Distinct
      rw [add]
      split
      · exact hdistinct
      · rename_i hnew
        refine List.pairwise_append.mpr ⟨hdistinct, List.pairwise_singleton _ f, ?_⟩
        intro g hg k hk
        obtain rfl := List.mem_singleton.mp hk
        exact contains_eq_false_iff.mp (Bool.eq_false_of_not_eq_true hnew) g hg
  | remove f => exact List.Pairwise.sublist (sublist_remove f hs) hdistinct
  | clear => exact List.Pairwise.nil

/-- Whether a change connects a callable. -/
def Change.connects (f : Callable) : Change → Bool
  | .set g | .add g => g.same f
  | .remove _ | .clear => false

/-- A callable that is not connected stays so as long as no change connects it. -/
theorem contains_change (hnot : hs.contains f = false) {c : Change} (hother : c.connects f = false) :
    (hs.change c).contains f = false := by
  rw [contains_eq_false_iff] at hnot ⊢
  intro g hg
  cases c with
  | set k =>
      obtain rfl := List.mem_singleton.mp hg
      exact hother
  | add k =>
      have hmem : g ∈ hs.add k := hg
      rw [add] at hmem
      split at hmem
      · exact hnot g hmem
      · rcases List.mem_append.mp hmem with hmem | hmem
        · exact hnot g hmem
        · obtain rfl := List.mem_singleton.mp hmem
          exact hother
  | remove k => exact hnot g ((sublist_remove k hs).subset hg)
  | clear => cases hg

theorem distinct_foldl_change (hdistinct : hs.Distinct) (cs : List Change) :
    (cs.foldl Handlers.change hs).Distinct := by
  induction cs generalizing hs with
  | nil => exact hdistinct
  | cons c rest ih => exact ih (hdistinct.change c)

end Handlers

namespace Instance

/-- The handlers that are connected to an event. -/
def connected (i : Instance) (event : String) : Handlers :=
  (i.handlers? event).getD []

theorem connected_setHandlers (i : Instance) (event : String) (hs : Handlers) (other : String) :
    (i.setHandlers event hs).connected other = if other = event then hs else i.connected other := by
  by_cases hother : other = event
  · subst hother
    rw [if_pos rfl, connected, handlers?, setHandlers, lookup_put_self]
    rfl
  · rw [if_neg hother, connected, connected, handlers?, handlers?, setHandlers,
      lookup_put_of_ne hother]

theorem connected_stored (new : NewInstance) (p : Proxy) (event : String) :
    (new.stored p).connected event = [] := rfl

end Instance

/-! ## Histories -/

/-- What is done to handlers. -/
inductive Deed where
  /-- An object is stored, without handlers, under a reference that names it from then on. -/
  | store (r : Reference)
  /-- The handlers of an event of an object are changed. -/
  | change (r : Reference) (event : String) (c : Handlers.Change)

namespace Deed

variable {r : Reference} {event : String} {ds : List Deed}

/-- Whether an object is stored under a reference. -/
def stores (r : Reference) : Deed → Bool
  | store t => t == r
  | change _ _ _ => false

/-- The change that is made to the handlers of an event of an object, if it is addressed to them. -/
def change? (r : Reference) (event : String) : Deed → Option Handlers.Change
  | store _ => none
  | change t e c => if t = r ∧ e = event then some c else none

/-- What was done since an object was stored under a reference. -/
def since (r : Reference) (ds : List Deed) : List Deed :=
  ds.rtakeWhile fun d => !d.stores r

/-- The changes that were addressed to an event of an object, since it was stored. -/
def changes (r : Reference) (event : String) (ds : List Deed) : List Handlers.Change :=
  (since r ds).filterMap (change? r event)

/-- The handlers that these changes make up, beginning with none. -/
def handlers (r : Reference) (event : String) (ds : List Deed) : Handlers :=
  (changes r event ds).foldl Handlers.change []

/-- An object starts without handlers. -/
theorem handlers_store (r : Reference) (event : String) (ds : List Deed) :
    handlers r event (ds ++ [store r]) = [] := by
  rw [handlers, changes, since, List.rtakeWhile_concat_neg _ _ _ (by simp [stores])]
  rfl

/-- An entry that stores no object under the reference changes the handlers if it is addressed to them. -/
theorem handlers_concat {d : Deed} (hother : d.stores r = false) :
    handlers r event (ds ++ [d]) =
      ((d.change? r event).map (handlers r event ds).change).getD (handlers r event ds) := by
  rw [handlers, changes, since, List.rtakeWhile_concat_pos _ _ _ (by simp [hother]),
    List.filterMap_append, List.foldl_append, ← since, ← changes, ← handlers]
  cases hd : d.change? r event with
  | none => simp [hd]
  | some c => simp [hd]

theorem handlers_change (r : Reference) (event : String) (ds : List Deed) (c : Handlers.Change) :
    handlers r event (ds ++ [change r event c]) = (handlers r event ds).change c := by
  rw [handlers_concat rfl]
  simp [change?]

/-- What is done elsewhere leaves the handlers of an object alone. -/
theorem handlers_append_of_elsewhere {es : List Deed}
    (helsewhere : ∀ d ∈ es, d.stores r = false ∧ d.change? r event = none) :
    handlers r event (ds ++ es) = handlers r event ds := by
  induction es using List.reverseRecOn with
  | nil => rw [List.append_nil]
  | append_singleton es d ih =>
      obtain ⟨hstores, hchange⟩ := helsewhere d (List.mem_append_right es (List.mem_singleton_self d))
      rw [← List.append_assoc, handlers_concat hstores, hchange]
      exact ih fun d hd => helsewhere d (List.mem_append_left _ hd)

/-- Whatever the history, no callable is connected twice. -/
theorem distinct_handlers (r : Reference) (event : String) (ds : List Deed) :
    (handlers r event ds).Distinct :=
  Handlers.distinct_foldl_change List.Pairwise.nil _

/-- What was removed is not connected until it is connected again. -/
theorem contains_handlers_of_removed {f : Callable} {es : List Deed}
    (hagain : ∀ d ∈ es, ∀ c ∈ d.change? r event, c.connects f = false) :
    (handlers r event (ds ++ change r event (.remove f) :: es)).contains f = false := by
  induction es using List.reverseRecOn with
  | nil =>
      rw [handlers_change]
      exact (distinct_handlers r event ds).contains_remove f
  | append_singleton es d ih =>
      have hbefore := ih fun d hd => hagain d (List.mem_append_left _ hd)
      rw [← List.cons_append, ← List.append_assoc]
      -- A registration leaves no handlers at all; any other deed does not connect `f`.
      cases hstores : d.stores r with
      | true =>
          cases d with
          | store t =>
              obtain rfl : t = r := eq_of_beq hstores
              rw [handlers_store]
              rfl
          | change => cases hstores
      | false =>
          rw [handlers_concat hstores]
          cases hd : d.change? r event with
          | none => exact hbefore
          | some c => exact Handlers.contains_change hbefore (hagain d (by simp) c hd)

/-- A callable that is added again is not connected again, and what was done before the object was stored does not
count. -/
example :
    let f : Callable := ⟨0, []⟩
    let g : Callable := ⟨1, []⟩
    (handlers ⟨0, 0⟩ "moved" [.change ⟨0, 0⟩ "moved" (.add g), .store ⟨0, 0⟩, .change ⟨0, 0⟩ "moved" (.add f),
      .change ⟨1, 0⟩ "moved" (.add g), .change ⟨0, 0⟩ "moved" (.add f)]).map Callable.serial = [0] := by
  decide

/-- An entry of a history that changes handlers only in an allowed way. -/
def Within (P : Reference → String → Handlers.Change → Prop) : Deed → Prop
  | store _ => True
  | change r event c => P r event c

end Deed

namespace Arena

/-! ## Changes of an arena -/

/-- One change of an arena, and what it does to handlers. -/
inductive Act : Arena → List Deed → Arena → Prop
  /-- An object is stored. -/
  | register {a a' : Arena} (new : NewInstance) (h : Handle) (hreg : a.register new = .ok (h, a')) :
      Act a [.store h.target] a'
  /-- A deferred object gets its native state. -/
  | materialize {a a' : Arena} (r : Reference) (state : NativeState)
      (hmat : a.materialize r state = .ok a') : Act a [] a'
  /-- An object is removed. -/
  | destroy {a a' : Arena} (r : Reference) (i : Instance) (hdes : a.destroy? r = some (i, a')) :
      Act a [] a'
  /-- The ownership of an object changes. -/
  | keep {a a' : Arena} (h : Handle) (keep : Keep) (operation : String)
      (hkeep : a.setKeep h keep operation = .ok a') : Act a [] a'
  /-- Another handle is issued for an object. -/
  | issue {a a' : Arena} (held : List Handle) (r : Reference) (c : Constness) (h : Handle)
      (hissue : a.issue held r c = some (h, a')) : Act a [] a'
  /-- A proxy changes its const flag. -/
  | flag {a : Arena} (p : Proxy) (isConst : Bool) : Act a [] (a.setConst p isConst)
  /-- A native state is replaced. -/
  | native {a : Arena} (r : Reference) (state : NativeState) (i : Instance) (hi : a.get? r = some i)
      (hmat : i.isMaterialized = true) : Act a [] (a.setNative r state)
  /-- The handlers of an event are looked at, and exist from then on. -/
  | look {a : Arena} (r : Reference) (event : String) (i : Instance) (hi : a.get? r = some i) :
      Act a [] (a.modify r fun j => j.setHandlers event (i.connected event))
  /-- The handlers of an event are changed. -/
  | change {a : Arena} (r : Reference) (event : String) (c : Handlers.Change) (i : Instance)
      (hi : a.get? r = some i) :
      Act a [.change r event c] (a.modify r fun j => j.setHandlers event ((i.connected event).change c))

/-- Changes of an arena, one after the other, and the history that they make up. -/
inductive Does : Arena → List Deed → Arena → Prop
  | refl (a : Arena) : Does a [] a
  | tail {a b c : Arena} {ds es : List Deed} (hdoes : Does a ds b) (hact : Act b es c) :
      Does a (ds ++ es) c

variable {a b a' : Arena} {ds es : List Deed} {r t : Reference} {i : Instance} {event : String}

theorem Act.does (hact : Act a ds a') : Does a ds a' :=
  Does.tail (.refl a) hact

theorem Does.trans (hfirst : Does a ds b) (hlater : Does b es a') : Does a (ds ++ es) a' := by
  induction hlater with
  | refl =>
      rw [List.append_nil]
      exact hfirst
  | tail _ hact ih =>
      rw [← List.append_assoc]
      exact ih.tail hact

/-- A change is one of the steps of an arena. -/
theorem Act.step (hact : Act a ds a') : Step a a' := by
  cases hact with
  | register new h hreg => exact .register new h hreg
  | materialize r state hmat => exact .materialize r state hmat
  | destroy r i hdes => exact .destroy r i hdes
  | keep h keep operation hkeep => exact .keep h keep operation hkeep
  | issue held r c h hissue => exact .issue held r c h hissue
  | flag p isConst => exact .flag p isConst
  | native r state i hi hmat =>
      refine .contents (outline_modify fun j hj => outline_native state ?_)
      rwa [Option.some.inj (hj.symm.trans hi)]
  | look r event i hi => exact .contents (outline_modify fun j _ => outline_setHandlers j event _)
  | change r event c i hi =>
      exact .contents (outline_modify fun j _ => outline_setHandlers j event _)

theorem Does.path (hdoes : Does a ds a') : Path a a' := by
  induction hdoes with
  | refl => exact Relation.ReflTransGen.refl
  | tail _ hact ih => exact ih.tail hact.step

/-- An arena becomes another one, and handlers are changed only in an allowed way. -/
def May (P : Reference → String → Handlers.Change → Prop) (a a' : Arena) : Prop :=
  ∃ ds, (∀ d ∈ ds, d.Within P) ∧ Does a ds a'

theorem May.refl {P : Reference → String → Handlers.Change → Prop} (a : Arena) : a.May P a :=
  ⟨[], fun _ => (absurd · List.not_mem_nil), .refl a⟩

theorem May.trans {P : Reference → String → Handlers.Change → Prop} (hfirst : a.May P b)
    (hlater : b.May P a') : a.May P a' := by
  obtain ⟨ds, hds, hfirst⟩ := hfirst
  obtain ⟨es, hes, hlater⟩ := hlater
  refine ⟨ds ++ es, fun d hd => ?_, hfirst.trans hlater⟩
  rcases List.mem_append.mp hd with hd | hd
  · exact hds d hd
  · exact hes d hd

theorem Act.may {P : Reference → String → Handlers.Change → Prop} (hact : Act a ds a')
    (hds : ∀ d ∈ ds, d.Within P) : a.May P a' :=
  ⟨ds, hds, hact.does⟩

/-- A change that is not part of the history is allowed always. -/
theorem Act.may_of_nil {P : Reference → String → Handlers.Change → Prop} (hact : Act a [] a') :
    a.May P a' :=
  hact.may fun _ => (absurd · List.not_mem_nil)

/-- It is allowed always to store an object. -/
theorem may_register {P : Reference → String → Handlers.Change → Prop} {new : NewInstance} {h : Handle}
    (hreg : a.register new = .ok (h, a')) : a.May P a' := by
  refine (Act.register new h hreg).may fun d hd => ?_
  obtain rfl := List.mem_singleton.mp hd
  exact True.intro

/-! ## Handlers -/

/-- An object that is replaced by one with other handlers; all others stay as they are. -/
theorem connected_of_setOccupant {j : Instance} (hi : a.get? r = some i)
    (hslots : b.slots = (a.setOccupant r.slot j).slots) {k : Instance} (hk : b.get? t = some k) :
    (t = r ∧ k = j) ∨ (t ≠ r ∧ a.get? t = some k) := by
  have hsame : b.get? t = (a.setOccupant r.slot j).get? t := get?_congr (by rw [hslots])
  rw [hsame, get?_setOccupant hi] at hk
  by_cases htr : t = r
  · rw [if_pos htr] at hk
    exact Or.inl ⟨htr, (Option.some.inj hk).symm⟩
  · rw [if_neg htr] at hk
    exact Or.inr ⟨htr, hk⟩

/-- Every object of the later arena was in the earlier one, with the same handlers. -/
def KeepsHandlers (a a' : Arena) : Prop :=
  ∀ r i', a'.get? r = some i' →
    ∃ i, a.get? r = some i ∧ ∀ event, i'.connected event = i.connected event

theorem KeepsHandlers.refl (a : Arena) : a.KeepsHandlers a :=
  fun _ i' hi' => ⟨i', hi', fun _ => rfl⟩

theorem keepsHandlers_of_setOccupant {j : Instance} (hi : a.get? r = some i)
    (hslots : b.slots = (a.setOccupant r.slot j).slots)
    (hsame : ∀ event, j.connected event = i.connected event) : a.KeepsHandlers b := by
  intro t k hk
  rcases connected_of_setOccupant hi hslots hk with ⟨rfl, rfl⟩ | ⟨-, hold⟩
  · exact ⟨i, hi, hsame⟩
  · exact ⟨k, hold, fun _ => rfl⟩

theorem modify_of_get? (hi : a.get? r = some i) (f : Instance → Instance) :
    a.modify r f = a.setOccupant r.slot (f i) := by
  rw [modify, hi]

/-- A change that is not part of the history leaves the handlers of all objects as they are. -/
theorem Act.keepsHandlers (hact : Act a [] a') : a.KeepsHandlers a' := by
  cases hact with
  | materialize r state hmat =>
      obtain ⟨i, hi, ⟨-, rfl⟩ | ⟨-, rfl⟩⟩ := materialize_cases hmat
      · exact .refl _
      · exact keepsHandlers_of_setOccupant hi rfl fun _ => rfl
  | destroy r i hdes =>
      intro t k hk
      rw [get?_destroy? hdes] at hk
      split at hk
      · cases hk
      · exact ⟨k, hk, fun _ => rfl⟩
  | keep h keep operation hkeep =>
      obtain ⟨i, hi, rfl⟩ := setKeep_cases hkeep
      exact keepsHandlers_of_setOccupant hi rfl fun _ => rfl
  | issue held r c h hissue =>
      obtain ⟨i, hi, ⟨-, -, -, serials, rfl⟩ | ⟨-, hfresh⟩⟩ := issue_cases hissue
      · exact .refl _
      · obtain ⟨anchor, next, serials, -, -, rfl⟩ := issueFresh_cases hfresh
        exact keepsHandlers_of_setOccupant hi rfl fun _ => rfl
  | flag p isConst => exact .refl _
  | native r state i hi hmat =>
      rw [setNative, modify_of_get? hi]
      exact keepsHandlers_of_setOccupant hi rfl fun _ => rfl
  | look r event i hi =>
      rw [modify_of_get? hi]
      -- The list of the event is written back as it was found.
      refine keepsHandlers_of_setOccupant hi rfl fun other => ?_
      rw [Instance.connected_setHandlers]
      split
      · rename_i hother
        rw [hother]
      · rfl

/-- An arena whose objects have the handlers that a history makes up. -/
def Follows (ds : List Deed) (a : Arena) : Prop :=
  ∀ r i, a.get? r = some i → ∀ event, i.connected event = Deed.handlers r event ds

/-- What a change does to handlers is what it adds to the history. -/
theorem Follows.act (hfollows : Follows ds a) (hact : Act a es a') : Follows (ds ++ es) a' := by
  intro t k hk event
  have hquiet (hnothing : es = []) : k.connected event = Deed.handlers t event (ds ++ es) := by
    subst hnothing
    obtain ⟨i, hi, hsame⟩ := hact.keepsHandlers t k hk
    rw [hsame, hfollows t i hi, List.append_nil]
  cases hact with
  | register new h hreg =>
      by_cases hnew : h.target = t
      · -- The object that was stored has no handlers.
        obtain ⟨slot, base, entry, htake, hentry, rfl, rfl⟩ := register_cases hreg
        subst hnew
        rw [get?_of_register hreg] at hk
        obtain rfl := Option.some.inj hk
        rw [Deed.handlers_store, Instance.connected_stored]
      · have hold := (eq_target_or_get?_of_register hreg hk).resolve_left (Ne.symm hnew)
        rw [Deed.handlers_concat (by simpa [Deed.stores] using hnew), hfollows t k hold]
        rfl
  | change r other c i hi =>
      rw [Deed.handlers_concat rfl, Deed.change?]
      rw [modify_of_get? hi] at hk
      rcases connected_of_setOccupant hi rfl hk with ⟨rfl, rfl⟩ | ⟨htr, hold⟩
      · rw [Instance.connected_setHandlers, hfollows t i hi, hfollows t i hi]
        by_cases hevent : event = other
        · simp [hevent]
        · simp [hevent, Ne.symm hevent]
      · rw [if_neg fun hsame => htr hsame.1.symm, hfollows t k hold]
        rfl
  | materialize | destroy | keep | issue | flag | native | look => exact hquiet rfl

theorem Follows.does (hfollows : Follows ds a) (hdoes : Does a es a') : Follows (ds ++ es) a' := by
  induction hdoes with
  | refl => rwa [List.append_nil]
  | tail _ hact ih =>
      rw [← List.append_assoc]
      exact ih.act hact

/-- The handlers of an object are those that its history makes up. -/
theorem Does.connected_eq (hdoes : Does {} ds a) (hi : a.get? r = some i) (event : String) :
    i.connected event = Deed.handlers r event ds := by
  have hempty : Follows [] {} := by
    intro t k hk
    cases hk
  exact hempty.does hdoes r i hi event

/-! ## References -/

/-- Every object that was stored was stored when a number of objects had been removed from its slot which its
generation tells.  If no object was removed since, it is still there. -/
def Recalls (ds : List Deed) (a : Arena) : Prop :=
  ∀ r, .store r ∈ ds → ∃ n ≤ (a.slotAt r.slot).removals, r.generation = UInt32.ofNat n ∧
    (n = (a.slotAt r.slot).removals → a.Occupied r.slot)

/-- What is stored is in its slot, under the generation that the slot has. -/
theorem Recalls.of_get? (hnum : a.Numbered) (hi : a.get? r = some i) :
    ∃ n ≤ (a.slotAt r.slot).removals, r.generation = UInt32.ofNat n ∧
      (n = (a.slotAt r.slot).removals → a.Occupied r.slot) := by
  obtain ⟨hgen, hocc⟩ := get?_eq_some_iff_slotAt.mp hi
  exact ⟨_, Nat.le_refl _, by rw [← hgen, hnum], fun _ => occupied_iff_slotAt.mpr ⟨i, hocc⟩⟩

theorem Recalls.act (hrecalls : Recalls ds a) (hbal : a.Balanced) (hnum : a.Numbered)
    (hact : Act a es a') : Recalls (ds ++ es) a' := by
  -- A stored object is in its slot still, or one removal more is counted there.
  have hold (t : Reference) (ht : .store t ∈ ds) :
      ∃ n ≤ (a'.slotAt t.slot).removals, t.generation = UInt32.ofNat n ∧
        (n = (a'.slotAt t.slot).removals → a'.Occupied t.slot) := by
    obtain ⟨n, hle, hgen, hthere⟩ := hrecalls t ht
    have hmore := hact.step.removals_le hbal t.slot
    refine ⟨n, hle.trans hmore, hgen, fun hn => ?_⟩
    have hocc := hthere (by omega)
    rcases hact.step.occupied_or_removed hbal hocc with hocc | hremoved
    · exact hocc
    · omega
  intro t ht
  rcases List.mem_append.mp ht with ht | ht
  · exact hold t ht
  · have hnum' := hnum.step hbal hact.step
    cases hact with
    | register new h hreg =>
        obtain rfl : t = h.target := by simpa using ht
        exact Recalls.of_get? hnum' (get?_of_register hreg)
    | change => simp at ht
    | materialize | destroy | keep | issue | flag | native | look => cases ht

/-- What holds of a history holds along changes of balanced books. -/
theorem Does.balanced (hdoes : Does {} ds a) : a.Balanced :=
  balanced_empty.path hdoes.path

theorem Does.recalls (hdoes : Does {} ds a) : a.Numbered ∧ Recalls ds a := by
  induction hdoes with
  | refl => exact ⟨numbered_empty, fun t ht => by cases ht⟩
  | tail hfirst hact ih =>
      obtain ⟨hnum, hrecalls⟩ := ih
      have hbal := hfirst.balanced
      exact ⟨hnum.step hbal hact.step, hrecalls.act hbal hnum hact⟩

/-- A reference under which an object is stored is new, as long as no generation of its slot is used up. -/
theorem Does.not_mem_of_register (hdoes : Does {} ds a) {new : NewInstance} {h : Handle}
    (hreg : a.register new = .ok (h, a'))
    (hfew : (a'.slotAt h.target.slot).removals < 2 ^ 32) : Deed.store h.target ∉ ds := by
  intro hmem
  obtain ⟨hnum, hrecalls⟩ := hdoes.recalls
  obtain ⟨n, hle, hgen, hthere⟩ := hrecalls _ hmem
  have hfree := hdoes.balanced.not_occupied_of_register hreg
  have hless : n < (a.slotAt h.target.slot).removals :=
    Nat.lt_of_le_of_ne hle fun hn => hfree (hthere hn)
  have hsame := removals_register hreg h.target.slot
  have hnow : h.target.generation = UInt32.ofNat (a'.slotAt h.target.slot).removals := by
    rw [← (get?_eq_some_iff_slotAt.mp (get?_of_register hreg)).1]
    exact hnum.step hdoes.balanced (.register new h hreg) _
  rw [hgen, ofNat_eq_ofNat_iff, hsame] at hnow
  rw [hsame] at hfew
  have heq := hnow.eq_of_lt_of_lt (hless.trans hfew) hfew
  omega

/-- A reference is given to one object only, as long as no generation of its slot is used up. -/
theorem Does.countP_stores_le_one (hdoes : Does {} ds a) (r : Reference)
    (hfew : (a.slotAt r.slot).removals < 2 ^ 32) : ds.countP (Deed.stores r) ≤ 1 := by
  induction hdoes with
  | refl => simp
  | @tail b c ds es hfirst hact ih =>
      have hmore := hact.step.removals_le hfirst.balanced r.slot
      have hbefore := ih (by omega)
      rw [List.countP_append]
      cases hact with
      | register new h hreg =>
          by_cases hnew : h.target = r
          · subst hnew
            -- Fewer objects were removed than there are generations, so the new reference is not an old one.
            have hnone : ds.countP (Deed.stores h.target) = 0 := by
              refine List.countP_eq_zero.mpr fun d hd hstores => ?_
              cases d with
              | change => cases hstores
              | store t =>
                  obtain rfl : t = h.target := eq_of_beq hstores
                  exact hfirst.not_mem_of_register hreg hfew hd
            rw [hnone, Nat.zero_add]
            exact List.countP_le_length
          · simpa [Deed.stores, hnew] using hbefore
      | change => simpa [Deed.stores] using hbefore
      | materialize | destroy | keep | issue | flag | native | look => simpa using hbefore

end Arena

end ObjectBridge
