import ObjectBridge.Proofs.Call.Event
import ObjectBridge.Proofs.Run.Course

/-!
# What operations do to handlers

Four operations change the handlers of an event, each in its own way, and a fifth one only looks at them.  A run
changes the arena by the changes listed in `Arena.Act`, wherever it stops, so it has a history.  What is said here
about a run holds for any restriction on the changes of handlers that bodies may make.

* `Event.Makes` — an operation makes a change, or none.
* `Run.Performs` — a run changes handlers only in an allowed way.
* `Course.performing` — this is a course, so that it holds of whatever takes all courses.
* `Run.Woven` and `Course.weaving` — what a run does besides the bodies that it runs, which is another course.
* `Event.Changes` and `Event.changes_of_modifyHandlers` — what an operation on handlers does, step by step.
-/

namespace ObjectBridge

open Run

namespace Event

/-- An operation on the handlers of an event that changes them as told, or only looks at them. -/
def Makes (f : Handlers → Handlers) (c : Option Handlers.Change) : Prop :=
  ∀ hs, f hs = (c.map hs.change).getD hs

/-- The handlers of an object that is there are changed as told. -/
theorem act_of_makes {f : Handlers → Handlers} {c : Option Handlers.Change} (hf : Makes f c) {a : Arena}
    {r : Reference} {event : String} {i : Instance} (hi : a.get? r = some i) :
    a.Act (c.toList.map (.change r event))
      (a.modify r fun j => j.setHandlers event (f (i.connected event))) := by
  rw [hf]
  cases c with
  | none => exact .look r event i hi
  | some c => exact .change r event c i hi

end Event

/-! ## Allowed changes -/

namespace Run

/-- A run changes handlers only in an allowed way, wherever it stops. -/
def Performs {α : Type} (P : Reference → String → Handlers.Change → Prop) (act : Run α) (s : State) : Prop :=
  s.arena.May P (act.outcome s).2.arena

/-- Bodies change handlers only in an allowed way, in any state. -/
def PerformsAll (P : Reference → String → Handlers.Change → Prop) (exec : Exec) : Prop :=
  ∀ code s, Performs P (exec code) s

end Run

/-- Handlers change only in an allowed way from the state in which a run starts to the one in which it stops. -/
def Course.performing (P : Reference → String → Handlers.Change → Prop) : Course where
  From _ := True
  Allows r event f := ∃ c, Event.Makes f c ∧ ∀ k ∈ c, P r event k
  Leads s _ t := s.arena.May P t.arena
  allows_id := ⟨none, fun _ => rfl, fun _ hk => absurd hk (Option.not_mem_none _)⟩
  from_of_leads _ _ := True.intro
  from_of_world _ _ := True.intro
  weaken _ h := h
  trans hfirst hlater := hfirst.trans hlater
  vary _ harena _ := by
    rw [harena]
    exact .refl _
  quiet hact := hact.may_of_nil
  edit hi hallowed := by
    obtain ⟨c, hf, hc⟩ := hallowed
    refine (Event.act_of_makes hf hi).may fun d hd => ?_
    obtain ⟨k, hk, rfl⟩ := List.mem_map.mp hd
    exact hc k (Option.mem_toList.mp hk)
  store _ _ _ _ hreg := Arena.may_register hreg
  copy _ _ _ hreg := Arena.may_register hreg
  define _ := .refl _
  defineSubclass _ := .refl _
  stopped hworld _ h := by rwa [hworld] at h
  finished hworld _ h hleave _ := by rwa [hworld, ← hleave] at h

theorem Course.allowsAll_performing {P : Reference → String → Handlers.Change → Prop}
    (hany : ∀ r event c, P r event c) : (Course.performing P).AllowsAll :=
  fun r event c => ⟨some c, fun _ => rfl, fun k _ => hany r event k⟩

namespace Run

variable {α : Type} {P : Reference → String → Handlers.Change → Prop} {act : Run α} {s : State} {exec : Exec}

theorem Performs.takes (hact : Performs P act s) : Takes (.performing P) act s :=
  fun _ => hact

theorem Takes.performs (hact : Takes (.performing P) act s) : Performs P act s :=
  hact True.intro

theorem PerformsAll.takes (hexec : PerformsAll P exec) : TakesAll (.performing P) exec :=
  fun code s => (hexec code s).takes

end Run

/-! ## What a run does besides bodies -/

namespace Run

/-- An arena becomes another one by changes and by bodies that run in between, each of which may stop anywhere.  The
history is woven of what the bodies do and of the objects that are stored besides: nothing but a body changes
handlers. -/
inductive Woven (exec : Exec) : Arena → List Deed → Arena → Prop
  | refl (a : Arena) : Woven exec a [] a
  | act {a b c : Arena} {ds es : List Deed} (hwoven : Woven exec a ds b) (hact : b.Act es c)
      (hstores : ∀ d ∈ es, ∃ r, d = .store r) : Woven exec a (ds ++ es) c
  | body {a : Arena} {ds es : List Deed} {code : Code} {u v : State} {r : Except Fault Unit}
      (hwoven : Woven exec a ds u.arena) (hrun : (exec code).outcome u = (r, v)) (hdoes : u.arena.Does es v.arena) :
      Woven exec a (ds ++ es) v.arena

variable {exec : Exec} {a b c : Arena} {ds es : List Deed}

theorem Woven.trans (hfirst : Woven exec a ds b) (hlater : Woven exec b es c) : Woven exec a (ds ++ es) c := by
  induction hlater with
  | refl =>
      rw [List.append_nil]
      exact hfirst
  | act _ hact hstores ih =>
      rw [← List.append_assoc]
      exact ih.act hact hstores
  | body _ hrun hdoes ih =>
      rw [← List.append_assoc]
      exact ih.body hrun hdoes

/-- What is woven is a history. -/
theorem Woven.does (hwoven : Woven exec a ds b) : a.Does ds b := by
  induction hwoven with
  | refl => exact .refl _
  | act _ hact _ ih => exact ih.tail hact
  | body _ _ hdoes ih => exact ih.trans hdoes

/-- A run does nothing to handlers by itself, wherever it stops: its history is woven of those of the bodies that it
runs. -/
def Weaves {α : Type} (exec : Exec) (act : Run α) (s : State) : Prop :=
  ∃ ds, Woven exec s.arena ds (act.outcome s).2.arena

end Run

/-- Arenas are woven from the state in which a run starts to the one in which it stops. -/
def Course.weaving (exec : Exec) : Course where
  From _ := True
  Allows _ _ f := f = id
  Leads s _ t := ∃ ds, Woven exec s.arena ds t.arena
  allows_id := rfl
  from_of_leads _ _ := True.intro
  from_of_world _ _ := True.intro
  weaken _ h := h
  trans hfirst hlater := by
    obtain ⟨ds, hfirst⟩ := hfirst
    obtain ⟨es, hlater⟩ := hlater
    exact ⟨ds ++ es, hfirst.trans hlater⟩
  vary _ harena _ := by
    rw [harena]
    exact ⟨[], .refl _⟩
  quiet hact := ⟨[], .act (.refl _) hact fun _ hd => absurd hd List.not_mem_nil⟩
  edit hi hallowed := by
    subst hallowed
    exact ⟨[], .act (.refl _) (.look _ _ _ hi) fun _ hd => absurd hd List.not_mem_nil⟩
  store _ _ _ _ hreg := ⟨_, .act (.refl _) (.register _ _ hreg) fun _ hd => ⟨_, List.mem_singleton.mp hd⟩⟩
  copy _ _ _ hreg := ⟨_, .act (.refl _) (.register _ _ hreg) fun _ hd => ⟨_, List.mem_singleton.mp hd⟩⟩
  define _ := ⟨[], .refl _⟩
  defineSubclass _ := ⟨[], .refl _⟩
  stopped hworld _ h := by rwa [hworld] at h
  finished hworld _ h hleave _ := by rwa [hworld, ← hleave] at h

/-- Bodies weave their own histories. -/
theorem Run.PerformsAll.takes_weaving {P : Reference → String → Handlers.Change → Prop} {exec : Exec}
    (hexec : PerformsAll P exec) : TakesAll (.weaving exec) exec := by
  intro code s _
  obtain ⟨ds, -, hdoes⟩ := hexec code s
  exact ⟨[] ++ ds, .body (.refl _) rfl hdoes⟩

/-! ## The operations that change handlers -/

namespace Event

/-- What an operation on the handlers of an event does.  The object gets its native state first, which ends in
the state `u`.  An operation that succeeds then makes its change, and one that fails makes none. -/
inductive Changes (exec : Exec) (s : State) (h : Handle) (event operation : String) (f : Handlers → Handlers)
    (c : Option Handlers.Change) (u : State) : Except Fault Handlers → State → Prop
  | done {m : Except Fault Unit} {i : Instance} {a : Arena}
      (hmat : (Lifetime.materialize exec h operation).outcome s = (m, u))
      (hi : u.arena.get? h.target = some i)
      (hact : u.arena.Act (c.toList.map (.change h.target event)) a) :
      Changes exec s h event operation f c u (.ok (f (i.connected event))) { u with arena := a }
  | failed {m : Except Fault Unit} {fault : Fault}
      (hmat : (Lifetime.materialize exec h operation).outcome s = (m, u)) :
      Changes exec s h event operation f c u (.error fault) u

theorem changes_of_modifyHandlers {exec : Exec} {s : State} {h : Handle} {event operation : String}
    {f : Handlers → Handlers} {c : Option Handlers.Change} (hf : Makes f c) {r : Except Fault Handlers} {t : State}
    (hrun : (modifyHandlers exec h event operation f).outcome s = (r, t)) :
    ∃ u, Changes exec s h event operation f c u r t := by
  rcases hmat : (Lifetime.materialize exec h operation).outcome s with ⟨m, u⟩
  refine ⟨u, ?_⟩
  -- Handlers are changed only after the object, its event and its record have all been found.
  cases m with
  | error fault =>
      rw [modifyHandlers, outcome_bind_of_error hmat] at hrun
      obtain ⟨rfl, rfl⟩ := Prod.mk.inj hrun
      exact .failed hmat
  | ok _ =>
      rw [modifyHandlers, outcome_bind_of_ok hmat] at hrun
      cases hinfo : u.classes.findEvent h.cls event with
      | none =>
          rw [outcome_bind_of_error (outcome_declaration_of_none hinfo)] at hrun
          obtain ⟨rfl, rfl⟩ := Prod.mk.inj hrun
          exact .failed hmat
      | some info =>
          rw [outcome_bind_of_ok (outcome_declaration_of_some hinfo)] at hrun
          cases hi : u.arena.get? h.target with
          | none =>
              rw [outcome_bind_of_error (Lifetime.outcome_resolve_of_none hi operation)] at hrun
              obtain ⟨rfl, rfl⟩ := Prod.mk.inj hrun
              exact .failed hmat
          | some i =>
              rw [outcome_bind_of_ok (Lifetime.outcome_resolve_of_some hi operation)] at hrun
              obtain ⟨rfl, rfl⟩ := Prod.mk.inj hrun
              exact .done hmat hi (act_of_makes hf hi)

end Event

end ObjectBridge
