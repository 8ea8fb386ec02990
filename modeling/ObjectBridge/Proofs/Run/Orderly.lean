import ObjectBridge.Proofs.Run.Course

/-!
# The steps of a run

Whatever a run does, it does in steps of the kinds listed in `State.Step`.  A step says what becomes of the
classes, of the objects and of the bodies that run, and nothing about the values.

* `State.Step` and `State.Path` — one change of a state, and any number of them.
* `Path.extends`, `Path.nested` and the other run lemmas — what every step preserves holds along a path.
* `Run.Orderly` — a run changes the state by steps alone, and when it ends the same bodies run as before.
* `Course.orderly` — this is a course, so that whatever takes all courses is orderly.
-/

namespace ObjectBridge

namespace State

/-- One change of a state. -/
inductive Step : State → State → Prop
  /-- Values change, in variables, in boxes, in the hands of an operation. -/
  | vary {s t : State} (hworld : t.classes = s.classes ∧ t.arena = s.arena)
      (hrunning : t.running = s.running) : Step s t
  /-- Objects change or are removed. -/
  | retain {s : State} (a : Arena) (hretains : s.arena.Retains a) : Step s { s with arena := a }
  /-- An object of a class is stored, with the overrides of the class. -/
  | store {s : State} (c : ClassInfo) (new : NewInstance) (h : Handle) (a : Arena)
      (hclass : s.classes.get? c.id = some c) (hnew : new.lineage = c.lineage)
      (hreg : s.arena.register new = .ok (h, a)) : Step s { s with arena := a }
  /-- A copy of an object is stored, with the overrides of the object. -/
  | copy {s : State} (r : Reference) (i : Instance) (c : ClassInfo) (new : NewInstance) (h : Handle) (a : Arena)
      (hi : s.arena.get? r = some i) (hclass : s.classes.get? i.cls = some c)
      (hnew : new.lineage = { c.lineage with overrides := i.overrides })
      (hreg : s.arena.register new = .ok (h, a)) : Step s { s with arena := a }
  /-- A class is registered. -/
  | define {s : State} (d : ClassDraft) (id : ClassId) (t : ClassTable)
      (hdefine : s.classes.define d = .ok (id, t)) : Step s { s with classes := t }
  /-- A class with overrides is registered. -/
  | defineSubclass {s : State} (name base : String) (overrides : List (String × Callable))
      (id : ClassId) (t : ClassTable)
      (hdefine : s.classes.defineSubclass name base overrides = .ok (id, t)) :
      Step s { s with classes := t }
  /-- A body starts. -/
  | enter {s t : State} (hworld : t.toWorld = s.toWorld) (henter : s.running.Enters t.running) :
      Step s t
  /-- A body ends. -/
  | leave {s t : State} (hworld : t.toWorld = s.toWorld) (henter : t.running.Enters s.running) :
      Step s t

/-- Changes of a state, one after the other. -/
abbrev Path : State → State → Prop := Relation.ReflTransGen Step

variable {s t : State}

theorem Step.extends (hstep : Step s t) : s.classes.Extends t.classes := by
  cases hstep with
  | vary hworld => rw [hworld.1]; exact .refl _
  | retain | store | copy => exact .refl _
  | define d id classes hdefine =>
      obtain ⟨c, rfl, -⟩ := ClassTable.define_cases hdefine
      exact ClassTable.extends_snoc _ c
  | defineSubclass name base overrides id classes hdefine =>
      obtain ⟨-, -, -, c, -, -, rfl, -⟩ := ClassTable.defineSubclass_cases hdefine
      exact ClassTable.extends_snoc _ c
  | enter hworld | leave hworld => rw [hworld]; exact .refl _

theorem Step.numbered (hstep : Step s t) (hnum : s.classes.Numbered) : t.classes.Numbered := by
  cases hstep with
  | vary hworld => rwa [hworld.1]
  | retain | store | copy => exact hnum
  | define d id classes hdefine => exact hnum.define hdefine
  | defineSubclass name base overrides id classes hdefine => exact hnum.defineSubclass hdefine
  | enter hworld | leave hworld => rwa [hworld]

theorem Step.nested (hstep : Step s t) (hnested : s.running.Nested) : t.running.Nested := by
  cases hstep with
  | vary hworld hrunning => rwa [hrunning]
  | retain | store | copy | define | defineSubclass => exact hnested
  | enter hworld henter => exact hnested.enter henter
  | leave hworld henter => exact hnested.leave henter

theorem Path.extends (hpath : Path s t) : s.classes.Extends t.classes := by
  induction hpath with
  | refl => exact .refl _
  | tail _ hlast ih => exact ih.trans hlast.extends

theorem Path.numbered (hpath : Path s t) (hnum : s.classes.Numbered) : t.classes.Numbered := by
  induction hpath with
  | refl => exact hnum
  | tail _ hlast ih => exact hlast.numbered ih

/-- Whatever happens, all that runs was started, one body inside of the other. -/
theorem Path.nested (hpath : Path s t) (hnested : s.running.Nested) : t.running.Nested := by
  induction hpath with
  | refl => exact hnested
  | tail _ hlast ih => exact hlast.nested ih

end State

namespace Run

variable {α : Type} {s : State}

/-- A run changes the state by steps alone, wherever it stops, and when it comes to its end the same bodies run
as before. -/
def Orderly (act : Run α) (s : State) : Prop :=
  s.classes.Numbered →
    s.Path (act.outcome s).2 ∧
      ((act.outcome s).1 ≠ .error .exhausted → (act.outcome s).2.running = s.running)

/-- Bodies run in an orderly way, in any state. -/
def OrderlyAll (exec : Exec) : Prop :=
  ∀ code s, Orderly (exec code) s

end Run

/-! ## The course of orderly runs -/

/-- A change of an arena that is not part of its history leaves every object its class and its overrides. -/
theorem Arena.Act.retains {a a' : Arena} (hact : a.Act [] a') : a.Retains a' := by
  cases hact with
  | materialize r state hmat => exact retains_materialize hmat
  | destroy r i hdes => exact retains_destroy? hdes
  | keep h keep operation hkeep => exact retains_setKeep hkeep
  | issue held r c h hissue => exact retains_issue hissue
  | flag p isConst => exact retains_setConst a p isConst
  | native r state i hi hmat => exact retains_setNative a r state
  | look r event i hi => exact retains_modify a r fun _ => rfl

namespace Course

open State

/-- Steps lead from the state in which a run starts to the one in which it stops, and when it has come to its end the
same bodies run as before. -/
def orderly : Course where
  From s := s.classes.Numbered
  Allows _ _ _ := True
  Leads s ended t := s.Path t ∧ (ended → t.running = s.running)
  allows_id := True.intro
  from_of_leads hnum h := h.1.numbered hnum
  from_of_world hnum hworld := by rwa [hworld]
  weaken hended h := ⟨h.1, fun he => h.2 (hended he)⟩
  trans hfirst hlater :=
    ⟨hfirst.1.trans hlater.1, fun hended => (hlater.2 hended).trans (hfirst.2 True.intro)⟩
  vary hclasses harena hrunning := ⟨.single (.vary ⟨hclasses, harena⟩ hrunning), fun _ => hrunning⟩
  quiet hact := ⟨.single (.retain _ hact.retains), fun _ => rfl⟩
  edit {s r} _ _ _ _ _ := ⟨.single (.retain _ (s.arena.retains_modify r fun _ => rfl)), fun _ => rfl⟩
  store hnum hlater hclass hnew hreg := by
    -- Classes are not taken back, so the class is the one that was found.
    have hget := ClassTable.descriptor_eq_ok_iff.mp hclass
    have hid := hnum.id_eq hget
    exact ⟨.single (.store _ _ _ _ (hlater.1.extends.get? (hid ▸ hget)) (hnew hid) hreg), fun _ => rfl⟩
  copy hi hclass hnew hreg :=
    ⟨.single (.copy _ _ _ _ _ _ hi (ClassTable.descriptor_eq_ok_iff.mp hclass) hnew hreg), fun _ => rfl⟩
  define hdefine := ⟨.single (.define _ _ _ hdefine), fun _ => rfl⟩
  defineSubclass hdefine := ⟨.single (.defineSubclass _ _ _ _ _ hdefine), fun _ => rfl⟩
  stopped hworld henter h := ⟨.head (.enter hworld henter) h.1, False.elim⟩
  finished hworld henter h hleave hback := by
    have hrunning := hback (h.2 True.intro)
    refine ⟨.head (.enter hworld henter) (h.1.tail (.leave hleave ?_)), fun _ => hrunning⟩
    rw [hrunning, h.2 True.intro]
    exact henter

theorem allowsAll_orderly : orderly.AllowsAll :=
  fun _ _ _ => True.intro

end Course

namespace Run

theorem Orderly.takes {act : Run α} (hact : Orderly act s) : Takes .orderly act s := hact

theorem Takes.orderly {act : Run α} (hact : Takes .orderly act s) : Orderly act s := hact

theorem OrderlyAll.takes {exec : Exec} (hexec : OrderlyAll exec) : TakesAll .orderly exec := hexec

end Run

end ObjectBridge
