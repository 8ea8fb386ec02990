import ObjectBridge.Proofs.Call.Uses
import ObjectBridge.Proofs.Script.Deferral
import ObjectBridge.Proofs.Session.Counts

/-!
# Deferred construction is transparent

Two sessions perform the same steps.  In one of them a class has a deferred constructor, in the other one a constructor
that runs the same code at once.  As long as no step does what can tell the classes apart, the steps have the same
results, and the worlds differ at no moment in anything but the native states of objects that have not been used, and in
the counts.

* `World.Indistinct` — what two worlds have in common.
* `World.CountsUsed` — the counts of a world tell how many objects have been used.
* `Session.trace` — the results of steps and the states that they leave.
* `Session.follows_trace` — steps that follow one another.
* `Session.Discreet` — the steps that do not ask for what is different.
* `Session.deferral_transparent` — the result.
-/

namespace ObjectBridge

open Run Mirror

/-! ## Worlds -/

namespace World

/-- The counts of a world are the numbers of objects that have been used, whatever history the world has. -/
structure CountsUsed (w : World) : Prop where
  instanceCount : ∀ cls, w.arena.instanceCount cls = w.arena.tally fun i => i.cls == cls && i.isMaterialized
  familyCount : ∀ cls, Lifetime.familyCount { toWorld := w } cls =
    w.arena.tally fun i => w.classes.isSubclassOf i.cls cls && i.isMaterialized
  history : ∃ us, Arena.Uses {} us w.arena
  used : ∀ us, Arena.Uses {} us w.arena → ∀ r i, w.arena.get? r = some i →
    i.isMaterialized = Arena.Use.used r us

/-- The counts of the classes that derive from a class are the numbers of objects. -/
structure CountsLive (id : ClassId) (w : World) : Prop where
  instanceCount : ∀ cls, w.classes.isSubclassOf cls id = true →
    w.arena.instanceCount cls = w.arena.tally fun i => i.cls == cls
  familyCount : ∀ cls, w.classes.isSubclassOf cls id = true → Lifetime.familyCount { toWorld := w } cls =
    w.arena.tally fun i => w.classes.isSubclassOf i.cls cls

/-- Nothing but native states and counts tells two worlds apart.  In the first one the constructor of a class is deferred,
so an object of the class may be without the native state that it has in the second one. -/
structure Indistinct (id : ClassId) (state : NativeState) (w w' : World) : Prop where
  cells_eq : w'.cells = w.cells
  /-- The classes differ in their constructors alone. -/
  classes : w.classes.Alike w'.classes
  /-- The same objects are in the same slots, under the same generations and with the same handles. -/
  arena : w'.arena.bare = w.arena.bare
  live_eq : w'.arena.live = w.arena.live
  handleState_eq : ∀ h, w'.arena.handleState h = w.arena.handleState h
  inspect_eq : ∀ h, Lifetime.inspect w' h = Lifetime.inspect w h
  native : ∀ r i i', w.arena.get? r = some i → w'.arena.get? r = some i' →
    i'.native = i.native ∨
      w.classes.isSubclassOf i.cls id = true ∧ i.native = none ∧ i'.native = some state
  /-- Other classes are counted alike. -/
  instanceCount_eq : ∀ cls, w.classes.isSubclassOf cls id = false →
    w'.arena.instanceCount cls = w.arena.instanceCount cls
  familyCount_eq : ∀ cls, (∀ b ∈ w.classes.descendants cls, w.classes.isSubclassOf b id = false) →
    Lifetime.familyCount { toWorld := w' } cls = Lifetime.familyCount { toWorld := w } cls
  used : w.CountsUsed
  live : w'.CountsLive id

/-- Where the books balance, what is counted has been used. -/
theorem countsUsed {w : World} (hnum : w.classes.Numbered) (hpath : Arena.Path {} w.arena) : w.CountsUsed where
  instanceCount := (Arena.balanced_empty.path hpath).instanceCount_eq
  familyCount := Lifetime.familyCount_eq_tally hnum (Arena.balanced_empty.path hpath)
  history := hpath.exists_uses
  used _ hus _ _ hi := hus.isMaterialized_eq hi

/-- Where the objects of a class and the classes that derive from it have native states, all of them are counted. -/
theorem countsLive {w : World} {id : ClassId} (hnum : w.classes.Numbered) (hpath : Arena.Path {} w.arena)
    (hmade : ∀ s ∈ w.arena.slots, ∀ i ∈ s.occupant, w.classes.isSubclassOf i.cls id = true → i.isMaterialized = true) :
    w.CountsLive id where
  instanceCount cls hcls := by
    rw [(Arena.balanced_empty.path hpath).instanceCount_eq]
    refine Arena.tally_congr_of_mem fun s hs i hi => ?_
    rw [Arena.counted]
    cases hsame : i.cls == cls with
    | false => rfl
    | true => rw [hmade s hs i hi (eq_of_beq hsame ▸ hcls), Bool.and_self]
  familyCount cls hcls := by
    rw [Lifetime.familyCount_eq_tally hnum (Arena.balanced_empty.path hpath)]
    refine Arena.tally_congr_of_mem fun s hs i hi => ?_
    cases hsub : w.classes.isSubclassOf i.cls cls with
    | false => simp
    | true =>
        -- Whatever derives from a class of the family is in the family.
        have hfamily : w.classes.isSubclassOf i.cls id = true := by
          rw [hnum.isSubclassOf_iff] at hsub hcls ⊢
          exact ⟨hsub.1, hsub.2.trans hcls.2⟩
        simp [hmade s hs i hi hfamily]

end World

namespace FixedConstructor

variable {tables : Set ClassTable} {c : FixedConstructor tables} {id : ClassId} {w w' : World}

/-- Either run may come first. -/
theorem worlds_symm (h : (c.mirror id .second).Worlds w' w) : (c.mirror id .first).Worlds w w' where
  cells_eq := h.cells_eq.symm
  classes := ⟨h.classes.1, h.classes.2.2, h.classes.2.1⟩
  arena := by
    have halike := h.classes.1.alike
    refine h.arena.symm.mono ?_
    rintro cls x y (⟨rfl, hknown⟩ | ⟨hfamily, hlate⟩)
    · refine Or.inl ⟨rfl, fun hnone => ?_⟩
      rw [← halike.nextId_eq, ← halike.isSubclassOf_eq]
      exact hknown hnone
    · exact Or.inr ⟨(halike.isSubclassOf_eq cls id).symm.trans hfamily, hlate.2, hlate.1⟩

theorem between_symm {s s' : State} (h : (c.mirror id .second).Between s' s) : (c.mirror id .first).Between s s' where
  eq := by
    obtain ⟨w, l, heq⟩ := h.exists_eq
    rw [heq]
  worlds := worlds_symm h.worlds
  log := h.log.flip.imp fun _ _ he => ⟨worlds_symm he.1, he.2.1.symm, he.2.2.symm⟩
  kept := h.kept.symm
  steps hfree := (h.congr State.stepsLeft fun _ _ _ => rfl).trans (h.steps hfree)
  inside := Or.inl trivial

/-- What is known of two worlds tells nothing apart but native states and counts. -/
theorem indistinct (h : (c.mirror id .first).Worlds w w')
    (hnoted : Arena.Path {} w.arena ∧ Arena.Path {} w'.arena) : w.Indistinct id c.state w' where
  cells_eq := h.cells_eq
  classes := h.classes.1.alike
  arena := h.arena.bare_eq
  live_eq := h.arena.live_eq
  handleState_eq := h.arena.handleState_eq
  inspect_eq := h.twin.inspect_eq
  native r i i' hi hi' := by
    obtain ⟨j, hj, htwin⟩ := h.arena.exists_get? hi
    obtain rfl := Option.some.inj (hi'.symm.trans hj)
    obtain ⟨hsame, -⟩ | ⟨hfamily, hlate⟩ := htwin.native
    · exact Or.inl hsame
    · exact Or.inr ⟨hfamily, hlate.1, hlate.2⟩
  instanceCount_eq cls hother := h.arena.count_eq cls (Side.settles hother)
  familyCount_eq cls hother := by
    rw [Lifetime.familyCount, Lifetime.familyCount, h.classes.1.alike.descendants_eq]
    exact h.arena.foldl_instanceCount_eq (fun b hb => Side.settles (hother b hb)) 0
  used := World.countsUsed h.classes.1.numbered hnoted.1
  live := by
    refine World.countsLive (h.classes.1.alike.numbered h.classes.1.numbered) hnoted.2 fun s' hs' i' hi' hfamily => ?_
    -- The relation of native states speaks of both objects, so the object in the same slot of the first world is needed.
    obtain ⟨k, hk⟩ := Array.mem_iff_getElem?.mp hs'
    have hslot := h.arena.slots k
    rw [hk] at hslot
    generalize w.arena.slots[k]? = o at hslot
    cases hslot with
    | @some s _ hs =>
        have hoccupant := hs.occupant
        rw [Option.mem_def.mp hi'] at hoccupant
        generalize s.occupant = o at hoccupant
        cases hoccupant with
        | @some i _ htwin =>
            refine Option.isSome_iff_ne_none.mpr fun hnone => ?_
            rw [h.classes.1.alike.isSubclassOf_eq, htwin.cls_eq] at hfamily
            obtain ⟨hsame, hknown⟩ | ⟨-, hlate⟩ := htwin.native
            · -- Neither object has a native state: then the class is another one.
              rw [(hknown (hsame.symm.trans hnone)).2] at hfamily
              cases hfamily
            · rw [hlate.2] at hnone
              cases hnone

end FixedConstructor

/-! ## Sessions -/

/-- A session logs anew. -/
theorem Mirror.Between.clear {M : Mirror} {s s' : State} (h : M.Between s s') :
    M.Between { s with log := [] } { s' with log := [] } where
  eq := congrArg (fun t : State => { t with log := [] }) h.eq
  worlds := h.worlds
  log := .nil
  kept := h.kept
  steps := h.steps
  inside := h.inside

namespace Session

/-- The results of steps that are performed one after the other, and the states that they leave. -/
def trace (I : Script.Interpreter) (s : State) : List Script.Expr → List (Except Fault Value × State)
  | [] => []
  | e :: rest =>
      let left := run (I.eval e) { s with log := [] }
      left :: trace I left.2 rest

variable {M : Mirror} {I I' : Script.Interpreter} {s s' : State}

/-- A step follows the same step. -/
theorem follows_run (hI : M.Leads I I') (e : Script.Expr) (hs : M.Between s s')
    (hended : (run (I.eval e) s).1 ≠ .error .exhausted) :
    (run (I'.eval e) s').1 = (run (I.eval e) s).1 ∧ M.Between (run (I.eval e) s).2 (run (I'.eval e) s').2 := by
  obtain ⟨hsame, hbetween, -⟩ := hI.eval e s s' hs hended
  refine ⟨hsame, ?_⟩
  exact hbetween.update
    (fun t => { t with activations := t.activations.modifyHead fun a => { a with ended := none } })
    (fun _ _ _ => rfl) (fun hfree => hfree) hbetween.inside

/-- Steps follow the same steps, as long as none of them is stopped. -/
theorem follows_trace (hI : M.Leads I I') (steps : List Script.Expr)
    (hs : M.Between { s with log := [] } { s' with log := [] })
    (hended : ∀ p ∈ trace I s steps, p.1 ≠ .error .exhausted) :
    List.Forall₂ (fun p p' => p'.1 = p.1 ∧ M.Between p.2 p'.2) (trace I s steps) (trace I' s' steps) := by
  induction steps generalizing s s' with
  | nil => exact .nil
  | cons e rest ih =>
      have hfirst := follows_run hI e hs (hended _ List.mem_cons_self)
      exact .cons hfirst (ih hfirst.2.clear fun p hp => hended p (List.mem_cons_of_mem _ hp))

/-- Steps that are not stopped are the steps of the interpreter, on this level or on a higher one. -/
theorem trace_of_restricted {refuses : Script.Refusals} {budget : Nat} (more : Nat) (steps : List Script.Expr)
    (hended : ∀ p ∈ trace (Script.restricted refuses budget) s steps, p.1 ≠ .error .exhausted) :
    trace (Script.interpreter (budget + more)) s steps = trace (Script.restricted refuses budget) s steps := by
  induction steps generalizing s with
  | nil => rfl
  | cons e rest ih =>
      have hfirst : run ((Script.interpreter (budget + more)).eval e) { s with log := [] } =
          run ((Script.restricted refuses budget).eval e) { s with log := [] } := by
        have hgoes : (run ((Script.restricted refuses budget).eval e) { s with log := [] }).1 ≠ .error .exhausted :=
          hended _ List.mem_cons_self
        have hsame := Script.outcome_eval_of_restricted more hgoes
        exact congrArg (fun left : Except Fault Value × State => (left.1, { left.2 with
          activations := left.2.activations.modifyHead fun a => { a with ended := none } })) hsame
      rw [trace, trace, hfirst]
      exact congrArg (_ :: ·) (ih fun p hp => hended p (List.mem_cons_of_mem _ hp))

/-! ## The two sessions -/

/-- Steps that come to an end, and do nothing that can tell whether a class defers its constructor. -/
def Discreet (id : ClassId) (budget : Nat) (steps : List Script.Expr) (s : State) : Prop :=
  ∀ p ∈ trace (Script.restricted (Script.telling id) budget) s steps, p.1 ≠ .error .exhausted

/-- The result of a step and the state that it leaves, with the deferred constructor and without it. -/
structure SameAnswers (id : ClassId) (state : NativeState) (p p' : Except Fault Value × State) : Prop where
  result_eq : p'.1 = p.1
  /-- What does not belong to the world is the same. -/
  rest_eq : p'.2 = { p.2 with toWorld := p'.2.toWorld, log := p'.2.log }
  world : p.2.Indistinct id state p'.2.toWorld
  /-- The same values were logged, in worlds that are alike. -/
  log : List.Forall₂ (fun e e' => e'.2 = e.2 ∧ World.Indistinct id state e.1 e'.1) p.2.log p'.2.log

variable {tables : Set ClassTable} {c : FixedConstructor tables} {id : ClassId} {side : Side} {u u' : ClassTable}

/-- No object is of a class that is added. -/
theorem between_added (hs : Between s) (hid : id = s.classes.nextId) (htables : side.Tables id c.lazy u u')
    (hextends : s.classes.Extends u) (hu : u ∈ tables) (hu' : u' ∈ tables) :
    (c.mirror id side).Between { s with classes := u, log := [] } { s with classes := u', log := [] } where
  eq := rfl
  worlds :=
    { cells_eq := rfl
      classes := ⟨htables, ⟨u, hu, .refl u⟩, ⟨u', hu', .refl u'⟩⟩
      arena := by
        have hnum := (Reachable.between hs).numbered
        -- An object without a native state has to be of a class that is known and not of the new one.
        refine Arena.twin_refl fun slot hslot i hi => Or.inl ⟨rfl, fun _ => ?_⟩
        obtain ⟨k, hk⟩ := Array.mem_iff_getElem?.mp hslot
        have hget : s.arena.get? ⟨k, slot.generation⟩ = some i := by
          rw [Arena.get?, hk]
          exact (if_pos rfl).trans hi
        obtain ⟨b, hb, -⟩ := (Reachable.between hs).equipped.exists_class hget
        have hlt := ClassTable.lt_nextId_of_get? hb
        refine ⟨ClassTable.lt_nextId_of_get? (hextends.get? hb), ?_⟩
        rw [hextends.isSubclassOf_eq hnum (Side.numbered htables) hlt, hid]
        exact hnum.isSubclassOf_of_le (Nat.le_refl _) }
  log := .nil
  kept := ⟨Custody.Path.arena_path hs.arises, Custody.Path.arena_path hs.arises⟩
  steps _ := hs.stepsLeft_eq
  inside := Or.inl trivial

theorem sameAnswers_of_between {p p' : Except Fault Value × State} (hresult : p'.1 = p.1)
    (h : (c.mirror id .first).Between p.2 p'.2) : SameAnswers id c.state p p' where
  result_eq := hresult
  rest_eq := h.eq
  world := FixedConstructor.indistinct h.worlds h.kept
  log := h.log.imp fun _ _ he => ⟨he.2.2, FixedConstructor.indistinct he.1 he.2.1⟩

/-- Whichever session leads, the other one gives the same answers. -/
theorem forall₂_sameAnswers {d : ClassDraft} {t t' : ClassTable} (hs : Between s) (c : FixedConstructor {t, t'})
    (hclass : s.classes.Alternatives d c.lazy id t t') {budget : Nat} {steps : List Script.Expr}
    (hdiscreet : Discreet id budget steps { s with classes := t } ∨ Discreet id budget steps { s with classes := t' }) :
    List.Forall₂ (SameAnswers id c.state)
      (trace (Script.interpreter (budget + c.depth)) { s with classes := t } steps)
      (trace (Script.interpreter (budget + c.depth)) { s with classes := t' } steps) := by
  have hdeferral := hclass.deferral (Reachable.between hs).numbered
  obtain ⟨b, hbuild, rfl, rfl, rfl⟩ := hclass.exists_class
  have hid := (ClassTable.build_cases hbuild).1
  -- The session that leads is the one of which it is known that nothing is asked for.
  rcases hdiscreet with hdiscreet | hdiscreet
  · rw [trace_of_restricted c.depth steps hdiscreet]
    refine (follows_trace (c.leads b.id .first budget) steps ?_ hdiscreet).imp fun p p' hp =>
      sameAnswers_of_between hp.1 hp.2
    exact between_added hs hid hdeferral (ClassTable.extends_snoc _ _) (Or.inl rfl) (Or.inr rfl)
  · rw [trace_of_restricted c.depth steps hdiscreet]
    refine ((follows_trace (c.leads b.id .second budget) steps ?_ hdiscreet).flip).imp fun p p' hp =>
      sameAnswers_of_between hp.1.symm (FixedConstructor.between_symm hp.2)
    exact between_added hs hid hdeferral (ClassTable.extends_snoc _ _) (Or.inr rfl) (Or.inl rfl)

/-- A class with a deferred constructor that always yields the same behaves like the class with a constructor that runs the
same code at once.  The counts of the first one tell how many objects have been used, and no object is given a native state
more than once. -/
theorem deferral_transparent {d : ClassDraft} {t t' : ClassTable} (hs : Between s) (c : FixedConstructor {t, t'})
    (hclass : s.classes.Alternatives d c.lazy id t t') (budget : Nat) (steps : List Script.Expr)
    (hdiscreet : Discreet id budget steps { s with classes := t } ∨ Discreet id budget steps { s with classes := t' }) :
    List.Forall₂ (SameAnswers id c.state)
      (trace (Script.interpreter (budget + c.depth)) { s with classes := t } steps)
      (trace (Script.interpreter (budget + c.depth)) { s with classes := t' } steps) ∧
    ∀ (u : State) (more : Nat), u.classes.Numbered → Arena.Path {} u.arena →
      AllocatesOnce (Script.interpreter more).exec u := by
  refine ⟨forall₂_sameAnswers hs c hclass hdiscreet, fun u more hnum hpath => ?_⟩
  exact allocatesOnce (Script.interpreter_takes (Course.allowsAll_performing fun _ _ _ => True.intro) more).exec hnum
    (Arena.balanced_empty.path hpath)

/-! ## A class whose objects hold a five -/

/-- A deferred constructor that yields a five. -/
def fiveConstructor : LazyConstructor :=
  ⟨[.ret (Samples.fields [("value", Samples.int 5)])], Samples.Deferred.shape⟩

/-- Its class, with a method that tells the number. -/
def fiveClass : ClassDraft :=
  ({ name := "Lazy", lazyConstructor := some fiveConstructor } : ClassDraft).addMethod "value"
    (Samples.reads [] Samples.intTy) [.ret (.state "Lazy" "value")]

/-- The constructor does the same in every state. -/
def fixedFive (tables : Set ClassTable) : FixedConstructor tables where
  lazy := fiveConstructor
  state := ⟨Samples.Deferred.shape, .record [("value", .int 5)]⟩
  depth := 3
  mentioned _ _ := ⟨fun _ hh => absurd hh List.not_mem_nil, fun _ hb => absurd hb List.not_mem_nil⟩
  yields budget hbudget s _ hfree := by
    obtain ⟨n, rfl⟩ := Nat.exists_eq_add_of_le' hbudget
    cases s
    subst hfree
    exact ⟨_, rfl, rfl, rfl⟩

/-- A session in which a class is the only one. -/
def startWith (d : ClassDraft) : State :=
  { start {} [] with classes := ((({} : ClassTable).define d).toOption.map Prod.snd).getD {} }

/-- Of two objects and one of a class that derives from theirs, the first one is removed before it is used, and the second
one is asked for its number and copied. -/
def fiveSteps : List Script.Expr :=
  [.perform (.call (.construct (.named "Lazy") [] [])) (some "x"),
    .perform (.call (.construct (.named "Lazy") [] [])) (some "y"),
    .perform (.subclass "Sub" "Lazy" []) none,
    .perform (.call (.construct (.named "Sub") [] [])) (some "z"),
    .perform (.destroy (.var "x")) none,
    callOn "y" "value" [],
    .perform (.dup (.var "y")) (some "w")]

theorem alternatives_five :
    (start {} []).classes.Alternatives fiveClass fiveConstructor 0 (startWith fiveClass).classes
      (startWith fiveClass.eager).classes where
  lazy_eq := rfl
  constructors_eq := rfl
  bases _ hb := nomatch hb
  deferred := rfl
  eager := rfl

theorem discreet_five : Discreet 0 12 fiveSteps (startWith fiveClass) := by
  have hall : (trace (Script.restricted (Script.telling 0) 12) (startWith fiveClass) fiveSteps).all
      (fun p => !isStopped p.1) = true := by decide +kernel
  intro p hp hstopped
  have hgoes := List.all_eq_true.mp hall p hp
  rw [hstopped] at hgoes
  cases hgoes

/-- The steps have the same results with the deferred constructor and with the other one.  The first class counts the
object that is asked and its copy, and the second one counts every object. -/
theorem five_transparent :
    List.Forall₂ (SameAnswers 0 ⟨Samples.Deferred.shape, .record [("value", .int 5)]⟩)
      (trace (Script.interpreter 15) (startWith fiveClass) fiveSteps)
      (trace (Script.interpreter 15) (startWith fiveClass.eager) fiveSteps) ∧
    AllocatesOnce (Script.interpreter 15).exec (start {} []) ∧
    (trace (Script.interpreter 15) (startWith fiveClass) fiveSteps).map (fun p => p.2.arena.instanceCount 0) =
      [0, 0, 0, 0, 0, 1, 2] ∧
    (trace (Script.interpreter 15) (startWith fiveClass.eager) fiveSteps).map (fun p => p.2.arena.instanceCount 0) =
      [1, 2, 2, 2, 1, 1, 2] := by
  obtain ⟨hsame, honce⟩ := deferral_transparent (.start {} []) (fixedFive _) alternatives_five 12 fiveSteps
    (Or.inl discreet_five)
  exact ⟨hsame, honce (start {} []) 15 ClassTable.numbered_empty .refl, by decide +kernel, by decide +kernel⟩

end Session

end ObjectBridge
