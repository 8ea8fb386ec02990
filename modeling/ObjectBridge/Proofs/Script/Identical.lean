import ObjectBridge.Proofs.Script.Mirror

/-!
# A script and the same script that is stopped

The two runs go on in the same state, as long as the first one is not stopped.  So a run that is not stopped is the run of
the interpreter, and what a run keeps as long as it is not stopped, the run of the interpreter keeps.

* `Knowledge` — what is known about classes and objects while certain requests are refused.
* `Knowledge.mirror` — the two runs.
* `Knowledge.leads` — one follows the other, on every level.
* `outcome_eval_of_restricted` — a run that is not stopped is the run of the interpreter.
-/

namespace ObjectBridge

open Run Mirror

/-- What is known about the classes and objects of a state, and which requests stop a run.  It is known at any time if
it is known at the beginning. -/
structure Knowledge where
  refuses : Script.Refusals
  removes : Prop
  classes : ClassTable → Prop
  native : ClassTable → ClassId → Option NativeState → Prop
  kept : Arena → Prop
  native_some : ∀ t c x, native t c (some x)
  native_none : ∀ {t cls c}, classes t → t.descriptor cls = .ok c → native t c.id none
  native_snoc : ∀ {t d c x}, d.id = t.nextId → native t c x → native (t.snoc d) c x
  snoc : ∀ {t c}, classes t → c.id = t.nextId → (t.Numbered → ∀ b, c.base = some b → b < t.nextId) →
    classes (t.snoc c)
  kept_spares : ∀ {a b}, kept a → a.Spares b → kept b
  kept_step : ∀ {a b}, removes → kept a → a.Step b → kept b
  destroy : ∀ {s : State} {h}, refuses s (.destroy h) = false → removes
  reclaim : ∀ {s : State}, refuses s .reclaim = false → removes
  install : ∀ {s : State} {cls seat next}, refuses s (.install cls seat next) = false → removes

namespace Knowledge

variable {K : Knowledge} {s s' : State} {exec exec' : Exec}

/-- A run that is stopped at what is refused, and the same run that is not. -/
def mirror (K : Knowledge) : Mirror where
  native t c x y := y = x ∧ K.native t c x
  classes t t' := t' = t ∧ K.classes t
  kept _ a _ := K.kept a
  noted _ _ := True
  refuses := K.refuses
  removes := K.removes
  unlimited := False
  native_some t c x := ⟨rfl, K.native_some t c x⟩
  native_inj h := Option.some.inj h.1
  native_snoc _ _ hid _ _ _ h := ⟨h.1, K.native_snoc hid h.2⟩
  transparent _ _ _ _ _ h hne := absurd h.1.symm hne
  alike h := by
    rw [h.1]
    exact .refl _
  define h _ hbuild := by
    obtain ⟨hid, hbase, -⟩ := ClassTable.build_cases hbuild
    exact ⟨by rw [h.1], K.snoc h.2 hid fun hnum b hb => hnum.lt_of_baseOf (hb ▸ hbase)⟩
  defineSubclass h hdescribe := by
    obtain ⟨hid, hbase, -⟩ := ClassTable.describeSubclass_cases hdescribe
    exact ⟨by rw [h.1], K.snoc h.2 hid fun _ => hbase⟩
  describe h _ _ := by
    rw [h.1]
    exact ⟨rfl, rfl⟩
  instanceCount _ _ _ h := h.1
  count _ := ⟨fun _ _ h => h.1, fun _ _ _ _ h => h.1⟩
  kept_snoc _ h := h
  kept_spares h hspares _ := K.kept_spares h hspares
  kept_path hremoves h hpath _ := hpath.preserves (fun _ _ hstep h => K.kept_step hremoves h hstep) h
  noted_of_kept _ := trivial
  destroy := K.destroy
  reclaim := K.reclaim
  install := K.install

theorem settles (K : Knowledge) (t : ClassTable) (cls : ClassId) : (K.mirror.native t).Settles cls :=
  fun _ _ h => h.1

theorem classes_eq (h : K.mirror.Between s s') : s'.classes = s.classes := h.worlds.classes.1

theorem follows_materialize (hexec : K.mirror.FollowsAll exec exec') (h : Handle) (operation : String) :
    K.mirror.Follows (Lifetime.materialize exec h operation) (Lifetime.materialize exec' h operation) s s' := by
  refine follows_of_between fun hs => Lifetime.follows_materialize_of_settles hexec (fun i _ => ⟨?_, ?_⟩) ?_
  · exact K.settles _ _
  · rw [classes_eq hs]
  · exact fun _ _ _ _ _ _ _ _ _ => K.settles _ _

theorem makes (hexec : K.mirror.FollowsAll exec exec') : K.mirror.Makes exec exec' where
  bodies := hexec
  materialize h operation _ _ := follows_materialize hexec h operation
  stays {r h operation s s' t t'} hs _ _ hrun hrun' := by
    have hmade := follows_materialize hexec h operation hs
    rw [hrun, hrun'] at hmade
    have ht : K.mirror.Between t t' := (hmade fun hstopped => nomatch hstopped).2.1
    intro i i' hi hi'
    obtain ⟨j, hj, htwin⟩ := ht.arena.exists_get? hi
    obtain rfl := Option.some.inj (hi'.symm.trans hj)
    exact htwin.native.1

theorem follows_construct (hmakes : K.mirror.Makes exec exec') (cls : ClassId) (args : CallArgs) :
    K.mirror.Follows (Construction.construct exec cls args) (Construction.construct exec' cls args) s s' := by
  refine follows_of_between fun hs => ?_
  refine Construction.follows_construct hmakes ?_ (fun c _ => ?_) (fun c hc => ?_) args
  · rw [classes_eq hs]
  · rw [classes_eq hs]
  · exact ⟨rfl, K.native_none hs.worlds.classes.2 hc⟩

/-- On every level the run that is not stopped follows the one that is. -/
theorem leads (K : Knowledge) (more budget : Nat) :
    K.mirror.Leads (Script.restricted K.refuses budget) (Script.interpreter (budget + more)) :=
  Script.leads_restricted (M := fun _ : Unit => K.mirror) more (fun _ => rfl) (fun _ hexec _ => makes (hexec ()))
    (fun _ _ hmakes cls args _ _ _ => follows_construct hmakes cls args) budget ()

/-! ## The same states -/

theorem eq_of_worlds {w w' : World} (h : K.mirror.Worlds w w') : w' = w := by
  obtain ⟨classes, arena, cells⟩ := w
  obtain ⟨classes', arena', cells'⟩ := w'
  obtain rfl : cells' = cells := h.cells_eq
  obtain rfl : classes' = classes := h.classes.1
  obtain rfl : arena' = arena := h.arena.eq_of_settles (K.settles _)
  rfl

theorem eq_of_between (h : K.mirror.Between s s') : s' = s := by
  have hworld := eq_of_worlds h.worlds
  have hlog : s'.log = s.log := by
    have hall := h.log
    generalize s.log = log, s'.log = log' at hall
    induction hall with
    | nil => rfl
    | cons he _ ih => exact congrArg₂ List.cons (Prod.ext (eq_of_worlds he.1) he.2.2) ih
  rw [h.eq, hworld, hlog]

/-- What is known of the objects that are in the arena. -/
def Holds (K : Knowledge) (w : World) : Prop :=
  K.classes w.classes ∧ ∀ slot ∈ w.arena.slots, ∀ i ∈ slot.occupant, K.native w.classes i.cls i.native

theorem worlds_self {w : World} (h : K.Holds w) : K.mirror.Worlds w w where
  cells_eq := rfl
  classes := ⟨rfl, h.1⟩
  arena := Arena.twin_refl fun slot hslot i hi => ⟨rfl, h.2 slot hslot i hi⟩

/-- Two runs start in the same state. -/
theorem between_self (h : K.Holds s.toWorld) (hlog : ∀ e ∈ s.log, K.Holds e.1) (hkept : K.kept s.arena)
    (hinside : K.removes ∨ s.frames ≠ []) : K.mirror.Between s s where
  eq := rfl
  worlds := worlds_self h
  log := List.forall₂_same.mpr fun e he => ⟨worlds_self (hlog e he), trivial, rfl⟩
  kept := hkept
  steps hfree := hfree.elim
  inside := hinside

/-! ## Nothing is known -/

/-- Nothing is known of a run that is stopped at what is refused. -/
def ofRefusals (refuses : Script.Refusals) : Knowledge where
  refuses := refuses
  removes := True
  classes _ := True
  native _ _ _ := True
  kept _ := True
  native_some _ _ _ := trivial
  native_none _ _ := trivial
  native_snoc _ _ := trivial
  snoc _ _ _ := trivial
  kept_spares _ _ := trivial
  kept_step _ _ _ := trivial
  destroy _ := trivial
  reclaim _ := trivial
  install _ := trivial

/-- A run that is not stopped ends in the same state as the run that follows it. -/
theorem outcome_eq_of_follows {α : Type} {refuses : Script.Refusals} {act act' : Run α}
    (hfollows : (ofRefusals refuses).mirror.Follows act act' s s) (hended : (act.outcome s).1 ≠ .error .exhausted) :
    act'.outcome s = act.outcome s := by
  have hholds (w : World) : (ofRefusals refuses).Holds w := ⟨trivial, fun _ _ _ _ => trivial⟩
  have hstart : (ofRefusals refuses).mirror.Between s s :=
    between_self (hholds _) (fun _ _ => hholds _) trivial (Or.inl trivial)
  obtain ⟨hsame, hbetween, -⟩ := hfollows hstart hended
  exact Prod.ext hsame (eq_of_between hbetween)

end Knowledge

namespace Script

variable {refuses : Refusals} {budget : Nat}

/-- An evaluation that is not stopped is the one of the interpreter, on this level or on a higher one. -/
theorem outcome_eval_of_restricted (more : Nat) {e : Expr} {s : State}
    (hended : (((restricted refuses budget).eval e).outcome s).1 ≠ .error .exhausted) :
    ((interpreter (budget + more)).eval e).outcome s = ((restricted refuses budget).eval e).outcome s :=
  Knowledge.outcome_eq_of_follows (((Knowledge.ofRefusals refuses).leads more budget).eval e s s) hended

/-- So is native code that is not stopped. -/
theorem outcome_runNative_of_restricted (more : Nat) {recv : Option Handle} {args : List Value} {code : Code}
    {s : State} (hended : ((Lifetime.runNative (restricted refuses budget).exec recv args code).outcome s).1 ≠
      .error .exhausted) :
    (Lifetime.runNative (interpreter (budget + more)).exec recv args code).outcome s =
      (Lifetime.runNative (restricted refuses budget).exec recv args code).outcome s :=
  Knowledge.outcome_eq_of_follows
    (Lifetime.follows_runNative ((Knowledge.ofRefusals refuses).leads more budget).makes.bodies recv args code) hended

/-- So is a deferred construction that is not stopped. -/
theorem outcome_materialize_of_restricted (more : Nat) {h : Handle} {operation : String} {s : State}
    (hended : ((Lifetime.materialize (restricted refuses budget).exec h operation).outcome s).1 ≠
      .error .exhausted) :
    (Lifetime.materialize (interpreter (budget + more)).exec h operation).outcome s =
      (Lifetime.materialize (restricted refuses budget).exec h operation).outcome s :=
  Knowledge.outcome_eq_of_follows
    (((Knowledge.ofRefusals refuses).leads more budget).makes.materialize h operation s s) hended

/-- So is a construction that is not stopped. -/
theorem outcome_construct_of_restricted (more : Nat) {cls : ClassId} {args : CallArgs} {s : State}
    (hended : ((Construction.construct (restricted refuses budget).exec cls args).outcome s).1 ≠
      .error .exhausted) :
    (Construction.construct (interpreter (budget + more)).exec cls args).outcome s =
      (Construction.construct (restricted refuses budget).exec cls args).outcome s :=
  Knowledge.outcome_eq_of_follows
    (Knowledge.follows_construct ((Knowledge.ofRefusals refuses).leads more budget).makes cls args) hended

end Script

end ObjectBridge
