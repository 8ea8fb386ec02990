import ObjectBridge.Proofs.Call.Deferral

/-!
# Construction at once and construction that is deferred

A class has a deferred constructor that always yields the same native state.  One run defers it, and the other one
constructs objects at once.  Then an object of the class, or of a class that derives from it, has its native state in one
state while it may still be without it in the other state, and nothing else is different.

* `Script.telling` — the requests that can tell the two runs apart.
* `FixedConstructor.mirror` — the two runs, either of which may come first.
* `FixedConstructor.leads` — one run follows the other, on every level.
-/

namespace ObjectBridge

open Run Mirror

/-! ## How the two states differ -/

/-- Which one of two runs defers the construction. -/
inductive Side where
  | first
  | second

namespace Side

/-- The native states of an object that one of the runs has constructed before the other one. -/
def Late (state : NativeState) : Side → Option NativeState → Option NativeState → Prop
  | first, x, y => x = none ∧ y = some state
  | second, x, y => x = some state ∧ y = none

/-- The classes of the two runs. -/
def Tables (id : ClassId) (l : LazyConstructor) : Side → ClassTable → ClassTable → Prop
  | first, t, t' => ClassTable.Deferral id l t t'
  | second, t, t' => ClassTable.Deferral id l t' t

variable {side : Side} {id cls : ClassId} {t t' : ClassTable} {c : ClassInfo}

theorem alike (h : side.Tables id l t t') : t.Alike t' := by
  cases side with
  | first => exact h.alike
  | second => exact h.alike.symm

theorem numbered (h : side.Tables id l t t') : t.Numbered := by
  cases side with
  | first => exact h.numbered
  | second => exact h.alike.numbered h.numbered

theorem find_eq (h : side.Tables id l t t') (hother : t.isSubclassOf cls id = false) :
    t'.findLazy cls = t.findLazy cls ∧ t'.findConstructors cls = t.findConstructors cls := by
  cases side with
  | first => exact (h.defers cls).other hother
  | second =>
      rw [h.alike.isSubclassOf_eq] at hother
      obtain ⟨hlazy, hfind⟩ := (h.defers cls).other hother
      exact ⟨hlazy.symm, hfind.symm⟩

theorem snoc (h : side.Tables id l t t') (hid : c.id = t.nextId)
    (hbase : t.Numbered → ∀ b, c.base = some b → b < t.nextId)
    (hnone : ∀ b, c.base = some b → t.isSubclassOf b id = true → c.constructors = [] ∧ c.lazyConstructor = none) :
    side.Tables id l (t.snoc c) (t'.snoc c) := by
  cases side with
  | first => exact h.snoc hid (hbase h.numbered) hnone
  | second =>
      have hsize := h.alike.nextId_eq
      refine h.snoc (hid.trans hsize) (fun b hb => ?_) fun b hb hfamily => ?_
      · rw [← hsize]
        exact hbase (h.alike.numbered h.numbered) b hb
      · rw [← h.alike.isSubclassOf_eq] at hfamily
        exact hnone b hb hfamily

/-- The native states of two objects: they are the same, or one of the runs has not constructed its object yet.  An object
of the class that has no native state in either state is of another class that is known. -/
def Natives (id : ClassId) (state : NativeState) (side : Side) (t : ClassTable) : NativeRel := fun cls x y =>
  y = x ∧ (x = none → cls < t.nextId ∧ t.isSubclassOf cls id = false) ∨
    t.isSubclassOf cls id = true ∧ side.Late state x y

variable {state : NativeState}

theorem settles (hother : t.isSubclassOf cls id = false) : (side.Natives id state t).Settles cls := by
  rintro x y (⟨hsame, -⟩ | ⟨hfamily, -⟩)
  · exact hsame
  · rw [hother] at hfamily
    cases hfamily

theorem natives_some (t : ClassTable) (cls : ClassId) (x : NativeState) :
    side.Natives id state t cls (some x) (some x) :=
  Or.inl ⟨rfl, fun hnone => nomatch hnone⟩

theorem natives_inj {x y : NativeState} (h : side.Natives id state t cls (some x) (some y)) : y = x := by
  rcases h with ⟨hsame, -⟩ | ⟨-, hlate⟩
  · exact Option.some.inj hsame
  · cases side with
    | first => cases hlate.1
    | second => cases hlate.2

/-- More classes change nothing about objects whose classes are known. -/
theorem natives_snoc (hnum : t.Numbered) (hnum' : (t.snoc c).Numbered) {x y : Option NativeState}
    (h : side.Natives id state t cls x y) : side.Natives id state (t.snoc c) cls x y := by
  have hsame (hlt : cls < t.nextId) : (t.snoc c).isSubclassOf cls id = t.isSubclassOf cls id :=
    (t.extends_snoc c).isSubclassOf_eq hnum hnum' hlt id
  rcases h with ⟨hxy, hknown⟩ | ⟨hfamily, hlate⟩
  · refine Or.inl ⟨hxy, fun hnone => ?_⟩
    obtain ⟨hlt, hother⟩ := hknown hnone
    rw [hsame hlt, ClassTable.nextId_snoc]
    exact ⟨Nat.lt_succ_of_lt hlt, hother⟩
  · have hlt : cls < t.nextId := by
      refine Nat.lt_of_not_le fun hle => ?_
      rw [ClassTable.isSubclassOf_of_le hle] at hfamily
      cases hfamily
    exact Or.inr ⟨(hsame hlt).trans hfamily, hlate⟩

theorem transparent {vs : List Value} (hmentioned : (Value.map state.fields).MentionedBy vs) (t : ClassTable) :
    (side.Natives id state t).Transparent vs := by
  rintro cls x y found (⟨rfl, -⟩ | ⟨-, hlate⟩) hne hfound
  · exact absurd rfl hne
  · -- One of the objects has no native state, and the other one has that of the constructor.
    cases side with
    | first =>
        obtain ⟨rfl, rfl⟩ := hlate
        obtain hnone | hsome := hfound
        · cases hnone
        · exact Option.some.inj hsome ▸ hmentioned
    | second =>
        obtain ⟨rfl, rfl⟩ := hlate
        obtain hsome | hnone := hfound
        · exact Option.some.inj hsome ▸ hmentioned
        · cases hnone

end Side

/-! ## What can tell the two runs apart -/

namespace Script

/-- What can tell whether a class defers its constructor: to construct it with arguments, to derive from it a class with
constructors, to ask how it is constructed, or to count its objects.  Moreover, a body must not end when the generations
of a slot are used up, as its object might not be the one then that it was for. -/
def telling (id : ClassId) : Refusals
  | s, .construct cls args => s.classes.isSubclassOf cls id && !args.isEmpty
  | s, .define d =>
      (s.classes.build d).toOption.any fun c =>
        c.base.any (fun b => s.classes.isSubclassOf b id) && (!c.constructors.isEmpty || c.lazyConstructor.isSome)
  | s, .describe cls => s.classes.isSubclassOf cls id
  | s, .count cls => (cls :: s.classes.descendants cls).any fun c => s.classes.isSubclassOf c id
  | s, .instanceCount cls => s.classes.isSubclassOf cls id
  | s, .leave => s.arena.slots.any fun slot => decide (2 ^ 32 ≤ slot.removals)
  | _, _ => false

variable {id : ClassId} {s : State}

/-- Where a body has ended, no generations are used up. -/
theorem removals_lt_of_telling (h : telling id s .leave = false) (slot : Nat) :
    (s.arena.slotAt slot).removals < 2 ^ 32 := by
  rw [telling, Array.any_eq_false] at h
  rw [Arena.slotAt]
  cases hslot : s.arena.slots[slot]? with
  | none => exact Nat.two_pow_pos 32
  | some found =>
      obtain ⟨hlt, hfound⟩ := Array.getElem?_eq_some_iff.mp hslot
      have hfew := h slot hlt
      rw [decide_eq_true_eq, hfound] at hfew
      exact Nat.lt_of_not_le hfew

end Script

namespace FixedConstructor

variable {tables : Set ClassTable} {side : Side} {id : ClassId} {s s' : State}

/-- The two runs, one of which defers the constructor. -/
def mirror (c : FixedConstructor tables) (id : ClassId) (side : Side) : Mirror where
  native := side.Natives id c.state
  classes t t' := side.Tables id c.lazy t t' ∧ t.Grown tables ∧ t'.Grown tables
  kept _ a a' := Arena.Path {} a ∧ Arena.Path {} a'
  noted a a' := Arena.Path {} a ∧ Arena.Path {} a'
  refuses := Script.telling id
  removes := True
  unlimited := True
  native_some := Side.natives_some
  native_inj := Side.natives_inj
  native_snoc h hnext _ _ _ _ := Side.natives_snoc (Side.numbered h.1) (Side.numbered hnext.1)
  transparent h := Side.transparent (c.mentionedBy h.2.1) _
  alike h := Side.alike h.1
  define {s t' d b} h hgranted hbuild := by
    obtain ⟨hid, hbase, -⟩ := ClassTable.build_cases hbuild
    refine ⟨Side.snoc h.1 hid (fun hnum b hb => hnum.lt_of_baseOf (hb ▸ hbase)) fun base hb hfamily => ?_,
      h.2.1.snoc b, h.2.2.snoc b⟩
    rw [Script.telling, hbuild] at hgranted
    simpa [Except.toOption, hb, hfamily] using hgranted
  defineSubclass {t t' name base overrides b} h hdescribe := by
    obtain ⟨hid, hbase, hnone⟩ := ClassTable.describeSubclass_cases hdescribe
    exact ⟨Side.snoc h.1 hid (fun _ => hbase) fun _ _ _ => hnone, h.2.1.snoc b, h.2.2.snoc b⟩
  describe h hgranted hb := by
    have hid := (Side.numbered h.1).id_eq (ClassTable.descriptor_eq_ok_iff.mp hb)
    rw [hid]
    obtain ⟨hlazy, hfind⟩ := Side.find_eq h.1 hgranted
    exact ⟨congrArg Option.isSome hlazy, hfind⟩
  instanceCount hgranted := Side.settles hgranted
  count hgranted := by
    rw [Script.telling, List.any_cons, Bool.or_eq_false_iff, List.any_eq_false] at hgranted
    exact ⟨Side.settles hgranted.1, fun b hb => Side.settles (Bool.eq_false_iff.mpr (hgranted.2 b hb))⟩
  kept_snoc _ h := h
  kept_spares h hspares hspares' := ⟨h.1.tail hspares.step, h.2.tail hspares'.step⟩
  kept_path _ h hpath hpath' := ⟨h.1.trans hpath, h.2.trans hpath'⟩
  noted_of_kept h := h
  destroy _ := trivial
  reclaim _ := trivial
  install _ := trivial

/-! ## What a deferred constructor leaves -/

section Leading

variable {budget : Nat} {exec : Exec} {t : State} {h : Handle} {operation : String}

/-- No generation is used up where native code has ended. -/
theorem removals_lt_of_runNative {recv : Option Handle} {args : List Value} {code : Code} {body : Activation}
    (hrun : (Lifetime.runNative (Script.restricted (Script.telling id) budget).exec recv args code).outcome s =
      (.ok body, t)) (slot : Nat) : (t.arena.slotAt slot).removals < 2 ^ 32 := by
  rw [Lifetime.outcome_runNative] at hrun
  rcases hcode : ((Script.restricted (Script.telling id) budget).exec code).outcome
    (Lifetime.nativeStart s recv args) with ⟨result, u⟩
  rw [hcode] at hrun
  match result with
  | .ok () =>
      obtain ⟨-, rfl⟩ := Prod.mk.inj hrun
      exact Script.removals_lt_of_telling (Script.leave_of_exec hcode) slot
  | .error (.raised e) => cases hrun
  | .error .exhausted => cases hrun

/-- Native code changes the arena step by step, and adds classes. -/
theorem path_of_runNative (hnum : s.classes.Numbered) {recv : Option Handle} {args : List Value} {code : Code}
    {body : Activation}
    (hrun : (Lifetime.runNative (Script.restricted (Script.telling id) budget).exec recv args code).outcome s =
      (.ok body, t)) : s.arena.Path t.arena ∧ s.classes.Extends t.classes ∧ t.classes.Numbered := by
  have hplain : (Lifetime.runNative (Script.interpreter budget).exec recv args code).outcome s = (.ok body, t) := by
    refine (Script.outcome_runNative_of_restricted 0 fun hstopped => ?_).trans hrun
    rw [hrun] at hstopped
    cases hstopped
  have htakes {C : Course} (hall : C.AllowsAll) :=
    Lifetime.takes_runNative (s := s) (Script.interpreter_takes hall budget).exec recv args code
  have hperforms := (htakes (Course.allowsAll_performing (P := fun _ _ _ => True) fun _ _ _ => True.intro)).performs
  have horderly := (htakes Course.allowsAll_orderly).orderly hnum
  rw [Performs, hplain] at hperforms
  rw [hplain] at horderly
  obtain ⟨ds, -, hdoes⟩ := hperforms
  exact ⟨hdoes.path, horderly.1.extends, horderly.1.numbered hnum⟩

/-- The arena changes step by step while an object gets its native state. -/
theorem path_of_materialize
    (hrun : (Lifetime.materialize (Script.interpreter budget).exec h operation).outcome s = (.ok (), t)) :
    s.arena.Path t.arena := by
  have hexec := (Script.interpreter_performs (P := fun _ _ _ => True) (fun _ _ _ => trivial) budget).exec
  have hperforms := (Lifetime.takes_materialize (s := s) hexec.takes h operation).performs
  rw [Performs, hrun] at hperforms
  obtain ⟨ds, -, hdoes⟩ := hperforms
  exact hdoes.path

/-- Nothing was removed from a slot whose object is there before and after an object gets its native state. -/
theorem removals_eq_of_materialize (hbal : s.arena.Balanced) (hnum : s.arena.Numbered)
    (hrun : (Lifetime.materialize (Script.restricted (Script.telling id) budget).exec h operation).outcome s =
      (.ok (), t)) (hpath : s.arena.Path t.arena) {r : Reference} {i j : Instance} (hi : s.arena.get? r = some i)
    (hj : t.arena.get? r = some j) : (t.arena.slotAt r.slot).removals = (s.arena.slotAt r.slot).removals := by
  obtain ⟨-, -, ⟨-, rfl⟩ | ⟨code, body, u, state, a, -, hbody, hmat, rfl⟩⟩ := Lifetime.materialize_cases hrun
  · rfl
  · refine hpath.removals_eq_of_get? hbal hnum ?_ hi hj
    show (a.slotAt r.slot).removals < 2 ^ 32
    rw [Arena.removals_materialize hmat]
    exact removals_lt_of_runNative hbody r.slot

end Leading

/-! ## One run follows the other -/

variable {c : FixedConstructor tables} {budget : Nat}

theorem balanced (hs : (c.mirror id side).Between s s') : s.arena.Balanced ∧ s'.arena.Balanced :=
  ⟨Arena.balanced_empty.path hs.kept.1, Arena.balanced_empty.path hs.kept.2⟩

theorem numbered (hs : (c.mirror id side).Between s s') : s.arena.Numbered :=
  Arena.Numbered.path hs.kept.1 Arena.balanced_empty Arena.numbered_empty

/-- The class of an object is known, and it is not a class that defers in one run alone. -/
theorem cases_of_between (hs : (c.mirror id side).Between s s') {r : Reference} {i i' : Instance}
    (hi : s.arena.get? r = some i) (hi' : s'.arena.get? r = some i') :
    i'.cls = i.cls ∧ (i'.native = i.native ∧
        (i.native = none → i.cls < s.classes.nextId ∧ s.classes.isSubclassOf i.cls id = false) ∨
      s.classes.isSubclassOf i.cls id = true ∧ side.Late c.state i.native i'.native) := by
  obtain ⟨k, hk, htwin⟩ := hs.arena.exists_get? hi
  obtain rfl := Option.some.inj (hi'.symm.trans hk)
  exact ⟨htwin.cls_eq, htwin.native⟩

/-- Objects of other classes get their native states in both runs. -/
theorem follows_materialize_other
    (hbodies : (c.mirror id side).FollowsAll (Script.restricted (Script.telling id) budget).exec
      (Script.interpreter (budget + c.depth)).exec) {h : Handle} (operation : String)
    (hother : ∀ i, s.arena.get? h.target = some i → s.classes.isSubclassOf i.cls id = false) :
    (c.mirror id side).Follows (Lifetime.materialize (Script.restricted (Script.telling id) budget).exec h operation)
      (Lifetime.materialize (Script.interpreter (budget + c.depth)).exec h operation) s s' := by
  refine follows_of_between fun hs => Lifetime.follows_materialize_of_settles hbodies (fun i hi => ⟨?_, ?_⟩) ?_
  · exact Side.settles (hother i hi)
  · exact (Side.find_eq hs.worlds.classes.1 (hother i hi)).1
  · -- While the deferred constructor runs, no other object takes the place of the one that it is for.
    intro i code body t hi hnone hbody j hj
    have hnum := Side.numbered hs.worlds.classes.1
    obtain ⟨hpath, hextends, hnum'⟩ := path_of_runNative hnum hbody
    have hsame : j.cls = i.cls :=
      (hpath.continues_of_get? (balanced hs).1 (numbered hs) (removals_lt_of_runNative hbody _) hi hj).cls_eq
    obtain ⟨i', hi', -⟩ := hs.arena.exists_get? hi
    have hlt : i.cls < s.classes.nextId := by
      obtain ⟨-, ⟨-, hknown⟩ | ⟨hfamily, -⟩⟩ := cases_of_between hs hi hi'
      · refine (hknown ?_).1
        simpa [Instance.isMaterialized] using hnone
      · rw [hother i hi] at hfamily
        cases hfamily
    refine Side.settles ?_
    rw [hsame, hextends.isSubclassOf_eq hnum hnum' hlt]
    exact hother i hi

/-- An object of the class gets its native state in one run alone, unless it has it in both. -/
theorem follows_materialize
    (hbodies : (c.mirror id side).FollowsAll (Script.restricted (Script.telling id) budget).exec
      (Script.interpreter (budget + c.depth)).exec) (h : Handle) (operation : String) :
    (c.mirror id side).Follows (Lifetime.materialize (Script.restricted (Script.telling id) budget).exec h operation)
      (Lifetime.materialize (Script.interpreter (budget + c.depth)).exec h operation) s s' := by
  refine follows_of_between fun hs => ?_
  by_cases hfamily : ∃ i, s.arena.get? h.target = some i ∧ s.classes.isSubclassOf i.cls id = true
  · obtain ⟨i, hi, hfamily⟩ := hfamily
    obtain ⟨i', hi', -⟩ := hs.arena.exists_get? hi
    obtain ⟨hcls, ⟨hsame, hknown⟩ | ⟨-, hlate⟩⟩ := cases_of_between hs hi hi'
    · have hmade : i.isMaterialized = true := by
        refine Option.isSome_iff_ne_none.mpr fun hnone => ?_
        rw [(hknown hnone).2] at hfamily
        cases hfamily
      have hmade' : i'.isMaterialized = true := by rwa [Instance.isMaterialized, hsame]
      exact follows_of_outcome (Lifetime.outcome_materialize hi hmade operation)
        (Lifetime.outcome_materialize hi' hmade' operation)
    · rw [← hcls] at hfamily
      have hyields (t : State) (ht : t.classes.Grown tables) (hfree : t.stepsLeft = none) :
          c.lazy.Yields c.state (Script.interpreter (budget + c.depth)).exec t :=
        c.yields _ (Nat.le_add_left _ _) t ht hfree
      have hfree := hs.steps trivial
      have hfree' : s'.stepsLeft = none := (hs.congr State.stepsLeft fun _ _ _ => rfl).trans hfree
      intro _ hended
      cases side with
      | first =>
          -- The first run constructs an object that the second one has constructed long ago.
          obtain ⟨hnone, hstate⟩ := hlate
          have hlazy := (hs.worlds.classes.1.defers i.cls).deferred (hcls ▸ hfamily)
          obtain ⟨a, hmat, hrun⟩ := Lifetime.outcome_materialize_of_yields operation hi
            (by simp [Instance.isMaterialized, hnone]) hlazy (hyields s hs.worlds.classes.2.1 hfree)
          rw [← Script.outcome_materialize_of_restricted c.depth hended, hrun,
            Lifetime.outcome_materialize hi' (by simp [Instance.isMaterialized, hstate]) operation]
          have htwin := hs.arena.materialized ((c.mirror id .first).native_some _) hi hnone hi' hstate hmat
          exact ⟨rfl, hs.setArena_of_spares htwin (Arena.spares_materialize hmat) (.refl _), rfl⟩
      | second =>
          obtain ⟨hstate, hnone⟩ := hlate
          have hlazy := (hs.worlds.classes.1.defers i'.cls).deferred
            ((hs.classes.isSubclassOf_eq i'.cls id).trans hfamily)
          obtain ⟨a, hmat, hrun⟩ := Lifetime.outcome_materialize_of_yields operation hi'
            (by simp [Instance.isMaterialized, hnone]) hlazy (hyields s' hs.worlds.classes.2.2 hfree')
          rw [hrun, Lifetime.outcome_materialize hi (by simp [Instance.isMaterialized, hstate]) operation]
          have htwin := hs.arena.materialized_second ((c.mirror id .second).native_some _) hi hstate hi' hnone hmat
          exact ⟨rfl, hs.setArena_of_spares htwin (.refl _) (Arena.spares_materialize hmat), rfl⟩
  · refine follows_materialize_other hbodies operation fun i hi => ?_
    exact Bool.eq_false_iff.mpr fun hsub => hfamily ⟨i, hi, hsub⟩

theorem makes
    (hbodies : (c.mirror id side).FollowsAll (Script.restricted (Script.telling id) budget).exec
      (Script.interpreter (budget + c.depth)).exec) :
    (c.mirror id side).Makes (Script.restricted (Script.telling id) budget).exec
      (Script.interpreter (budget + c.depth)).exec where
  bodies := hbodies
  materialize h operation _ _ := follows_materialize hbodies h operation
  stays {r h operation s s' t t'} hs hmade hmade' hrun hrun' := by
    have hfollows := follows_materialize hbodies h operation hs
    rw [hrun, hrun'] at hfollows
    have ht : (c.mirror id side).Between t t' := (hfollows fun hstopped => nomatch hstopped).2.1
    have hpath : s.arena.Path t.arena := by
      refine path_of_materialize ((Script.outcome_materialize_of_restricted 0 fun hstopped => ?_).trans hrun)
      rw [hrun] at hstopped
      cases hstopped
    intro j j' hj hj'
    have hreached := hmade
    obtain ⟨i, hi, -⟩ := hreached
    -- The object is there before and after, and too few can go meanwhile for its reference to be used again.
    have hsame := removals_eq_of_materialize (balanced hs).1 (numbered hs) hrun hpath hi hj
    have hsame' : (t'.arena.slotAt r.slot).removals = (s'.arena.slotAt r.slot).removals := by
      rw [ht.arena.removals_eq, hs.arena.removals_eq, hsame]
    exact Lifetime.settled_of_made ht (hpath.made (balanced hs).1 hmade hsame)
      ((path_of_materialize hrun').made (balanced hs).2 hmade' hsame') j j' hj hj'

/-- The state in which a constructor without parameters runs. -/
theorem yields_captured (hgrown : s.classes.Grown tables) (hfree : s.stepsLeft = none) (cls : ClassId) :
    c.lazy.Yields c.state (Script.interpreter (budget + c.depth)).exec
      (withHeld s ([] ++ Construction.captured s cls)) :=
  c.yields _ (Nat.le_add_left _ _) _ hgrown hfree

/-- An object of the class is constructed with a native state in one run, and without one in the other run. -/
theorem follows_construct_family {cls : ClassId} (hfamily : s.classes.isSubclassOf cls id = true) :
    (c.mirror id side).Follows
      (Construction.construct (Script.restricted (Script.telling id) budget).exec cls {})
      (Construction.construct (Script.interpreter (budget + c.depth)).exec cls {}) s s' := by
  refine follows_of_between fun hs => ?_
  have hclasses := hs.worlds.classes
  have hfamily' : s'.classes.isSubclassOf cls id = true := (hs.classes.isSubclassOf_eq cls id).trans hfamily
  have hfree := hs.steps trivial
  have hfree' : s'.stepsLeft = none := (hs.congr State.stepsLeft fun _ _ _ => rfl).trans hfree
  have hnum := Side.numbered hclasses.1
  have hnum' := hs.classes.numbered hnum
  obtain ⟨b, hb⟩ : ∃ b, s.classes.get? cls = some b := by
    refine ⟨_, List.getElem?_eq_getElem (Nat.lt_of_not_le fun hle => ?_)⟩
    rw [ClassTable.isSubclassOf_of_le hle] at hfamily
    cases hfamily
  obtain ⟨b', hb', houtline⟩ : ∃ b', s'.classes.get? cls = some b' ∧ b'.outline = b.outline := by
    have hget := hs.classes.get?_eq cls
    rw [hb] at hget
    exact Option.map_eq_some_iff.mp hget
  have hid := hnum.id_eq hb
  have hid' := hnum'.id_eq hb'
  have hdescriptor := ClassTable.descriptor_eq_ok_iff.mpr hb
  have hdescriptor' := ClassTable.descriptor_eq_ok_iff.mpr hb'
  have hlate {x y : Option NativeState} (h : side.Late c.state x y) :
      (c.mirror id side).Follows (Construction.registerNew b x) (Construction.registerNew b' y) s s' :=
    Construction.follows_registerNew houtline (hid.symm ▸ Or.inr ⟨hfamily, h⟩)
  intro _ hended
  cases side with
  | first =>
      obtain ⟨hnone, owner, hfind⟩ := (hclasses.1.defers cls).eager hfamily
      -- On the left the object is deferred, on the right its constructor runs and leaves nothing else.
      rw [Construction.outcome_construct_deferred hdescriptor hid ((hclasses.1.defers cls).deferred hfamily)] at hended ⊢
      rw [Construction.outcome_construct_of_yields hdescriptor' hid' hnone hfind hfree'
        (c.mentionedBy hclasses.2.2)
        (yields_captured hclasses.2.2 hfree' cls)]
      exact hlate ⟨rfl, rfl⟩ hs hended
  | second =>
      obtain ⟨hnone, owner, hfind⟩ := (hclasses.1.defers cls).eager hfamily'
      -- The sides are swapped, and the run on the left is a restricted one: where it ends, the full one agrees.
      have hlead := Script.outcome_construct_of_restricted c.depth hended
      rw [Construction.outcome_construct_of_yields hdescriptor hid hnone hfind hfree
        (c.mentionedBy hclasses.2.1)
        (yields_captured hclasses.2.1 hfree cls)] at hlead
      rw [← hlead] at hended ⊢
      rw [Construction.outcome_construct_deferred hdescriptor' hid' ((hclasses.1.defers cls).deferred hfamily')]
      exact hlate ⟨rfl, rfl⟩ hs hended

theorem follows_construct
    (hmakes : (c.mirror id side).Makes (Script.restricted (Script.telling id) budget).exec
      (Script.interpreter (budget + c.depth)).exec) (cls : ClassId) (args : CallArgs)
    (hgranted : Script.telling id s (.construct cls args) = false) :
    (c.mirror id side).Follows
      (Construction.construct (Script.restricted (Script.telling id) budget).exec cls args)
      (Construction.construct (Script.interpreter (budget + c.depth)).exec cls args) s s' := by
  refine follows_of_between fun hs => ?_
  -- Inside the family the sides differ in when the constructor runs; outside of it they do the same.
  cases hfamily : s.classes.isSubclassOf cls id with
  | true =>
      have hnone : args.isEmpty = true := by simpa [Script.telling, hfamily] using hgranted
      obtain rfl := Construction.eq_of_isEmpty hnone
      exact follows_construct_family hfamily
  | false =>
      obtain ⟨hlazy, hfind⟩ := Side.find_eq hs.worlds.classes.1 hfamily
      have hid {b : ClassInfo} (hb : s.classes.descriptor cls = .ok b) : s.classes.get? cls = some b ∧ b.id = cls :=
        ⟨ClassTable.descriptor_eq_ok_iff.mp hb,
          (Side.numbered hs.worlds.classes.1).id_eq (ClassTable.descriptor_eq_ok_iff.mp hb)⟩
      refine Construction.follows_construct hmakes (congrArg Option.isSome hlazy) (fun b hb => ?_) (fun b hb => ?_) args
      · rw [(hid hb).2, hfind]
      · rw [(hid hb).2]
        exact Or.inl ⟨rfl, fun _ => ⟨ClassTable.lt_nextId_of_get? (hid hb).1, hfamily⟩⟩

/-- On every level the run of either class follows the run of the other one, if nothing tells them apart. -/
theorem leads (c : FixedConstructor tables) (id : ClassId) (side : Side) (budget : Nat) :
    (c.mirror id side).Leads (Script.restricted (Script.telling id) budget)
      (Script.interpreter (budget + c.depth)) :=
  Script.leads_restricted (M := fun _ : Unit => c.mirror id side) c.depth (fun _ => rfl)
    (fun _ hbodies _ => makes (hbodies ())) (fun _ _ hmakes cls args _ _ hgranted =>
      follows_construct hmakes cls args hgranted) budget ()

end FixedConstructor

end ObjectBridge
