import ObjectBridge.Proofs.Call.Conforming
import ObjectBridge.Proofs.Run.Spare

/-!
# Results where there are spare cells

The result of a body is delivered in the same way whether or not there are spare cells.

* `Conversion.convert_renumber` — the conversion to a declared type.
* `Lifetime.alike_dup` — the copy of an object, which may have to be constructed before.
* `Delivery.alike_giveBack` — the result as the caller receives it.
-/

namespace ObjectBridge

open Run

variable {n k : Nat} {deferred : Code → Prop} {s t : State}

namespace Conversion

/-- A converted value with other numbers for its boxes. -/
def renumberConverted (f : BoxId → BoxId) (converted : Converted) : Converted :=
  (converted.1.renumber f, converted.2)

theorem carried_below {cells : Cells} (hclosed : cells.Closed) : cells.Carried (Value.Below cells.size) :=
  Cells.carried_boxes fun _ _ _ hc => hclosed.holds hc

theorem below_convert (hs : State.Spare n k deferred s t) {type : Ty} {passing : Passing} {v u : Value} {cost : Nat}
    (h : convert s.toWorld type passing v = .ok (u, cost)) (hv : v.Below s.cells.size) : u.Below s.cells.size :=
  (carried_below hs.cells.closed).convert (w := s.toWorld) h hv

theorem scalar?_renumber (f : BoxId → BoxId) (type : Ty) (v : Value) :
    scalar? type (v.renumber f) = (scalar? type v).map (renumberConverted f) := by
  have hplain : (scalar? type v).map (renumberConverted f) = scalar? type v := by
    cases h : scalar? type v with
    | none => rfl
    | some converted => exact congrArg some (Prod.ext (Value.renumber_of_isPlain (Cells.isPlain_of_scalar? h)) rfl)
  rw [hplain]
  cases type <;> cases v <;> rfl

theorem fromNil_renumber (f : BoxId → BoxId) (type : Ty) (passing : Passing) (boxed : Bool) :
    (fromNil type passing boxed).map (renumberConverted f) = fromNil type passing boxed := by
  rw [fromNil]
  split
  · rfl
  · split
    · exact congrArg Except.ok (Prod.ext (Value.renumber_of_isPlain (Cells.isPlain_zero type)) rfl)
    · rfl

/-- What is behind boxes is converted in the same way. -/
theorem throughBoxes_renumber (hs : State.Spare n k deferred s t) (type : Ty) (passing : Passing) {v : Value}
    (hv : v.Below s.cells.size) {exact' exact'' : Value → Except Refusal Converted}
    (hbox : ∀ b c, exact'' (.box c) = (exact' (.box b)).map (renumberConverted (Cells.skip n k)))
    (hexact : ∀ content : Value, content.Below s.cells.size → exact'' (content.renumber (Cells.skip n k)) =
      (exact' content).map (renumberConverted (Cells.skip n k))) :
    throughBoxes t.toWorld type passing (v.renumber (Cells.skip n k)) exact'' =
      (throughBoxes s.toWorld type passing v exact').map (renumberConverted (Cells.skip n k)) := by
  have hboxed : (v.renumber (Cells.skip n k)).box?.isSome = v.box?.isSome := by cases v <;> rfl
  have hbelow : (behind s.cells (s.cells.size + 1) v).Below s.cells.size :=
    (carried_below hs.cells.closed).behind hv _
  rw [throughBoxes, throughBoxes, hboxed]
  rcases hs.cells.behind_eq_or_isSome v with hsame | ⟨b, c, hb, hc⟩
  · have hnil : ((behind s.cells (s.cells.size + 1) v).renumber (Cells.skip n k)).isNil =
        (behind s.cells (s.cells.size + 1) v).isNil := by
      cases behind s.cells (s.cells.size + 1) v <;> rfl
    simp only [hsame, hnil]
    split
    · exact (fromNil_renumber _ _ _ _).symm
    · exact hexact _ hbelow
  · simp only [hb, hc]
    exact hbox b c

theorem items?_renumber {f : BoxId → BoxId} {item item' : Value → Except Refusal Converted} {vs : List Value}
    (h : ∀ v ∈ vs, item' (v.renumber f) = (item v).map (renumberConverted f)) :
    items? item' (vs.map (Value.renumber f)) =
      (items? item vs).map fun converted => (converted.1.map (Value.renumber f), converted.2) := by
  induction vs with
  | nil => rfl
  | cons v rest ih =>
      obtain ⟨hv, hrest⟩ := List.forall_mem_cons.mp h
      rw [List.map_cons, items?, items?, hv, ih hrest]
      cases item v with
      | error e => rfl
      | ok converted => cases items? item rest <;> rfl

theorem entries?_renumber {f : BoxId → BoxId} {key key' value value' : Value → Except Refusal Converted}
    {es : List (Value × Value)}
    (h : ∀ e ∈ es, key' (e.1.renumber f) = (key e.1).map (renumberConverted f) ∧
      value' (e.2.renumber f) = (value e.2).map (renumberConverted f)) :
    entries? key' value' (es.map (Value.renumberEntry f)) =
      (entries? key value es).map fun converted => (converted.1.map (Value.renumberEntry f), converted.2) := by
  induction es with
  | nil => rfl
  | cons e rest ih =>
      obtain ⟨he, hrest⟩ := List.forall_mem_cons.mp h
      rw [List.map_cons, Value.renumberEntry, entries?, entries?, he.1, he.2, ih hrest]
      cases key e.1 with
      | error r => rfl
      | ok first =>
          cases value e.2 with
          | error r => rfl
          | ok second => cases entries? key value rest <;> rfl

theorem toObject_renumber (hs : State.Spare n k deferred s t) (cls : String) (passing : Passing) (h : Handle) :
    toObject t.toWorld cls passing h = toObject s.toWorld cls passing h := by
  have hconst : t.toWorld.isConst h = s.toWorld.isConst h := by
    rw [World.isConst, World.isConst, hs.arena_eq]
    rfl
  rw [toObject, toObject, hconst, hs.arena_eq, Arena.isDestroyed_renumber, hs.classes_eq,
    ClassTable.lookup?_renumber]
  simp only [ClassTable.isSubclassOf_renumber]

theorem toObject_map_renumber (f : BoxId → BoxId) (w : World) (cls : String) (passing : Passing) (h : Handle) :
    (toObject w cls passing h).map (renumberConverted f) = toObject w cls passing h := by
  cases hconv : toObject w cls passing h with
  | error r => rfl
  | ok converted =>
      obtain ⟨u, cost⟩ := converted
      obtain rfl := eq_object_of_toObject hconv
      rfl

/-- A value is converted in the same way. -/
theorem convert_renumber (hs : State.Spare n k deferred s t) (type : Ty) (passing : Passing) {v : Value}
    (hv : v.Below s.cells.size) :
    convert t.toWorld type passing (v.renumber (Cells.skip n k)) =
      (convert s.toWorld type passing v).map (renumberConverted (Cells.skip n k)) := by
  have hcarried := carried_below hs.cells.closed
  -- The induction is on the type: what is behind the boxes is the same but for the numbers of boxes.
  induction type generalizing passing v with
  | any => rfl
  | list item ih =>
      rw [convert, convert]
      refine throughBoxes_renumber hs _ _ hv (fun _ _ => rfl) fun content hcontent => ?_
      cases content with
      | list items =>
          have hitems : items? (convert t.toWorld item .value) (items.map (Value.renumber (Cells.skip n k))) =
              (items? (convert s.toWorld item .value) items).map fun converted =>
                (converted.1.map (Value.renumber (Cells.skip n k)), converted.2) :=
            items?_renumber fun x hx => ih .value (hcarried.list_iff.mp hcontent x hx)
          rw [Value.renumber_list]
          simp only [Value.list?, Option.bind_eq_bind, Option.bind_some, hitems]
          cases items? (convert s.toWorld item .value) items with
          | none => rfl
          | some converted => exact congrArg (fun u => Except.ok (u, converted.2)) (Value.renumber_list _).symm
      | _ => rfl
  | map key value ihKey ihValue =>
      rw [convert, convert]
      refine throughBoxes_renumber hs _ _ hv (fun _ _ => rfl) fun content hcontent => ?_
      cases content with
      | map entries =>
          have hparts := hcarried.map_iff.mp hcontent
          have hentries : entries? (convert t.toWorld key .value) (convert t.toWorld value .value)
              (entries.map (Value.renumberEntry (Cells.skip n k))) =
              (entries? (convert s.toWorld key .value) (convert s.toWorld value .value) entries).map fun converted =>
                (converted.1.map (Value.renumberEntry (Cells.skip n k)), converted.2) :=
            entries?_renumber fun e he => ⟨ihKey .value (hparts e he).1, ihValue .value (hparts e he).2⟩
          rw [Value.renumber_map]
          simp only [Value.map?, Option.bind_eq_bind, Option.bind_some, hentries]
          cases hfound : entries? (convert s.toWorld key .value) (convert s.toWorld value .value) entries with
          | none => rfl
          | some converted =>
              have hkeys : ∀ e ∈ converted.1, e.1.Below s.cells.size := by
                intro e he
                obtain ⟨e', he', ⟨cost, hk⟩, -⟩ := exists_of_mem_entries? hfound he
                exact below_convert hs hk (hparts e' he').1
              have hmap : ValueMap.ofEntries t.toWorld.eqv (converted.1.map (Value.renumberEntry (Cells.skip n k))) =
                  (ValueMap.ofEntries s.toWorld.eqv converted.1).map (Value.renumberEntry (Cells.skip n k)) :=
                ValueMap.ofEntries_renumber (fun v u => hs.cells.eqv_eq) hkeys
              refine congrArg (fun u => Except.ok (u, converted.2)) ?_
              rw [hmap]
              exact (Value.renumber_map _).symm
      | _ => rfl
  | object cls =>
      rw [convert, convert]
      refine throughBoxes_renumber hs _ _ hv (fun _ _ => rfl) fun content hcontent => ?_
      cases content with
      | object h =>
          exact (toObject_renumber hs cls passing h).trans (toObject_map_renumber _ _ _ _ _).symm
      | _ => rfl
  | _ =>
      rw [convert, convert]
      · refine throughBoxes_renumber hs _ _ hv (fun _ _ => rfl) fun content hcontent => ?_
        rw [scalar?_renumber]
        cases hfound : scalar? _ content with
        | none => cases content <;> rfl
        | some converted => rfl
      all_goals simp

end Conversion

namespace Lifetime

/-! ## Objects -/

theorem alike_bind_resolve {α : Type} [MentionsBoxes α] (hs : State.Spare n k deferred s t) {h : Handle}
    {operation : String} {g g' : Instance → Run α}
    (hg : ∀ i, s.arena.get? h.target = some i →
      Alike n k deferred (g i) (g' (i.renumber (Cells.skip n k))) s t) :
    Alike n k deferred (resolve h operation >>= g) (resolve h operation >>= g') s t := by
  have hassoc (g : Instance → Run α) : (resolve h operation >>= g) =
      (MonadState.get >>= fun s => Run.ofExcept (s.arena.resolve h operation) >>= g) := by
    rw [resolve, bind_assoc]
  rw [hassoc, hassoc]
  refine alike_get (alike_bind_ofExcept hs ?_ fun i hi => hg i (Arena.resolve_eq_ok_iff.mp hi))
  rw [hs.arena_eq]
  exact Arena.resolve_renumber operation

/-- The fields that a constructor yields. -/
theorem stateOf_renumber (f : BoxId → BoxId) (shape : Shape) (body : Activation) :
    stateOf shape (body.renumber f) = (stateOf shape body).map (NativeState.renumber f) := by
  rw [stateOf, stateOf, Activation.result_renumber]
  cases body.result with
  | map entries => rw [Value.renumber_map]; rfl
  | _ => rfl

/-- The deferred constructor of an object runs in the same way. -/
theorem alike_materialize {exec : Exec} (hblind : Blind exec deferred) (hs : State.Spare n k deferred s t)
    (h : Handle) (operation : String) :
    Alike n k deferred (materialize exec h operation) (materialize exec h operation) s t := by
  refine alike_bind_resolve hs fun i hi => ?_
  rw [Instance.isMaterialized_renumber]
  split
  · exact alike_pure (x := PUnit.unit) hs trivial
  · have hlazy : t.classes.findLazy i.cls = (s.classes.findLazy i.cls).map id := by
      rw [hs.classes_eq, Option.map_id]
      exact ClassTable.findLazy_renumber i.cls
    refine alike_get (alike_bind_orFail hs hlazy fun c hc => ?_)
    refine Alike.bind (hblind n k s t c.code (hs.deferred i.cls c hc) hs) ?_
    intro body u u' _ hspare _ hbody
    refine alike_bind_ofExcept hspare (stateOf_renumber _ c.shape body) fun state hstate => ?_
    have hmade : u'.arena.materialize h.target (state.renumber (Cells.skip n k)) =
        (u.arena.materialize h.target state).map (Arena.renumber (Cells.skip n k)) := by
      rw [hspare.arena_eq]
      exact Arena.materialize_renumber state
    refine alike_get (alike_bind_ofExcept hspare hmade fun a ha => alike_setArena hspare fun v hv => ?_)
    rcases Arena.mem_heldValues_materialize ha hv with rfl | hv
    · obtain ⟨fields, hfields, rfl⟩ := map_eq_ok_iff.mp hstate
      show (Value.map fields).Below u.cells.size
      rw [← Value.eq_map_of_asMap hfields]
      exact Activation.below_result hbody
    · exact hspare.below_arena hv

theorem alike_register (hs : State.Spare n k deferred s t) (new : NewInstance)
    (hnew : ∀ v ∈ new.values, v.Below s.cells.size) :
    Alike n k deferred (register new) (register (new.renumber (Cells.skip n k))) s t := by
  let moved (stored : Handle × Arena) : Handle × Arena := (stored.1, stored.2.renumber (Cells.skip n k))
  have hregister : t.arena.register (new.renumber (Cells.skip n k)) = (s.arena.register new).map moved := by
    rw [hs.arena_eq]
    exact Arena.register_renumber new
  refine alike_get (alike_bind_ofExcept hs hregister fun stored hstored => ?_)
  obtain ⟨h, a⟩ := stored
  have ha : ∀ v ∈ a.heldValues, v.Below s.cells.size := by
    intro v hv
    rcases Arena.mem_heldValues_register hstored hv with hv | hv
    · exact hnew v hv
    · exact hs.below_arena hv
  refine Alike.bind (alike_setArena hs ha) ?_
  intro _ u u' _ hspare _ _
  exact alike_pure (x := h) hspare trivial

/-- An object is copied in the same way. -/
theorem alike_dup {exec : Exec} (hblind : Blind exec deferred) (hs : State.Spare n k deferred s t) (h : Handle) :
    Alike n k deferred (dup exec h) (dup exec h) s t := by
  refine Alike.bind (alike_materialize hblind hs h "dup") ?_
  intro _ u u' _ hspare _ _
  refine alike_bind_resolve hspare fun i hi => ?_
  refine alike_bind_orFail hspare (Instance.copy?_renumber i) fun copy hcopy => ?_
  have hdescriptor : u'.classes.descriptor i.cls =
      (u.classes.descriptor i.cls).map (ClassInfo.renumber (Cells.skip n k)) := by
    rw [hspare.classes_eq]
    exact ClassTable.descriptor_renumber i.cls
  refine alike_get (alike_bind_ofExcept hspare hdescriptor fun c hc => ?_)
  refine alike_register hspare ⟨c.id, c.name, c.kind, some copy, .managed, i.overrides⟩ fun v hv => ?_
  have hnative : some copy = i.native := (Instance.native_eq_of_copy? hcopy).symm
  exact hspare.below_arena (Arena.mem_heldValues_of_get? hi (Instance.mem_heldValues_of_new hnative rfl hv))

/-- Another handle is issued in the same way. -/
theorem alike_issueFor (hs : State.Spare n k deferred s t) (h : Handle) (c : Constness) :
    Alike n k deferred (issueFor h c) (issueFor h c) s t := by
  have hissue : Alike n k deferred (issue? [h] h.target c) (issue? [h] h.target c) s t := by
    have hheld : ∀ x, x ∈ [h] ++ t.handles ↔ x ∈ [h] ++ s.handles := by
      intro x
      rw [List.mem_append, List.mem_append, hs.mem_handles_iff]
    refine alike_get ?_
    rw [hs.arena_eq, Arena.issue_renumber hheld]
    cases hissued : s.arena.issue ([h] ++ s.handles) h.target c with
    | none => exact alike_pure (x := (none : Option Handle)) hs fun _ hx => by cases hx
    | some issued =>
        refine Alike.bind (alike_setArena hs fun v hv => hs.below_arena (Arena.mem_heldValues_issue hissued hv)) ?_
        intro _ u u' _ hspare _ _
        exact alike_pure (x := some issued.1) hspare fun _ _ => trivial
  refine Alike.bind hissue ?_
  intro found u u' _ hspare _ _
  cases found with
  | none => exact alike_fail hspare _
  | some k => exact alike_pure (x := k) hspare trivial

end Lifetime

namespace Delivery

variable {exec : Exec}

theorem isSoleAlias_renumber (hs : State.Spare n k deferred s t) (h : Handle) : isSoleAlias t h = isSoleAlias s h := by
  have hclass : (t.classes.get? h.cls).any (fun c => c.kind = .object) =
      (s.classes.get? h.cls).any fun c => c.kind = .object := by
    rw [hs.classes_eq, ClassTable.get?_renumber, Option.any_map]
    rfl
  rw [isSoleAlias, isSoleAlias, hclass, Arena.proxyHeld_congr fun k => hs.mem_handles_iff]

theorem isFresh_renumber (hs : State.Spare n k deferred s t) (i : Instance) (h : Handle) :
    isFresh t (i.renumber (Cells.skip n k)) h = isFresh s i h := by
  have hconst : t.isConst h = s.isConst h := by
    rw [World.isConst, World.isConst, hs.arena_eq]
    rfl
  rw [isFresh, isFresh, hconst, Arena.anchorHeld_congr fun k => hs.mem_handles_iff]
  rfl

theorem alike_object {act act' : Run Handle} (hact : Alike n k deferred act act' s t) :
    Alike n k deferred (do return Value.object (← act)) (do return Value.object (← act')) s t := by
  refine hact.bind ?_
  intro h u u' _ hspare _ _
  exact alike_pure (x := Value.object h) hspare (Value.below_object _ h)

/-- A resulting object is delivered in the same way. -/
theorem alike_giveObject {passing : Passing} (hblind : passing = .value → Blind exec deferred)
    (hs : State.Spare n k deferred s t) (cls : String) (h : Handle) (method : String) :
    Alike n k deferred (giveObject exec cls passing h method) (giveObject exec cls passing h method) s t := by
  have hrequire : t.classes.require cls = (s.classes.require cls).map id := by
    rw [hs.classes_eq, ClassTable.require_renumber]
    cases s.classes.require cls <;> rfl
  refine alike_get (alike_bind_ofExcept hs hrequire fun expected _ => alike_get (alike_unless hs ?_ fun _ => ?_))
  · rw [hs.classes_eq, ClassTable.isSubclassOf_renumber]
    rfl
  refine Lifetime.alike_bind_resolve hs fun i _ => alike_get ?_
  have hshown : Alike n k deferred
      (if isSoleAlias s h then do
        setArena (s.arena.setConst h.proxy true)
        return Value.object h
      else return Value.object (← Lifetime.issueFor h .const))
      (if isSoleAlias t h then do
        setArena (t.arena.setConst h.proxy true)
        return Value.object h
      else return Value.object (← Lifetime.issueFor h .const)) s t := by
    rw [isSoleAlias_renumber hs]
    split
    · rw [hs.arena_eq, Arena.setConst_renumber]
      refine Alike.bind (alike_setArena hs fun v hv => hs.below_arena hv) ?_
      intro _ u u' _ hspare _ _
      exact alike_pure (x := Value.object h) hspare (Value.below_object _ h)
    · exact alike_object (Lifetime.alike_issueFor hs h .const)
  cases passing with
  | value =>
      dsimp only
      rw [isFresh_renumber hs]
      split
      · exact alike_pure (x := Value.object h) hs (Value.below_object _ h)
      · have hheld := hs.withHeld (List.forall_mem_singleton.mpr (Value.below_object s.cells.size h))
        exact alike_object (Alike.holding (Lifetime.alike_dup (hblind rfl) hheld h))
  | ref => exact alike_object (Lifetime.alike_issueFor hs h .nonConst)
  | ptr => exact alike_object (Lifetime.alike_issueFor hs h .nonConst)
  | constRef => exact hshown
  | constPtr => exact hshown

theorem alike_converted (hs : State.Spare n k deferred s t) (type : Ty) {v : Value} (hv : v.Below s.cells.size) :
    Alike n k deferred (give.converted type v) (give.converted type (v.renumber (Cells.skip n k))) s t := by
  refine alike_get ?_
  rw [Conversion.convert_renumber hs type .value hv]
  cases hconv : Conversion.convert s.toWorld type .value v with
  | ok converted => exact alike_pure hs (Conversion.below_convert hs hconv hv)
  | error _ =>
      have hname : (v.renumber (Cells.skip n k)).typeName = v.typeName := by cases v <;> rfl
      rw [hname]
      exact alike_fail hs _

/-- A result of a declared type is delivered in the same way. -/
theorem alike_give {type : Ty} {passing : Passing}
    (hblind : type.HoldsObjects → passing = .value → Blind exec deferred) (hs : State.Spare n k deferred s t)
    (owner method : String) {v : Value} (hv : v.Below s.cells.size) :
    Alike n k deferred (give exec owner method type passing v)
      (give exec owner method type passing (v.renumber (Cells.skip n k))) s t := by
  induction type generalizing v s t with
  | any => exact alike_pure hs hv
  | object cls =>
      cases v with
      | object h => exact alike_giveObject (hblind trivial) hs cls h method
      | nil =>
          show Alike n k deferred
            (if passing.isNullable then pure Value.nil else fail (.nullReference "return value" owner method))
            (if passing.isNullable then pure Value.nil else fail (.nullReference "return value" owner method)) s t
          split
          · exact alike_pure (x := Value.nil) hs hv
          · exact alike_fail hs _
      | _ =>
          simp only [give, Value.renumber]
          exact alike_converted hs (.object cls) hv
  | list item ih =>
      cases v with
      | list items =>
          rw [Value.renumber_list]
          refine Alike.bind (alike_mapHeld hs (fun v s t hs hv => ih hblind hs hv) fun v hvmem => ?_) ?_
          · exact (Conversion.carried_below hs.cells.closed).list_iff.mp hv v hvmem
          · intro us u u' _ hspare _ hus
            have hlist : (Value.list us).Below u.cells.size :=
              (Conversion.carried_below hspare.cells.closed).list_iff.mpr hus
            have hgiven := alike_pure (x := Value.list us) hspare hlist
            rwa [show MentionsBoxes.renumber (Cells.skip n k) (Value.list us) = _ from Value.renumber_list us] at hgiven
      | _ =>
          simp only [give, Value.renumber]
          exact alike_converted hs (.list item) hv
  | _ =>
      simp only [give]
      exact alike_converted hs _ hv

/-- A result that is delivered mentions no boxes but those that the result of the body leads to. -/
theorem below_of_give {owner method : String} {type : Ty} {passing : Passing} {size : Nat} {v u : Value}
    (hcarried : s.cells.Carried (Value.Below size)) (hv : v.Below size)
    (hrun : (give exec owner method type passing v).outcome s = (.ok u, t)) : u.Below size := by
  -- A type with objects gives no box; any other type gives its value without a change of the state.
  by_cases hobjects : type.HoldsObjects
  · intro b hb
    rw [boxes_of_give hobjects hrun] at hb
    cases hb
  · induction type generalizing v s u t with
    | object cls => exact (hobjects trivial).elim
    | any =>
        obtain ⟨rfl, -⟩ := eq_of_outcome_pure hrun
        exact hv
    | list item ih =>
        have hitemType : ¬item.HoldsObjects := hobjects
        unfold give at hrun
        split at hrun
        · rename_i items
          obtain ⟨us, t', hitems, hpure⟩ := exists_of_outcome_bind hrun
          obtain ⟨rfl, -⟩ := eq_of_outcome_pure hpure
          have hitem : ∀ x ∈ items, ∀ s u t, (give exec owner method item passing x).outcome s = (.ok u, t) →
              t = s ∧ (s.cells.Carried (Value.Below size) → u.Below size) := by
            intro x hx s u t hgive
            exact ⟨(conforms_of_give hitemType hgive).1,
              fun hcarried => ih hcarried (hcarried.list_iff.mp hv x hx) hgive hitemType⟩
          have hus := (mapHeld_of_pure (P := fun w u => w.cells.Carried (Value.Below size) → u.Below size)
            hitem hitems).2
          exact hcarried.list_iff.mpr fun u hu => hus u hu hcarried
        · obtain ⟨-, cost, hconv⟩ := outcome_converted hrun
          exact hcarried.convert (w := s.toWorld) hconv hv
    | _ =>
        obtain ⟨-, cost, hconv⟩ := outcome_converted hrun
        exact hcarried.convert (w := s.toWorld) hconv hv

theorem below_of_giveBack {result : Result} {owner method : String} {size : Nat} {v u : Value}
    (hcarried : s.cells.Carried (Value.Below size)) (hv : v.Below size)
    (hrun : (giveBack exec result owner method v).outcome s = (.ok u, t)) : u.Below size := by
  cases result with
  | none =>
      rw [← (eq_of_outcome_pure hrun).1]
      exact Value.below_nil size
  | some declared => exact below_of_give hcarried hv hrun

/-- A result is delivered in the same way.  Bodies that are constructed later run only for copies of objects. -/
theorem alike_giveBack {result : Result}
    (hblind : ∀ type, result = some (type, .value) → type.HoldsObjects → Blind exec deferred)
    (hs : State.Spare n k deferred s t) (owner method : String) {v : Value} (hv : v.Below s.cells.size) :
    Alike n k deferred (giveBack exec result owner method v)
      (giveBack exec result owner method (v.renumber (Cells.skip n k))) s t := by
  cases result with
  | none => exact alike_pure (x := Value.nil) hs (Value.below_nil _)
  | some declared =>
      obtain ⟨type, passing⟩ := declared
      refine alike_give (fun htype hvalue => hblind type ?_ htype) hs owner method hv
      rw [hvalue]

end Delivery

end ObjectBridge
