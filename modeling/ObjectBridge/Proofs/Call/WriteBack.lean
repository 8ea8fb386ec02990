import ObjectBridge.Proofs.Call.Binding
import ObjectBridge.Proofs.Call.Delivery
import ObjectBridge.Proofs.Run.Success
import ObjectBridge.Proofs.Value.Declared

/-!
# What comes back of the arguments

After a call the boxes of the caller hold what the body left of the arguments for them, and the lists and maps of the
caller are replaced by it.  Nothing else changes, and nothing is converted on the way.

* `CallArgs.eq_default_of_findSources` — two parameters have different sources.
* `Delivery.WrittenBack` and `writtenBack_of_settle` — the boxes and arguments of the caller.
* `Delivery.content_of_settle_of_isGreatest` — a box that is given for several parameters.
-/

namespace ObjectBridge

namespace CallArgs

/-! ## Sources of different parameters -/

/-- A source fills at most one parameter. -/
def Unshared (filled : List (Option Source)) : Prop :=
  ∀ (i j : Nat) (source : Source), filled[i]? = some (some source) → filled[j]? = some (some source) → i = j

theorem getElem?_positionalSources {given start i : Nat} {params : List Param} {source : Source}
    (h : (positionalSources given start params)[i]? = some (some source)) :
    source = .positional (start + i) := by
  induction params generalizing start i with
  | nil => cases h
  | cons p rest ih =>
      cases i with
      | zero =>
          rw [positionalSources, List.getElem?_cons_zero] at h
          split at h
          · exact (Option.some.inj (Option.some.inj h)).symm
          · cases h
      | succ i =>
          rw [positionalSources, List.getElem?_cons_succ] at h
          rw [ih h]
          congr 1
          omega

/-- The keywords from a number on fill parameters that no other source fills. -/
theorem unshared_of_placeKeywords {params : List Param} {names : List String} {number : Nat}
    {sources filled : List (Option Source)} (hunshared : Unshared sources)
    (hearlier : ∀ k, some (Source.keyword k) ∈ sources → k < number)
    (h : placeKeywords params sources number names = .ok filled) : Unshared filled := by
  induction names generalizing sources number with
  | nil =>
      obtain rfl := Except.ok.inj h
      exact hunshared
  | cons name rest ih =>
      rw [placeKeywords] at h
      split at h
      · cases h
      · rename_i i _
        split at h
        · cases h
        · cases h
        · -- The number is new, so no other place has it.
          have hnew : some (Source.keyword number) ∉ sources :=
            fun hmem => Nat.lt_irrefl _ (hearlier number hmem)
          refine ih ?_ ?_ h
          · intro a b source ha hb
            rw [List.getElem?_set] at ha hb
            split at ha
            · rename_i hia
              split at hb
              · rename_i hib
                rw [← hia, hib]
              · split at ha
                · obtain rfl := Option.some.inj (Option.some.inj ha)
                  exact absurd (List.mem_of_getElem? hb) hnew
                · cases ha
            · split at hb
              · split at hb
                · obtain rfl := Option.some.inj (Option.some.inj hb)
                  exact absurd (List.mem_of_getElem? ha) hnew
                · cases hb
              · exact hunshared a b source ha hb
          · intro k hk
            rcases List.mem_or_eq_of_mem_set hk with hk | hk
            · exact Nat.lt_succ_of_lt (hearlier k hk)
            · rw [Source.keyword.inj (Option.some.inj hk)]
              exact Nat.lt_succ_self _

/-- Two parameters with one source both have their defaults. -/
theorem eq_default_of_findSources {args : CallArgs} {params : List Param} {sources : List Source}
    (h : args.findSources params = .ok sources) :
    sources.Pairwise fun a b => a = b → a = .default := by
  unfold findSources at h
  simp only at h
  split at h
  · cases h
  · obtain ⟨filled, hfilled, hrest⟩ := bind_eq_ok_iff.mp h
    split at hrest
    · cases hrest
    · obtain rfl := Except.ok.inj hrest
      have hunshared : Unshared filled := by
        refine unshared_of_placeKeywords ?_ ?_ hfilled
        · intro i j source hi hj
          have heq := (getElem?_positionalSources hi).symm.trans (getElem?_positionalSources hj)
          have := Source.positional.inj heq
          omega
        · intro k hk
          obtain ⟨i, hi⟩ := List.mem_iff_getElem?.mp hk
          cases getElem?_positionalSources hi
      -- Two places that are filled alike would be one place, and these are in order.
      rw [List.pairwise_map, List.pairwise_iff_getElem]
      intro i j hi hj hij heq
      cases hfirst : filled[i] with
      | none => rfl
      | some source =>
          cases hsecond : filled[j] with
          | none =>
              rw [hfirst, hsecond] at heq
              exact heq
          | some source' =>
              rw [hfirst, hsecond] at heq
              obtain rfl : source = source' := heq
              have hsame := hunshared i j source (List.getElem?_eq_some_iff.mpr ⟨hi, hfirst⟩)
                (List.getElem?_eq_some_iff.mpr ⟨hj, hsecond⟩)
              omega

theorem raw_of_given {args : CallArgs} {p : Param} {source : Source} {v : Value}
    (h : args.given? source = some v) : args.raw p source = v := by
  cases source with
  | default => cases h
  | positional i => rw [CallArgs.raw, h, Option.getD_some]; simp
  | keyword i => rw [CallArgs.raw, h, Option.getD_some]; simp

/-- A value of the arguments is given at some source. -/
theorem mem_values_iff {args : CallArgs} {v : Value} : v ∈ args.values ↔ ∃ source, args.given? source = some v := by
  rw [values, List.mem_append, List.mem_iff_getElem?, List.mem_iff_getElem?]
  constructor
  · rintro (⟨i, hi⟩ | ⟨i, hi⟩)
    · exact ⟨.positional i, hi⟩
    · exact ⟨.keyword i, by rw [given?, ← List.getElem?_map, hi]⟩
  · rintro ⟨source, hsource⟩
    cases source with
    | positional i => exact Or.inl ⟨i, hsource⟩
    | keyword i => exact Or.inr ⟨i, by rw [List.getElem?_map]; exact hsource⟩
    | default => cases hsource

theorem given?_replace (args : CallArgs) (v : Value) (source source' : Source) :
    (args.replace v source).given? source' =
      if source = source' then (args.given? source').map fun _ => v else args.given? source' := by
  cases source with
  | positional i =>
      cases source' with
      | positional j =>
          simp only [replace, given?, List.getElem?_set, Source.positional.injEq]
          grind
      | _ => simp [replace, given?]
  | keyword i =>
      cases source' with
      | keyword j =>
          simp only [replace, given?, List.getElem?_modify, Source.keyword.injEq]
          grind
      | _ => simp [replace, given?]
  | default => cases source' <;> simp [replace, given?]

end CallArgs

namespace Delivery

open Run

/-- A parameter, the source of its argument and what a body left of the argument. -/
abbrev Left := Param × Source × Value

/-- What is left is written to a box that the caller gave. -/
def Writes (args : CallArgs) (left : Left) (b : BoxId) : Prop :=
  isOutput left.1 = true ∧ args.given? left.2.1 = some (.box b)

/-- A list or a map. -/
def IsCollection (v : Value) : Prop :=
  (∃ items, v = .list items) ∨ ∃ entries, v = .map entries

/-- What is left replaces a list or a map that the caller gave. -/
def Replaces (args : CallArgs) (left : Left) (source : Source) : Prop :=
  isOutput left.1 = true ∧ left.2.1 = source ∧ ∃ v, args.given? source = some v ∧ IsCollection v

/-- The boxes and the arguments of a caller, after what a body left was written back: what is not written to or
replaced stays as it is. -/
structure WrittenBack (args after : CallArgs) (lefts : List Left) (cells cells' : Cells) : Prop where
  size_eq : cells'.size = cells.size
  box : ∀ b < cells.size,
    (∃ left ∈ lefts, Writes args left b ∧ cells'.content b = left.2.2) ∨
      (cells'.content b = cells.content b ∧ ∀ left ∈ lefts, ¬Writes args left b)
  argument : ∀ source,
    (∃ left ∈ lefts, Replaces args left source ∧ after.given? source = some left.2.2) ∨
      (after.given? source = args.given? source ∧ ∀ left ∈ lefts, ¬Replaces args left source)

variable {args args' after : CallArgs} {left : Left} {lefts : List Left} {cells cells' cells'' : Cells}

/-- Nothing is written back for an argument that is neither a box nor a list nor a map, or that is no output. -/
theorem writtenBack_of_not (hbox : ∀ b, ¬Writes args left b) (hreplace : ∀ source, ¬Replaces args left source) :
    WrittenBack args args [left] cells cells :=
  ⟨rfl, fun b _ => Or.inr ⟨rfl, by simpa using hbox b⟩,
    fun source => Or.inr ⟨rfl, by simpa using hreplace source⟩⟩

theorem writtenBack_box {b : BoxId} (hwrites : Writes args left b) :
    WrittenBack args args [left] cells (cells.setIfInBounds b left.2.2) := by
  refine ⟨Array.size_setIfInBounds, fun c hc => ?_, fun source => Or.inr ⟨rfl, ?_⟩⟩
  · rw [Cells.content_setIfInBounds cells b c left.2.2 hc]
    split
    · rename_i hbc
      exact Or.inl ⟨left, List.mem_cons_self, hbc ▸ hwrites, rfl⟩
    · rename_i hbc
      refine Or.inr ⟨rfl, ?_⟩
      rintro e he ⟨-, hgiven⟩
      rw [List.mem_singleton.mp he, hwrites.2] at hgiven
      exact hbc (Value.box.inj (Option.some.inj hgiven))
  · rintro e he ⟨-, hsource, v, hgiven, hcollection⟩
    rw [← hsource, List.mem_singleton.mp he, hwrites.2] at hgiven
    obtain rfl := Option.some.inj hgiven
    rcases hcollection with ⟨items, hv⟩ | ⟨entries, hv⟩ <;> cases hv

theorem writtenBack_replace (hreplaces : Replaces args left left.2.1) :
    WrittenBack args (args.replace left.2.2 left.2.1) [left] cells cells := by
  obtain ⟨houtput, -, v, hgiven, hcollection⟩ := hreplaces
  refine ⟨rfl, fun b _ => Or.inr ⟨rfl, ?_⟩, fun source => ?_⟩
  · rintro e he ⟨-, hbox⟩
    rw [List.mem_singleton.mp he, hgiven] at hbox
    obtain rfl := Option.some.inj hbox
    rcases hcollection with ⟨items, hv⟩ | ⟨entries, hv⟩ <;> cases hv
  · rw [CallArgs.given?_replace]
    by_cases hsource : left.2.1 = source
    · refine Or.inl ⟨left, List.mem_cons_self, ⟨houtput, hsource, v, hsource ▸ hgiven, hcollection⟩, ?_⟩
      rw [if_pos hsource, ← hsource, hgiven]
      rfl
    · refine Or.inr ⟨if_neg hsource, ?_⟩
      rintro e he ⟨-, heq, -⟩
      rw [List.mem_singleton.mp he] at heq
      exact hsource heq

/-- To write back several arguments is to write them back one after the other, if they have different sources. -/
theorem WrittenBack.cons (hfirst : WrittenBack args args' [left] cells cells')
    (hrest : WrittenBack args' after lefts cells' cells'')
    (hothers : ∀ e ∈ lefts, args'.given? e.2.1 = args.given? e.2.1) :
    WrittenBack args after (left :: lefts) cells cells'' := by
  have hwrites : ∀ e ∈ lefts, ∀ b, Writes args' e b ↔ Writes args e b := by
    intro e he b
    rw [Writes, Writes, hothers e he]
  have hreplaces : ∀ e ∈ lefts, ∀ source, Replaces args' e source ↔ Replaces args e source := by
    intro e he source
    unfold Replaces
    constructor
    · rintro ⟨houtput, rfl, hcollection⟩
      exact ⟨houtput, rfl, hothers e he ▸ hcollection⟩
    · rintro ⟨houtput, rfl, hcollection⟩
      exact ⟨houtput, rfl, (hothers e he).symm ▸ hcollection⟩
  -- The last write to a place is the one that is left, so the later ones are looked at first.
  refine ⟨hrest.size_eq.trans hfirst.size_eq, fun b hb => ?_, fun source => ?_⟩
  · rcases hrest.box b (hfirst.size_eq.symm ▸ hb) with ⟨e, he, hwrite, hcontent⟩ | ⟨hsame, hnone⟩
    · exact Or.inl ⟨e, List.mem_cons_of_mem _ he, (hwrites e he b).mp hwrite, hcontent⟩
    · rcases hfirst.box b hb with ⟨e, he, hwrite, hcontent⟩ | ⟨hsame', hnone'⟩
      · obtain rfl := List.mem_singleton.mp he
        exact Or.inl ⟨e, List.mem_cons_self, hwrite, hsame.trans hcontent⟩
      · refine Or.inr ⟨hsame.trans hsame', List.forall_mem_cons.mpr ⟨hnone' _ List.mem_cons_self, ?_⟩⟩
        exact fun e he hwrite => hnone e he ((hwrites e he b).mpr hwrite)
  · rcases hrest.argument source with ⟨e, he, hreplace, hgiven⟩ | ⟨hsame, hnone⟩
    · exact Or.inl ⟨e, List.mem_cons_of_mem _ he, (hreplaces e he source).mp hreplace, hgiven⟩
    · rcases hfirst.argument source with ⟨e, he, hreplace, hgiven⟩ | ⟨hsame', hnone'⟩
      · obtain rfl := List.mem_singleton.mp he
        exact Or.inl ⟨e, List.mem_cons_self, hreplace, hsame.trans hgiven⟩
      · refine Or.inr ⟨hsame.trans hsame', List.forall_mem_cons.mpr ⟨hnone' _ List.mem_cons_self, ?_⟩⟩
        exact fun e he hreplace => hnone e he ((hreplaces e he source).mpr hreplace)

/-- What is written back is of the declared types if what the body left is. -/
theorem WrittenBack.conforms (h : WrittenBack args after lefts cells cells') {w : World}
    (hlefts : ∀ left ∈ lefts, isOutput left.1 = true →
      Conversion.Conforms w left.1.type left.1.passing left.2.2) :
    (∀ b < cells.size, cells'.content b = cells.content b ∨ ∃ left ∈ lefts, Writes args left b ∧
      Conversion.Conforms w left.1.type left.1.passing (cells'.content b)) ∧
    ∀ source, after.given? source = args.given? source ∨ ∃ left ∈ lefts, Replaces args left source ∧
      ∃ v, after.given? source = some v ∧ Conversion.Conforms w left.1.type left.1.passing v := by
  refine ⟨fun b hb => ?_, fun source => ?_⟩
  · rcases h.box b hb with ⟨left, hleft, hwrites, hcontent⟩ | ⟨hsame, -⟩
    · rw [hcontent]
      exact Or.inr ⟨left, hleft, hwrites, hlefts left hleft hwrites.1⟩
    · exact Or.inl hsame
  · rcases h.argument source with ⟨left, hleft, hreplaces, hgiven⟩ | ⟨hsame, -⟩
    · exact Or.inr ⟨left, hleft, hreplaces, _, hgiven, hlefts left hleft hreplaces.1⟩
    · exact Or.inl hsame

/-- The first argument is written back, and then the others, whose sources it leaves as they are. -/
theorem exists_writeBack_cons (cells : Cells) (args : CallArgs) (left : Left) (lefts : List Left) :
    ∃ cells' args', writeBack cells args (left :: lefts) = writeBack cells' args' lefts ∧
      WrittenBack args args' [left] cells cells' ∧
      ∀ source, (left.2.1 = source → left.2.1 = .default) → args'.given? source = args.given? source := by
  obtain ⟨p, source, v⟩ := left
  have hreplaced : ∀ source', (source = source' → source = .default) →
      (args.replace v source).given? source' = args.given? source' := by
    intro source' hapart
    rw [CallArgs.given?_replace]
    split
    · rename_i hsame
      rw [← hsame, hapart hsame]
      rfl
    · rfl
  rw [writeBack]
  split
  · rename_i houtput
    have hcollected {u : Value} (hgiven : args.given? source = some u) (hcollection : IsCollection u) :
        WrittenBack args (args.replace v source) [(p, source, v)] cells cells := by
      have hreplaces : Replaces args (p, source, v) (p, source, v).2.1 :=
        ⟨houtput, rfl, u, hgiven, hcollection⟩
      exact writtenBack_replace hreplaces
    split
    · rename_i b hgiven
      exact ⟨_, _, rfl, writtenBack_box ⟨houtput, hgiven⟩, fun _ _ => rfl⟩
    · rename_i items hgiven
      exact ⟨_, _, rfl, hcollected hgiven (Or.inl ⟨items, rfl⟩), hreplaced⟩
    · rename_i entries hgiven
      exact ⟨_, _, rfl, hcollected hgiven (Or.inr ⟨entries, rfl⟩), hreplaced⟩
    · rename_i hnobox hnolist hnomap
      refine ⟨_, _, rfl, writtenBack_of_not ?_ ?_, fun _ _ => rfl⟩
      · rintro b ⟨-, hgiven⟩
        exact hnobox b hgiven
      · rintro source' ⟨-, rfl, w, hgiven, ⟨items, rfl⟩ | ⟨entries, rfl⟩⟩
        · exact hnolist items hgiven
        · exact hnomap entries hgiven
  · rename_i houtput
    exact ⟨_, _, rfl, writtenBack_of_not (fun _ h => houtput h.1) fun _ h => houtput h.1, fun _ _ => rfl⟩

/-- What is left of arguments comes from different sources, unless it comes from defaults. -/
abbrev SourcesApart (lefts : List Left) : Prop :=
  lefts.Pairwise fun a b => a.2.1 = b.2.1 → a.2.1 = .default

theorem writtenBack_writeBack (hapart : SourcesApart lefts) :
    WrittenBack args (writeBack cells args lefts).2 lefts cells (writeBack cells args lefts).1 := by
  induction lefts generalizing cells args with
  | nil => exact ⟨rfl, fun _ _ => Or.inr ⟨rfl, by simp⟩, fun _ => Or.inr ⟨rfl, by simp⟩⟩
  | cons first rest ih =>
      obtain ⟨hfirst, hrest⟩ := List.pairwise_cons.mp hapart
      obtain ⟨cells', args', heq, hwritten, hsame⟩ := exists_writeBack_cons cells args first rest
      rw [heq]
      exact hwritten.cons (ih hrest) fun e he => hsame e.2.1 (hfirst e he)

/-- A box that the caller gave for several parameters holds what the body left for the last one. -/
theorem content_writeBack_of_last {before rest : List Left} {b : BoxId}
    (hapart : SourcesApart (before ++ left :: rest)) (hwrites : Writes args left b)
    (hlast : ∀ e ∈ rest, ¬Writes args e b) (hb : b < cells.size) :
    (writeBack cells args (before ++ left :: rest)).1.content b = left.2.2 := by
  induction before generalizing cells args with
  | nil =>
      obtain ⟨hfirst, hrest⟩ := List.pairwise_cons.mp hapart
      obtain ⟨cells', args', heq, hwritten, hsame⟩ := exists_writeBack_cons cells args left rest
      rw [List.nil_append, heq]
      -- Only the first argument is written to the box, and the others leave it so.
      have hwrote : cells'.content b = left.2.2 := by
        rcases hwritten.box b hb with ⟨e, he, -, hcontent⟩ | ⟨-, hnone⟩
        · rw [hcontent, List.mem_singleton.mp he]
        · exact absurd hwrites (hnone left List.mem_cons_self)
      have hothers : WrittenBack args' (writeBack cells' args' rest).2 rest cells' (writeBack cells' args' rest).1 :=
        writtenBack_writeBack hrest
      rcases hothers.box b (hwritten.size_eq.symm ▸ hb) with ⟨e, he, hwrite, -⟩ | ⟨hkept, -⟩
      · refine absurd ⟨hwrite.1, ?_⟩ (hlast e he)
        rw [← hsame e.2.1 (hfirst e he)]
        exact hwrite.2
      · exact hkept.trans hwrote
  | cons first before ih =>
      obtain ⟨hfirst, hrest⟩ := List.pairwise_cons.mp hapart
      obtain ⟨cells', args', heq, hwritten, hsame⟩ :=
        exists_writeBack_cons cells args first (before ++ left :: rest)
      have hothers : ∀ e ∈ before ++ left :: rest, args'.given? e.2.1 = args.given? e.2.1 :=
        fun e he => hsame e.2.1 (hfirst e he)
      rw [List.cons_append, heq]
      refine ih hrest ⟨hwrites.1, ?_⟩ (fun e he hwrite => hlast e he ⟨hwrite.1, ?_⟩) (hwritten.size_eq.symm ▸ hb)
      · rw [hothers left (by simp)]
        exact hwrites.2
      · rw [← hothers e (by simp [he])]
        exact hwrite.2

theorem sourcesApart_of_findSources {params : List Param} {sources : List Source} {updated : List Value}
    (hsources : args.findSources params = .ok sources) :
    SourcesApart (params.zip (sources.zip updated)) := by
  rw [SourcesApart, List.pairwise_iff_getElem]
  intro i j hi hj hij
  simp only [List.getElem_zip]
  exact List.pairwise_iff_getElem.mp (CallArgs.eq_default_of_findSources hsources) i j _ _ hij

theorem outcome_settle (params : List Param) (sources : List Source) (updated : List Value) (args : CallArgs)
    (s : State) :
    (settle params sources updated args).outcome s =
      (.ok (writeBack s.cells args (params.zip (sources.zip updated))).2,
        { s with cells := (writeBack s.cells args (params.zip (sources.zip updated))).1 }) := rfl

/-- What a body left of the arguments is written back as it is. -/
theorem writtenBack_of_settle {params : List Param} {sources : List Source} {updated : List Value}
    {s t : State} (hsources : args.findSources params = .ok sources)
    (hrun : (settle params sources updated args).outcome s = (.ok after, t)) :
    WrittenBack args after (params.zip (sources.zip updated)) s.cells t.cells ∧
      t = { s with cells := t.cells } := by
  rw [outcome_settle] at hrun
  obtain ⟨hafter, rfl⟩ := Prod.mk.inj hrun
  obtain rfl := Except.ok.inj hafter
  exact ⟨writtenBack_writeBack (sourcesApart_of_findSources hsources), rfl⟩

/-- The positions of the parameters that the caller gave a box for and that are written back to it. -/
def sharers (args : CallArgs) (params : List Param) (sources : List Source) (b : BoxId) : Set Nat :=
  { i | ∃ p source, params[i]? = some p ∧ isOutput p = true ∧ sources[i]? = some source ∧
    args.given? source = some (.box b) }

theorem exists_isGreatest_sharers {params : List Param} {sources : List Source} {b : BoxId} {i : Nat}
    (hi : i ∈ sharers args params sources b) : ∃ k, IsGreatest (sharers args params sources b) k := by
  have hbound : BddAbove (sharers args params sources b) := by
    refine ⟨params.length, ?_⟩
    rintro j ⟨p, source, hp, -⟩
    exact (List.getElem?_eq_some_iff.mp hp).1.le
  exact ⟨_, Nat.sSup_mem ⟨i, hi⟩ hbound, fun j hj => le_csSup hbound hj⟩

/-- After several arguments were written back, a box holds what the body left for the last parameter it was given
for. -/
theorem content_of_settle_of_isGreatest {params : List Param} {sources : List Source} {updated : List Value}
    {s t : State} {b : BoxId} {k : Nat} {u : Value} (hsources : args.findSources params = .ok sources)
    (hrun : (settle params sources updated args).outcome s = (.ok after, t)) (hb : b < s.cells.size)
    (hgreatest : IsGreatest (sharers args params sources b) k) (hu : updated[k]? = some u) :
    t.cells.content b = u := by
  rw [outcome_settle] at hrun
  obtain ⟨-, rfl⟩ := Prod.mk.inj hrun
  obtain ⟨⟨p, source, hp, houtput, hsource, hgiven⟩, hupper⟩ := hgreatest
  have hapart : SourcesApart (params.zip (sources.zip updated)) := sourcesApart_of_findSources hsources
  have hleft : (params.zip (sources.zip updated))[k]? = some (p, source, u) := by
    simp [List.getElem?_zip_eq_some, hp, hsource, hu]
  have hlast : ∀ j e, (params.zip (sources.zip updated))[j]? = some e → Writes args e b → j ≤ k := by
    rintro j ⟨q, source', w⟩ he hwrites
    simp only [List.getElem?_zip_eq_some] at he
    exact hupper ⟨q, source', he.1, hwrites.1, he.2.1, hwrites.2⟩
  generalize params.zip (sources.zip updated) = lefts at hleft hlast hapart ⊢
  obtain ⟨hk, hget⟩ := List.getElem?_eq_some_iff.mp hleft
  -- Behind the greatest place nothing more is written to the box.
  have hsplit : lefts = lefts.take k ++ (p, source, u) :: lefts.drop (k + 1) := by
    rw [← hget, ← List.drop_eq_getElem_cons hk, List.take_append_drop]
  rw [hsplit] at hapart ⊢
  refine content_writeBack_of_last hapart ⟨houtput, hgiven⟩ (fun e he hwrites => ?_) hb
  obtain ⟨j, hj⟩ := List.mem_iff_getElem?.mp he
  rw [List.getElem?_drop] at hj
  have := hlast (k + 1 + j) e hj hwrites
  omega

end Delivery

end ObjectBridge
