import Mathlib.Data.Finmap
import ObjectBridge.Proofs.Value.Keys

/-!
# Maps as finite maps in insertion order

A map whose keys are fit to be keys behaves as a finite map from labels to values.  This module runs a map and a
finite map side by side, over any history of inserts, lookups and removals; the cells may change between the steps.

Each step gives the same answer in both and keeps the map a stored form of the finite one (`Represents.take`).  So
this holds after every history.  What the finite map leaves open is the order: a key has its place since the insert
that made it present, and entries are ordered by the times of these inserts.

* `ValueMap.Represents` — a list of entries stands for a finite map.
* `ValueMap.MadePresent` — the insert that last made a key present.
* `ValueMap.ordered_by_insertion` — what holds after every history.
-/

namespace ObjectBridge.ValueMap

open Value (Key Label)

/-- A step under a key that is fit to be one, and the cells at that time. -/
structure Request where
  cells : Cells
  step : Step
  isKey : step.key.IsKey

namespace Request

/-- The request to insert a value under a key. -/
def inserting (cells : Cells) (k : Key) (value : Value) : Request :=
  ⟨cells, .insert k.1 value, k.2⟩

/-- The request to look a key up. -/
def getting (cells : Cells) (k : Key) : Request :=
  ⟨cells, .get k.1, k.2⟩

/-- The request to remove a key. -/
def removing (cells : Cells) (k : Key) : Request :=
  ⟨cells, .remove k.1, k.2⟩

theorem kinds (r : Request) : (∃ cells k value, r = .inserting cells k value) ∨
    (∃ cells k, r = .getting cells k) ∨ ∃ cells k, r = .removing cells k := by
  obtain ⟨cells, step, hkey⟩ := r
  cases step with
  | insert key value => exact Or.inl ⟨cells, ⟨key, hkey⟩, value, rfl⟩
  | get key => exact Or.inr (Or.inl ⟨cells, ⟨key, hkey⟩, rfl⟩)
  | remove key => exact Or.inr (Or.inr ⟨cells, ⟨key, hkey⟩, rfl⟩)

/-- The key that a request is about. -/
def key (r : Request) : Key :=
  ⟨r.step.key, r.isKey⟩

/-- What a request does to a map. -/
def onEntries (m : ValueMap) (r : Request) : Option Value × ValueMap :=
  m.take (Value.eqv r.cells) r.step

end Request

/-- A finite map from labels. -/
abbrev FiniteMap := Finmap fun _ : Label => Value

/-- What a request does to a finite map. -/
def Request.onFinite (f : FiniteMap) (r : Request) : Option Value × FiniteMap :=
  (f.lookup r.key.label,
    match r.step with
    | .insert _ value => f.insert r.key.label value
    | .get _ => f
    | .remove _ => f.erase r.key.label)

section Histories

variable {S : Type} (next : S → Request → Option Value × S)

/-- The state after a history of requests. -/
def stateAfter (start : S) (history : List Request) : S :=
  history.foldl (fun s r => (next s r).2) start

/-- The answers to a history of requests. -/
def answers (start : S) : List Request → List (Option Value)
  | [] => []
  | r :: rest => (next start r).1 :: answers (next start r).2 rest

end Histories

/-- The entries after a history of requests, in order. -/
def entriesAfter (history : List Request) : ValueMap :=
  stateAfter Request.onEntries [] history

/-- The finite map after a history of requests. -/
def finiteAfter (history : List Request) : FiniteMap :=
  stateAfter Request.onFinite ∅ history

variable {history : List Request} {m : ValueMap} {f : FiniteMap} {r : Request}

theorem entriesAfter_append (history : List Request) (r : Request) :
    entriesAfter (history ++ [r]) = (r.onEntries (entriesAfter history)).2 := by
  simp [entriesAfter, stateAfter]

theorem finiteAfter_append (history : List Request) (r : Request) :
    finiteAfter (history ++ [r]) = (r.onFinite (finiteAfter history)).2 := by
  simp [finiteAfter, stateAfter]

@[simp] theorem finiteAfter_inserting (history : List Request) (cells : Cells) (k : Key) (value : Value) :
    finiteAfter (history ++ [.inserting cells k value]) = (finiteAfter history).insert k.label value :=
  finiteAfter_append _ _

@[simp] theorem finiteAfter_getting (history : List Request) (cells : Cells) (k : Key) :
    finiteAfter (history ++ [.getting cells k]) = finiteAfter history :=
  finiteAfter_append _ _

@[simp] theorem finiteAfter_removing (history : List Request) (cells : Cells) (k : Key) :
    finiteAfter (history ++ [.removing cells k]) = (finiteAfter history).erase k.label :=
  finiteAfter_append _ _

/-! ## Entries for a finite map -/

/-- Entries stand for a finite map, whatever the cells are. -/
structure Represents (m : ValueMap) (f : FiniteMap) : Prop where
  isKey : ∀ e ∈ m, e.1.IsKey
  distinct : ∀ cells, Distinct (Value.eqv cells) m
  get?_eq : ∀ cells (k : Key), get? (Value.eqv cells) k.1 m = f.lookup k.label

theorem represents_empty : Represents [] ∅ where
  isKey := by simp
  distinct _ := List.Pairwise.nil
  get?_eq _ _ := by rw [get?, Finmap.lookup_empty]

theorem Represents.answer_eq (h : Represents m f) (r : Request) : (r.onEntries m).1 = (r.onFinite f).1 := by
  rcases r.kinds with ⟨cells, k, value, rfl⟩ | ⟨cells, k, rfl⟩ | ⟨cells, k, rfl⟩ <;> exact h.get?_eq cells k

theorem Represents.insert (h : Represents m f) (k : Key) (value : Value) (cells : Cells) :
    Represents (insert (Value.eqv cells) k.1 value m) (f.insert k.label value) where
  isKey e he := by
    have hentries := forall_insert (Q := fun _ => True) k.2 trivial (fun e he => ⟨h.isKey e he, trivial⟩) e he
    exact hentries.1
  -- The insert compared keys over its own cells, and what has to be shown is about any others.
  distinct cells' := by
    rw [insert_congr fun e he => (h.isKey e he).eqv_eq cells cells' k.1]
    exact (h.distinct cells').insert _ _
  get?_eq cells' l := by
    rw [insert_congr fun e he => (h.isKey e he).eqv_eq cells cells' k.1,
      get?_insert (Value.symmetric_eqv _) (Value.transitive_eqv _), h.get?_eq]
    by_cases hl : k.label = l.label
    · rw [if_pos ((Key.label_eq_iff _).mp hl), hl, Finmap.lookup_insert]
    · rw [if_neg fun hsame => hl ((Key.label_eq_iff _).mpr hsame),
        Finmap.lookup_insert_of_ne _ (Ne.symm hl)]

theorem Represents.erase (h : Represents m f) (k : Key) (cells : Cells) :
    Represents (erase (Value.eqv cells) k.1 m) (f.erase k.label) where
  isKey e he := by
    rw [erase_eq_filter (Value.symmetric_eqv _) (Value.transitive_eqv _) (h.distinct _)] at he
    exact h.isKey e (List.mem_of_mem_filter he)
  distinct cells' := by
    rw [erase_congr fun e he => (h.isKey e he).eqv_eq cells cells' k.1]
    exact (h.distinct cells').erase (Value.symmetric_eqv _) (Value.transitive_eqv _) _
  get?_eq cells' l := by
    rw [erase_congr fun e he => (h.isKey e he).eqv_eq cells cells' k.1,
      get?_erase (Value.symmetric_eqv _) (Value.transitive_eqv _) (h.distinct _), h.get?_eq]
    by_cases hl : k.label = l.label
    · rw [if_pos ((Key.label_eq_iff _).mp hl), hl, Finmap.lookup_erase]
    · rw [if_neg fun hsame => hl ((Key.label_eq_iff _).mpr hsame), Finmap.lookup_erase_ne (Ne.symm hl)]

/-- After a request the entries stand for the finite map after it. -/
theorem Represents.take (h : Represents m f) (r : Request) : Represents (r.onEntries m).2 (r.onFinite f).2 := by
  rcases r.kinds with ⟨cells, k, value, rfl⟩ | ⟨cells, k, rfl⟩ | ⟨cells, k, rfl⟩
  · exact h.insert k value cells
  · exact h
  · exact h.erase k cells

theorem Represents.answers_eq (h : Represents m f) (history : List Request) :
    answers Request.onEntries m history = answers Request.onFinite f history := by
  induction history generalizing m f with
  | nil => rfl
  | cons r rest ih => rw [answers, answers, h.answer_eq r, ih (h.take r)]

theorem represents_entriesAfter (history : List Request) :
    Represents (entriesAfter history) (finiteAfter history) := by
  induction history using List.reverseRecOn with
  | nil => exact represents_empty
  | append_singleton history r ih =>
      rw [entriesAfter_append, finiteAfter_append]
      exact ih.take r

theorem Represents.mem_iff (h : Represents m f) (cells : Cells) (k : Key) :
    k.label ∈ f ↔ (get? (Value.eqv cells) k.1 m).isSome := by
  rw [h.get?_eq, Finmap.lookup_isSome]

theorem Represents.exists_keys (h : Represents m f) : ∃ ks : List Key, ks.map Subtype.val = m.map Prod.fst := by
  refine ⟨(m.map Prod.fst).attachWith _ fun v hv => ?_, by simp⟩
  obtain ⟨e, he, rfl⟩ := List.mem_map.mp hv
  exact h.isKey e he

theorem Represents.nodup_labels (h : Represents m f) {ks : List Key} (hks : ks.map Subtype.val = m.map Prod.fst) :
    (ks.map Key.label).Nodup := by
  have hdistinct : (m.map Prod.fst).Pairwise fun k l => Value.eqv #[] k l = false :=
    List.pairwise_map.mpr (h.distinct #[])
  rw [← hks, List.pairwise_map] at hdistinct
  exact List.pairwise_map.mpr (hdistinct.imp (Key.label_ne_iff _).mpr)

theorem Represents.mem_labels_iff (h : Represents m f) {ks : List Key} (hks : ks.map Subtype.val = m.map Prod.fst)
    (x : Label) : x ∈ ks.map Key.label ↔ x ∈ f := by
  obtain ⟨k, rfl⟩ := x.exists_key
  rw [List.mem_map, h.mem_iff #[], isSome_get?_iff]
  constructor
  · rintro ⟨l, hl, hlabel⟩
    have hmem : l.1 ∈ m.map Prod.fst := hks ▸ List.mem_map_of_mem hl
    obtain ⟨e, he, hkey⟩ := List.mem_map.mp hmem
    exact ⟨e, he, hkey ▸ (Key.label_eq_iff _).mp hlabel⟩
  · rintro ⟨e, he, hsame⟩
    have hmem : e.1 ∈ ks.map Subtype.val := hks ▸ List.mem_map_of_mem he
    obtain ⟨l, hl, hkey⟩ := List.mem_map.mp hmem
    exact ⟨l, hl, (Key.label_eq_iff _).mpr (hkey ▸ hsame)⟩

/-- There is one entry for each label of the finite map. -/
theorem Represents.length_eq (h : Represents m f) : m.length = f.keys.card := by
  obtain ⟨ks, hks⟩ := h.exists_keys
  have hkeys : (ks.map Key.label).toFinset = f.keys := by
    ext x
    rw [List.mem_toFinset, h.mem_labels_iff hks, Finmap.mem_keys]
  calc m.length = (ks.map Subtype.val).length := by rw [hks, List.length_map]
    _ = (ks.map Key.label).length := by rw [List.length_map, List.length_map]
    _ = f.keys.card := by rw [← hkeys, List.toFinset_card_of_nodup (h.nodup_labels hks)]

/-! ## Times of inserts -/

/-- The key given was inserted at a time when it was absent, and it has been present ever since. -/
structure MadePresent (history : List Request) (time : Nat) (k : Key) : Prop where
  inserted : ∃ cells value, history[time]? = some (.inserting cells k value)
  absent : k.label ∉ finiteAfter (history.take time)
  present : ∀ later, time < later → later ≤ history.length → k.label ∈ finiteAfter (history.take later)

theorem MadePresent.lt_length {time : Nat} {k : Key} (h : MadePresent history time k) : time < history.length := by
  obtain ⟨cells, value, hr⟩ := h.inserted
  exact (List.getElem?_eq_some_iff.mp hr).1

theorem MadePresent.mem {time : Nat} {k : Key} (h : MadePresent history time k) : k.label ∈ finiteAfter history := by
  simpa using h.present history.length h.lt_length le_rfl

/-- There is only one time since which a key has been present. -/
theorem MadePresent.time_eq {time time' : Nat} {k k' : Key} (h : MadePresent history time k)
    (h' : MadePresent history time' k') (hlabel : k.label = k'.label) : time = time' := by
  rcases Nat.lt_trichotomy time time' with hlt | heq | hlt
  · exact absurd (hlabel ▸ h.present time' hlt h'.lt_length.le) h'.absent
  · exact heq
  · exact absurd (hlabel ▸ h'.present time hlt h.lt_length.le) h.absent

theorem MadePresent.append {time : Nat} {k : Key} (h : MadePresent history time k)
    (hstill : k.label ∈ finiteAfter (history ++ [r])) : MadePresent (history ++ [r]) time k where
  inserted := by
    rw [List.getElem?_append_left h.lt_length]
    exact h.inserted
  absent := by
    rw [List.take_append_of_le_length h.lt_length.le]
    exact h.absent
  present later hlater hle := by
    rw [List.length_append, List.length_singleton] at hle
    rcases Nat.lt_or_eq_of_le hle with hlt | rfl
    · rw [List.take_append_of_le_length (Nat.le_of_lt_succ hlt)]
      exact h.present later hlater (Nat.le_of_lt_succ hlt)
    · rwa [List.take_of_length_le (by simp)]

theorem madePresent_inserting {k : Key} (habsent : k.label ∉ finiteAfter history) (cells : Cells) (value : Value) :
    MadePresent (history ++ [.inserting cells k value]) history.length k where
  inserted := ⟨cells, value, by simp⟩
  absent := by simpa using habsent
  present later hlater _ := by
    rw [List.take_of_length_le (by simpa using hlater), finiteAfter_inserting]
    exact Finmap.mem_insert.mpr (Or.inl rfl)

/-! ## Order -/

/-- Keys are in the order of the inserts that made them present. -/
def InOrder (history : List Request) (keys : List Value) : Prop :=
  ∃ made : List (Nat × Key), made.map (fun x => x.2.1) = keys ∧ made.Pairwise (fun x y => x.1 < y.1) ∧
    ∀ x ∈ made, MadePresent history x.1 x.2

/-- Keys that stay present stay in order. -/
theorem InOrder.filter {keys : List Value} (h : InOrder history keys) (stays : Value → Bool)
    (hstill : ∀ k : Key, stays k.1 → k.label ∈ finiteAfter history → k.label ∈ finiteAfter (history ++ [r])) :
    InOrder (history ++ [r]) (keys.filter stays) := by
  obtain ⟨made, rfl, htimes, hmade⟩ := h
  refine ⟨made.filter fun x => stays x.2.1, ?_, htimes.sublist List.filter_sublist, fun x hx => ?_⟩
  · rw [List.filter_map]
    rfl
  · obtain ⟨hx, hstays⟩ := List.mem_filter.mp hx
    exact (hmade x hx).append (hstill x.2 hstays (hmade x hx).mem)

theorem InOrder.append {keys : List Value} (h : InOrder history keys)
    (hstill : ∀ x ∈ finiteAfter history, x ∈ finiteAfter (history ++ [r])) : InOrder (history ++ [r]) keys := by
  have hall := h.filter (fun _ => true) fun k _ hk => hstill k.label hk
  rwa [List.filter_true] at hall

/-- A key that is made present comes last. -/
theorem InOrder.inserting {keys : List Value} (h : InOrder history keys) {k : Key}
    (habsent : k.label ∉ finiteAfter history) (cells : Cells) (value : Value) :
    InOrder (history ++ [.inserting cells k value]) (keys ++ [k.1]) := by
  obtain ⟨made, rfl, htimes, hmade⟩ := h
  refine ⟨made ++ [(history.length, k)], by simp, ?_, fun x hx => ?_⟩
  · refine List.pairwise_append.mpr ⟨htimes, List.pairwise_singleton _ _, fun x hx y hy => ?_⟩
    rw [List.mem_singleton.mp hy]
    exact (hmade x hx).lt_length
  · rcases List.mem_append.mp hx with hx | hx
    · refine (hmade x hx).append ?_
      rw [finiteAfter_inserting]
      exact Finmap.mem_insert.mpr (Or.inr (hmade x hx).mem)
    · rw [List.mem_singleton.mp hx]
      exact madePresent_inserting habsent cells value

theorem map_fst_inserting {k : Key} (hpresent : k.label ∈ finiteAfter history) (cells : Cells) (value : Value) :
    (entriesAfter (history ++ [.inserting cells k value])).map Prod.fst = (entriesAfter history).map Prod.fst := by
  rw [entriesAfter_append]
  exact map_fst_insert (((represents_entriesAfter history).mem_iff cells k).mp hpresent)

theorem entriesAfter_inserting {k : Key} (habsent : k.label ∉ finiteAfter history) (cells : Cells) (value : Value) :
    entriesAfter (history ++ [.inserting cells k value]) = entriesAfter history ++ [(k.1, value)] := by
  rw [(represents_entriesAfter history).mem_iff cells k, Bool.not_eq_true, Option.isSome_eq_false_iff,
    Option.isNone_iff_eq_none] at habsent
  rw [entriesAfter_append]
  exact insert_eq_append (get?_eq_none_iff.mp habsent)

theorem entriesAfter_getting (history : List Request) (cells : Cells) (k : Key) :
    entriesAfter (history ++ [.getting cells k]) = entriesAfter history :=
  entriesAfter_append _ _

theorem entriesAfter_removing (history : List Request) (cells : Cells) (k : Key) :
    entriesAfter (history ++ [.removing cells k]) =
      (entriesAfter history).filter fun e => !Value.eqv cells e.1 k.1 := by
  rw [entriesAfter_append]
  exact erase_eq_filter (Value.symmetric_eqv _) (Value.transitive_eqv _)
    ((represents_entriesAfter history).distinct cells)

/-- After any history, keys are in the order of the inserts that made them present. -/
theorem inOrder_entriesAfter (history : List Request) :
    InOrder history ((entriesAfter history).map Prod.fst) := by
  induction history using List.reverseRecOn with
  | nil => exact ⟨[], rfl, List.Pairwise.nil, by simp⟩
  | append_singleton history r ih =>
      rcases r.kinds with ⟨cells, k, value, rfl⟩ | ⟨cells, k, rfl⟩ | ⟨cells, k, rfl⟩
      · -- Only a key that was absent gets a new time, which is later than all others.
        by_cases hpresent : k.label ∈ finiteAfter history
        · rw [map_fst_inserting hpresent]
          refine ih.append fun x hx => ?_
          rw [finiteAfter_inserting]
          exact Finmap.mem_insert.mpr (Or.inr hx)
        · rw [entriesAfter_inserting hpresent, List.map_append]
          exact ih.inserting hpresent cells value
      · rw [entriesAfter_getting]
        refine ih.append fun x hx => ?_
        rwa [finiteAfter_getting]
      · have hkeys : (entriesAfter (history ++ [.removing cells k])).map Prod.fst =
            ((entriesAfter history).map Prod.fst).filter fun l => !Value.eqv cells l k.1 := by
          rw [entriesAfter_removing, List.filter_map]
          rfl
        rw [hkeys]
        refine ih.filter _ fun l hl hmem => ?_
        rw [finiteAfter_removing]
        refine Finmap.mem_erase.mpr ⟨(Key.label_ne_iff cells).mpr ?_, hmem⟩
        simpa using hl

/-! ## The map as a whole -/

/-- What holds of a map after a history of requests: it has answered as the finite map, has its entries, each with a
key of its own, and has them in the order in which their keys were made present. -/
structure InsertionOrdered (history : List Request) : Prop where
  answers_eq : answers Request.onEntries [] history = answers Request.onFinite ∅ history
  represents : Represents (entriesAfter history) (finiteAfter history)
  length_eq : (entriesAfter history).length = (finiteAfter history).keys.card
  inOrder : InOrder history ((entriesAfter history).map Prod.fst)
  replaced (cells : Cells) (k : Key) (value : Value) : k.label ∈ finiteAfter history →
    (entriesAfter (history ++ [.inserting cells k value])).map Prod.fst = (entriesAfter history).map Prod.fst
  appended (cells : Cells) (k : Key) (value : Value) : k.label ∉ finiteAfter history →
    entriesAfter (history ++ [.inserting cells k value]) = entriesAfter history ++ [(k.1, value)]
  removed (cells : Cells) (k : Key) : entriesAfter (history ++ [.removing cells k]) =
    (entriesAfter history).filter fun e => !Value.eqv cells e.1 k.1

/-- A map is a finite map in insertion order. -/
theorem ordered_by_insertion (history : List Request) : InsertionOrdered history where
  answers_eq := represents_empty.answers_eq history
  represents := represents_entriesAfter history
  length_eq := (represents_entriesAfter history).length_eq
  inOrder := inOrder_entriesAfter history
  replaced cells _ value hpresent := map_fst_inserting hpresent cells value
  appended cells _ value habsent := entriesAfter_inserting habsent cells value
  removed cells k := entriesAfter_removing history cells k

-- A key that is inserted again keeps its place, unless it was removed in between.
example (u v w : Value) :
    let a : Key := ⟨.text "a", ⟨nofun, nofun⟩⟩
    let b : Key := ⟨.text "b", ⟨nofun, nofun⟩⟩
    entriesAfter [.inserting #[] a u, .inserting #[] b v, .inserting #[] a w] = [(a.1, w), (b.1, v)] ∧
      entriesAfter [.inserting #[] a u, .inserting #[] b v, .removing #[] a, .inserting #[] a w] =
        [(b.1, v), (a.1, w)] :=
  ⟨rfl, rfl⟩

end ObjectBridge.ValueMap
