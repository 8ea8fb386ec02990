import Mathlib.Tactic
import ObjectBridge.Proofs.Value.Mentions

/-!
# The cells in use

`Cells.live` counts mentions and drops cells until no more cells are to be dropped.  What is left is the
largest set of cells each of which is mentioned by a value in use or by the content of a cell of the set.

* `Cells.Dropping` — the invariant of the loop: a cell's count is the number of its mentions outside of
  the cells dropped so far, and the cells that wait are the others without a mention.
* `mem_live_iff` — every cell in use is mentioned by a value in use or by a cell in use.
* `Supported.mem_live` — cells that mention each other, or are mentioned by values in use, are in use.
-/

namespace ObjectBridge.Cells

/-- How often the values in use and the cells that were not dropped mention a cell. -/
def mentions (cells : Cells) (values : List Value) (dropped : List BoxId) (b : BoxId) : Nat :=
  (Value.listBoxes values).count b +
    (((List.range cells.size).filter fun c => c ∉ dropped).map fun c =>
      (cells.content c).boxes.count b).sum

/-- Each cell of a set is mentioned by a value in use or by the content of a cell of the set. -/
def Supported (cells : Cells) (values : List Value) (set : BoxId → Prop) : Prop :=
  ∀ b, set b → b < cells.size ∧
    (b ∈ Value.listBoxes values ∨ ∃ c, set c ∧ b ∈ (cells.content c).boxes)

/-- The state of the loop: the cells dropped so far, the cells that wait and the counts.  A cell that is
dropped or waits is in no set whose cells mention each other. -/
structure Dropping (cells : Cells) (values : List Value) (dropped waiting : List BoxId)
    (counts : Array Nat) : Prop where
  size_eq : counts.size = cells.size
  nodup : (dropped ++ waiting).Nodup
  lt_size : ∀ b ∈ dropped ++ waiting, b < cells.size
  count_eq_zero_iff : ∀ b < cells.size, counts.getD b 0 = 0 ↔ b ∈ dropped ++ waiting
  count_eq : ∀ b < cells.size, counts.getD b 0 = cells.mentions values dropped b
  unsupported : ∀ set, cells.Supported values set → ∀ b ∈ dropped ++ waiting, ¬set b

/-! ## Mentions -/

/-- A cell has mentions exactly if a value in use or a cell that was not dropped mentions it. -/
theorem mentions_pos_iff {cells : Cells} {values : List Value} {dropped : List BoxId} {b : BoxId} :
    0 < cells.mentions values dropped b ↔
      b ∈ Value.listBoxes values ∨
        ∃ c, (c < cells.size ∧ c ∉ dropped) ∧ b ∈ (cells.content c).boxes := by
  rw [mentions, Nat.add_pos_iff_pos_or_pos, List.count_pos_iff, List.sum_pos_iff_exists_pos_nat]
  simp [and_assoc]

/-- A cell of a supported set is mentioned as long as no cell of the set is dropped. -/
theorem Supported.mentions_pos {cells : Cells} {values : List Value} {set : BoxId → Prop}
    (hset : cells.Supported values set) {dropped : List BoxId} (hdropped : ∀ c ∈ dropped, ¬set c)
    {b : BoxId} (hb : set b) : 0 < cells.mentions values dropped b := by
  rw [mentions_pos_iff]
  rcases (hset b hb).2 with hmentioned | ⟨c, hc, hmentioned⟩
  · exact Or.inl hmentioned
  · exact Or.inr ⟨c, ⟨(hset c hc).1, fun hmem => hdropped c hmem hc⟩, hmentioned⟩

/-! ## Counting -/

theorem size_countMentions (counts : Array Nat) (mentioned : List BoxId) :
    (countMentions counts mentioned).size = counts.size := by
  rw [countMentions]
  induction mentioned generalizing counts with
  | nil => rfl
  | cons b rest ih => rw [List.foldl_cons, ih, Array.size_modify]

theorem getD_countMentions (counts : Array Nat) (mentioned : List BoxId) (b : BoxId)
    (hb : b < counts.size) :
    (countMentions counts mentioned).getD b 0 = counts.getD b 0 + mentioned.count b := by
  rw [countMentions]
  induction mentioned generalizing counts with
  | nil => rfl
  | cons c rest ih =>
      rw [List.foldl_cons, ih _ (by rwa [Array.size_modify]), List.count_cons]
      simp only [Array.getD_eq_getD_getElem?, Array.getElem?_modify, Array.getElem?_eq_getElem hb]
      by_cases hcb : c = b
      · simp [hcb]
        omega
      · simp [hcb]

theorem getD_foldl_countMentions (contents : List Value) (counts : Array Nat) (b : BoxId)
    (hb : b < counts.size) :
    (contents.foldl (fun counts v => countMentions counts v.boxes) counts).getD b 0 =
      counts.getD b 0 + (contents.map fun v => v.boxes.count b).sum := by
  induction contents generalizing counts with
  | nil => rfl
  | cons v rest ih =>
      rw [List.foldl_cons, ih _ (by rwa [size_countMentions]), getD_countMentions _ _ _ hb,
        List.map_cons, List.sum_cons]
      omega

theorem size_foldl_countMentions (contents : List Value) (counts : Array Nat) :
    (contents.foldl (fun counts v => countMentions counts v.boxes) counts).size =
      counts.size := by
  induction contents generalizing counts with
  | nil => rfl
  | cons v rest ih => rw [List.foldl_cons, ih, size_countMentions]

theorem toList_eq_map_content (cells : Cells) :
    cells.toList = (List.range cells.size).map cells.content := by
  apply List.ext_getElem
  · simp
  · intro k hk hk'
    simp only [List.length_map, List.length_range] at hk'
    simp [content, Array.getD_eq_getD_getElem?, hk']

theorem size_mentionCounts (cells : Cells) (values : List Value) :
    (cells.mentionCounts values).size = cells.size := by
  rw [mentionCounts, ← Array.foldl_toList, size_foldl_countMentions, size_countMentions,
    Array.size_replicate]

/-- Before anything is dropped, the counts are the mentions by everything. -/
theorem getD_mentionCounts (cells : Cells) (values : List Value) (b : BoxId)
    (hb : b < cells.size) :
    (cells.mentionCounts values).getD b 0 = cells.mentions values [] b := by
  have hsize : (Array.replicate cells.size 0).size = cells.size := Array.size_replicate
  have hfilter : (List.range cells.size).filter (fun c => c ∉ ([] : List BoxId)) =
      List.range cells.size := by
    simp
  rw [mentionCounts, ← Array.foldl_toList,
    getD_foldl_countMentions _ _ _ (by rw [size_countMentions, hsize]; exact hb),
    getD_countMentions _ _ _ (by rw [hsize]; exact hb), mentions, hfilter,
    toList_eq_map_content, List.map_map]
  simp [Array.getD_eq_getD_getElem?, hb, Function.comp_def]

/-! ## Dropping one cell -/

theorem getD_modify_pred (counts : Array Nat) (c b : BoxId) :
    (counts.modify c (· - 1)).getD b 0 = counts.getD b 0 - if c = b then 1 else 0 := by
  simp only [Array.getD_eq_getD_getElem?, Array.getElem?_modify]
  by_cases hb : b < counts.size
  · simp only [Array.getElem?_eq_getElem hb]
    split <;> simp
  · simp [hb]

/-- A cell has lost its last mention if its count, which is there, is zero. -/
theorem getD_one_eq_zero_iff (counts : Array Nat) (b : Nat) :
    counts.getD b 1 = 0 ↔ b < counts.size ∧ counts.getD b 0 = 0 := by
  by_cases hb : b < counts.size
  · simp [Array.getD_eq_getD_getElem?, hb]
  · simp [Array.getD_eq_getD_getElem?, hb]

/-- What taking mentions away amounts to: the counts are lowered, and the cells that lose their last mention
wait, in front of the ones that waited before. -/
structure Forgotten (mentioned : List BoxId) (counts counts' : Array Nat) (fresh : List BoxId) :
    Prop where
  size_eq : counts'.size = counts.size
  getD_eq : ∀ b, counts'.getD b 0 = counts.getD b 0 - mentioned.count b
  nodup : fresh.Nodup
  mem_iff : ∀ b : Nat, b ∈ fresh ↔
    b < counts.size ∧ 0 < mentioned.count b ∧ counts.getD b 0 = mentioned.count b

/-- A mention is taken away, and it was the last one of its cell. -/
theorem Forgotten.cons_last {c : Nat} {rest fresh : List BoxId} {counts counts' : Array Nat}
    (h : Forgotten rest (counts.modify c (· - 1)) counts' fresh) (hc : c < counts.size)
    (hcount : counts.getD c 0 = 1) (hrest : rest.count c = 0) :
    Forgotten (c :: rest) counts counts' (fresh ++ [c]) := by
  have hsize : counts'.size = counts.size := by rw [h.size_eq, Array.size_modify]
  have hlowered : ∀ b, counts'.getD b 0 = counts.getD b 0 - (c :: rest).count b := by
    intro b
    rw [h.getD_eq, getD_modify_pred, List.count_cons]
    simp only [beq_iff_eq]
    omega
  have hnotMem : c ∉ fresh := by
    intro hmem
    have hmentioned := ((h.mem_iff c).mp hmem).2.1
    omega
  have hnodup : (fresh ++ [c]).Nodup := by
    rw [List.nodup_append]
    refine ⟨h.nodup, List.nodup_singleton c, ?_⟩
    rintro b hb d hd rfl
    exact hnotMem (List.mem_singleton.mp hd ▸ hb)
  -- The last mention of `c` goes here, so `c` joins what nothing mentions.
  have hmem : ∀ b : Nat, b ∈ fresh ++ [c] ↔ b < counts.size ∧ 0 < (c :: rest).count b ∧
      counts.getD b 0 = (c :: rest).count b := by
    intro b
    rw [List.mem_append, List.mem_singleton, h.mem_iff, Array.size_modify, getD_modify_pred,
      List.count_cons]
    simp only [beq_iff_eq]
    by_cases hcb : c = b
    · subst hcb
      simp only [if_true, or_true, true_iff]
      omega
    · simp only [hcb, Ne.symm hcb, if_false, or_false]
      omega
  exact ⟨hsize, hlowered, hnodup, hmem⟩

/-- A mention is taken away, and its cell is mentioned elsewhere, or it is no cell. -/
theorem Forgotten.cons {c : Nat} {rest fresh : List BoxId} {counts counts' : Array Nat}
    (h : Forgotten rest (counts.modify c (· - 1)) counts' fresh)
    (hmore : ¬(c < counts.size ∧ counts.getD c 0 - 1 = 0)) :
    Forgotten (c :: rest) counts counts' fresh := by
  have hsize : counts'.size = counts.size := by rw [h.size_eq, Array.size_modify]
  have hlowered : ∀ b, counts'.getD b 0 = counts.getD b 0 - (c :: rest).count b := by
    intro b
    rw [h.getD_eq, getD_modify_pred, List.count_cons]
    simp only [beq_iff_eq]
    omega
  have hmem : ∀ b : Nat, b ∈ fresh ↔ b < counts.size ∧ 0 < (c :: rest).count b ∧
      counts.getD b 0 = (c :: rest).count b := by
    intro b
    rw [h.mem_iff, Array.size_modify, getD_modify_pred, List.count_cons]
    simp only [beq_iff_eq]
    by_cases hcb : c = b
    · subst hcb
      simp only [if_true]
      omega
    · simp only [hcb, if_false]
      omega
  exact ⟨hsize, hlowered, h.nodup, hmem⟩

/-- Taking mentions away lowers the counts, and the cells that lose their last mention wait. -/
theorem forget_spec (mentioned : List BoxId) (counts : Array Nat) (waiting : List BoxId)
    (henough : ∀ b < counts.size, mentioned.count b ≤ counts.getD b 0) :
    ∃ counts' fresh, forget counts waiting mentioned = (counts', fresh ++ waiting) ∧
      Forgotten mentioned counts counts' fresh := by
  induction mentioned generalizing counts waiting with
  | nil => exact ⟨counts, [], rfl, rfl, fun b => rfl, List.nodup_nil, by simp⟩
  | cons c rest ih =>
      have hrest : ∀ b < (counts.modify c (· - 1)).size,
          rest.count b ≤ (counts.modify c (· - 1)).getD b 0 := by
        intro b hb
        rw [Array.size_modify] at hb
        have hcons := henough b hb
        rw [List.count_cons] at hcons
        simp only [beq_iff_eq] at hcons
        rw [getD_modify_pred]
        omega
      rw [forget]
      by_cases hlast : (counts.modify c (· - 1)).getD c 1 = 0
      · rw [if_pos hlast]
        obtain ⟨counts', fresh, heq, hforgotten⟩ := ih _ (c :: waiting) hrest
        -- The cell lost its last mention here, so it is not mentioned in the rest.
        obtain ⟨hc, hzero⟩ := (getD_one_eq_zero_iff _ c).mp hlast
        have hgone : rest.count c = 0 := by
          have hle := hrest c hc
          omega
        rw [Array.size_modify] at hc
        have hcount : counts.getD c 0 = 1 := by
          have hcons := henough c hc
          rw [List.count_cons_self] at hcons
          rw [getD_modify_pred, if_pos rfl] at hzero
          omega
        refine ⟨counts', fresh ++ [c], ?_, hforgotten.cons_last hc hcount hgone⟩
        rw [heq, List.append_assoc, List.singleton_append]
      · rw [if_neg hlast]
        obtain ⟨counts', fresh, heq, hforgotten⟩ := ih _ waiting hrest
        rw [getD_one_eq_zero_iff, Array.size_modify, getD_modify_pred, if_pos rfl] at hlast
        exact ⟨counts', fresh, heq, hforgotten.cons hlast⟩

/-! ## The loop -/

/-- A cell among those that were not dropped is mentioned at least as often as its count says. -/
theorem mentions_cons {cells : Cells} {values : List Value} {dropped : List BoxId} {c : BoxId}
    (hc : c < cells.size) (hfresh : c ∉ dropped) (b : BoxId) :
    cells.mentions values dropped b =
      cells.mentions values (c :: dropped) b + (cells.content c).boxes.count b := by
  have hperm : ((List.range cells.size).filter fun d => d ∉ dropped).Perm
      (c :: (List.range cells.size).filter fun d => d ∉ c :: dropped) := by
    refine (List.perm_ext_iff_of_nodup (List.nodup_range.filter _) ?_).mpr ?_
    · rw [List.nodup_cons]
      exact ⟨by simp, List.nodup_range.filter _⟩
    · intro d
      simp only [List.mem_filter, List.mem_range, List.mem_cons, decide_not, Bool.not_eq_true',
        decide_eq_false_iff_not, not_or]
      by_cases hdc : d = c
      · subst hdc
        simp [hc, hfresh]
      · simp [hdc]
  rw [mentions, mentions, (hperm.map _).sum_eq, List.map_cons, List.sum_cons]
  omega

/-- When the first cell that waits is dropped, the counts fall by the mentions that its content makes. -/
theorem Dropping.count_cons {cells : Cells} {values : List Value} {dropped rest : List BoxId}
    {c : BoxId} {counts : Array Nat} (h : Dropping cells values dropped (c :: rest) counts)
    {b : BoxId} (hb : b < cells.size) :
    counts.getD b 0 =
      cells.mentions values (c :: dropped) b + (cells.content c).boxes.count b := by
  have hc : c < cells.size := h.lt_size c (by simp)
  have hfresh : c ∉ dropped := by
    intro hmem
    exact (List.nodup_append.mp h.nodup).2.2 c hmem c (by simp) rfl
  rw [h.count_eq b hb, mentions_cons hc hfresh]

/-- Cells that lose their last mention are in no set whose cells mention each other, as no dropped cell
is. -/
theorem Dropping.unsupported_cons {cells : Cells} {values : List Value}
    {dropped rest fresh : List BoxId} {c : BoxId} {counts counts' : Array Nat}
    (h : Dropping cells values dropped (c :: rest) counts)
    (hforgotten : Forgotten (cells.content c).boxes counts counts' fresh) {set : BoxId → Prop}
    (hset : cells.Supported values set) {b : BoxId} (hb : b ∈ (c :: dropped) ++ (fresh ++ rest)) :
    ¬set b := by
  have hunset : ∀ d ∈ c :: dropped, ¬set d := by
    intro d hd
    refine h.unsupported set hset d ?_
    simp only [List.mem_append, List.mem_cons] at hd ⊢
    tauto
  simp only [List.mem_append] at hb
  rcases hb with hb | hb | hb
  · exact hunset b hb
  · intro hin
    obtain ⟨hlt, -, hequal⟩ := (hforgotten.mem_iff b).mp hb
    rw [h.size_eq] at hlt
    have hpositive := hset.mentions_pos hunset hin
    have hbefore := h.count_cons hlt
    omega
  · exact h.unsupported set hset b (by simp [hb])

/-- Dropping the first cell that waits keeps the invariant. -/
theorem Dropping.step {cells : Cells} {values : List Value} {dropped rest : List BoxId} {c : BoxId}
    {counts : Array Nat} (h : Dropping cells values dropped (c :: rest) counts) :
    ∃ counts' waiting, forget counts rest (cells.content c).boxes = (counts', waiting) ∧
      Dropping cells values (c :: dropped) waiting counts' := by
  have henough : ∀ b < counts.size, (cells.content c).boxes.count b ≤ counts.getD b 0 := by
    intro b hb
    rw [h.count_cons (h.size_eq ▸ hb)]
    omega
  obtain ⟨counts', fresh, heq, hforgotten⟩ :=
    forget_spec (cells.content c).boxes counts rest henough
  have hmem := hforgotten.mem_iff
  rw [h.size_eq] at hmem
  -- A cell that waits now was mentioned before, so it did not wait and was not dropped then.
  have hnew : ∀ b ∈ fresh, b ∉ dropped ++ c :: rest := by
    intro b hb hold
    obtain ⟨hlt, hpositive, hequal⟩ := (hmem b).mp hb
    have hzero := (h.count_eq_zero_iff b hlt).mpr hold
    omega
  have hperm : ((c :: dropped) ++ (fresh ++ rest)).Perm (fresh ++ (dropped ++ c :: rest)) := by
    rw [List.perm_iff_count]
    intro b
    simp only [List.count_append, List.count_cons]
    omega
  have hnodup : ((c :: dropped) ++ (fresh ++ rest)).Nodup := by
    rw [hperm.nodup_iff, List.nodup_append]
    refine ⟨hforgotten.nodup, h.nodup, ?_⟩
    rintro b hb d hd rfl
    exact hnew b hb hd
  have hlt : ∀ b ∈ (c :: dropped) ++ (fresh ++ rest), b < cells.size := by
    intro b hb
    rcases List.mem_append.mp (hperm.mem_iff.mp hb) with hb | hb
    · exact ((hmem b).mp hb).1
    · exact h.lt_size b hb
  have hzero : ∀ b < cells.size,
      counts'.getD b 0 = 0 ↔ b ∈ (c :: dropped) ++ (fresh ++ rest) := by
    intro b hb
    have hold := h.count_eq_zero_iff b hb
    have hbefore := h.count_cons hb
    rw [hperm.mem_iff, List.mem_append, ← hold, hmem b, hforgotten.getD_eq b]
    omega
  have hcount : ∀ b < cells.size,
      counts'.getD b 0 = cells.mentions values (c :: dropped) b := by
    intro b hb
    rw [hforgotten.getD_eq b, h.count_cons hb]
    omega
  exact ⟨counts', fresh ++ rest, heq, hforgotten.size_eq.trans h.size_eq, hnodup, hlt, hzero, hcount,
    fun set hset b hb => h.unsupported_cons hforgotten hset hb⟩

/-- The loop ends with nothing that waits, provided it may take as many steps as cells are left. -/
theorem drop_spec {cells : Cells} {values : List Value} (steps : Nat) {dropped waiting : List BoxId}
    {counts : Array Nat} (h : Dropping cells values dropped waiting counts)
    (henough : cells.size ≤ dropped.length + steps) :
    ∃ all, Dropping cells values all [] (drop cells steps counts waiting) := by
  induction steps generalizing dropped waiting counts with
  | zero =>
      -- All cells were dropped, so none can wait.
      have hlength : (dropped ++ waiting).length ≤ (List.range cells.size).length :=
        (h.nodup.subperm fun b hb => List.mem_range.mpr (h.lt_size b hb)).length_le
      rw [List.length_append, List.length_range] at hlength
      obtain rfl : waiting = [] := List.eq_nil_of_length_eq_zero (by omega)
      exact ⟨dropped, h⟩
  | succ steps ih =>
      cases waiting with
      | nil => exact ⟨dropped, h⟩
      | cons c rest =>
          obtain ⟨counts', waiting, heq, hnext⟩ := h.step
          rw [drop, heq]
          exact ih hnext (by rw [List.length_cons]; omega)

/-- At the start nothing was dropped, and the cells without a mention wait. -/
theorem dropping_start (cells : Cells) (values : List Value) :
    Dropping cells values []
      ((List.range cells.size).filter fun b => (cells.mentionCounts values).getD b 0 = 0)
      (cells.mentionCounts values) := by
  refine ⟨size_mentionCounts cells values, ?_, ?_, ?_, getD_mentionCounts cells values, ?_⟩
  · exact List.nodup_range.filter _
  · intro b hb
    exact List.mem_range.mp (List.mem_filter.mp hb).1
  · intro b hb
    simp [hb]
  · intro set hset b hb hin
    have hzero : (cells.mentionCounts values).getD b 0 = 0 := by
      simpa using (List.mem_filter.mp hb).2
    have hpositive : 0 < cells.mentions values [] b := hset.mentions_pos (by simp) hin
    rw [getD_mentionCounts cells values b (hset b hin).1] at hzero
    omega

/-- When the loop has ended, the cells in use are the ones that were not dropped. -/
theorem exists_dropping (cells : Cells) (values : List Value) :
    ∃ dropped counts, Dropping cells values dropped [] counts ∧
      ∀ b, b ∈ cells.live values ↔ b < cells.size ∧ b ∉ dropped := by
  obtain ⟨dropped, h⟩ := drop_spec cells.size (dropping_start cells values) (by simp)
  refine ⟨dropped, _, h, ?_⟩
  intro b
  have hzero := h.count_eq_zero_iff b
  rw [List.append_nil] at hzero
  simp only [live, List.mem_filter, List.mem_range, ne_eq, decide_not, Bool.not_eq_true',
    decide_eq_false_iff_not]
  constructor
  · rintro ⟨hb, hcount⟩
    exact ⟨hb, mt (hzero hb).mpr hcount⟩
  · rintro ⟨hb, hkept⟩
    exact ⟨hb, mt (hzero hb).mp hkept⟩

/-! ## The result -/

/-- Every cell in use is mentioned by a value in use or by the content of a cell in use, and every
cell that is so mentioned is in use. -/
theorem mem_live_iff {cells : Cells} {values : List Value} {b : BoxId} :
    b ∈ cells.live values ↔
      b < cells.size ∧
        (b ∈ Value.listBoxes values ∨ ∃ c ∈ cells.live values, b ∈ (cells.content c).boxes) := by
  obtain ⟨dropped, counts, h, hlive⟩ := exists_dropping cells values
  simp only [hlive]
  rw [← mentions_pos_iff, and_congr_right_iff]
  intro hb
  have hzero := h.count_eq_zero_iff b hb
  rw [h.count_eq b hb, List.append_nil] at hzero
  rw [← hzero]
  omega

/-- Cells that mention each other, or are mentioned by values in use, are in use. -/
theorem Supported.mem_live {cells : Cells} {values : List Value} {set : BoxId → Prop}
    (hset : cells.Supported values set) {b : BoxId} (hb : set b) : b ∈ cells.live values := by
  obtain ⟨dropped, counts, h, hlive⟩ := exists_dropping cells values
  refine (hlive b).mpr ⟨(hset b hb).1, ?_⟩
  intro hmem
  exact h.unsupported set hset b (by simpa using hmem) hb

end ObjectBridge.Cells
