import ObjectBridge.Enumeration.Flags
import ObjectBridge.Proofs.Enumeration.Reading
import ObjectBridge.Proofs.Text.Basic

/-!
# The names of sets of flags, and reading them

A set of flags has names if entries make it up.  Every entry whose bits are in the set is then named, since more entries
of this kind change nothing in what they make up, and the names are in ascending order.

The text of a set is a number, or names with bars between them.  It is read back if the names tell entries apart, have
no bars and no blanks at their ends, and are no numbers.  The text of a single value is read as the set with its bits if
in addition no name starts with a sharp.

* `FlagSet.Within` and `FlagSet.IsUnion` — bits that are in a payload, and payloads that entries make up.
* `FlagSet.isUnion_covering_iff` — a set is made up by some entries exactly if it is by all that are in it.
* `FlagSet.exists_names?_iff`, `FlagSet.pairwise_names` and `FlagSet.mem_names_iff` — which sets have names, and what
  the names are.
* `EnumType.Separable` — names that can stand between bars.
* `FlagSet.unionOfPieces?_eq` — what a list of names is read as.
* `FlagSet.parse?_join`, `FlagSet.parse?_render` and `FlagSet.parse?_sharp` — the three kinds of text.
* `FlagSet.flags_read_back` — which sets have names, and that their texts are read back.
-/

namespace ObjectBridge

namespace FlagSet

/-- Every bit of a payload is a bit of another. -/
def Within (p q : Int64) : Prop :=
  ∀ i, p.toBitVec.getLsbD i = true → q.toBitVec.getLsbD i = true

/-- A payload has exactly the bits that some entries have. -/
def IsUnion (entries : List (String × Int64)) (bits : Int64) : Prop :=
  ∀ i, bits.toBitVec.getLsbD i = true ↔ ∃ e ∈ entries, e.2.toBitVec.getLsbD i = true

variable {p q acc : Int64} {f : FlagSet} {e : String × Int64} {entries : List (String × Int64)} {name : String}
  {names : List String}

/-! ## Bits -/

theorem eq_of_getLsbD (h : ∀ i, p.toBitVec.getLsbD i = true ↔ q.toBitVec.getLsbD i = true) : p = q := by
  rw [← Int64.toBitVec_inj]
  exact BitVec.eq_of_getLsbD_eq fun i _ => Bool.eq_iff_iff.mpr (h i)

theorem and_eq_iff_within : q &&& p = p ↔ Within p q := by
  constructor
  · intro h i hi
    rw [← h, Int64.toBitVec_and, BitVec.getLsbD_and, Bool.and_eq_true] at hi
    exact hi.1
  · intro h
    refine eq_of_getLsbD fun i => ?_
    rw [Int64.toBitVec_and, BitVec.getLsbD_and, Bool.and_eq_true]
    exact ⟨And.right, fun hi => ⟨h i hi, hi⟩⟩

theorem IsUnion.unique (hp : IsUnion entries p) (hq : IsUnion entries q) : p = q :=
  eq_of_getLsbD fun i => (hp i).trans (hq i).symm

/-- The bits that payloads add to others. -/
theorem getLsbD_foldl_or {α : Type} (payload : α → Int64) (xs : List α) (acc : Int64) (i : Nat) :
    (xs.foldl (fun acc x => acc ||| payload x) acc).toBitVec.getLsbD i = true ↔
      acc.toBitVec.getLsbD i = true ∨ ∃ x ∈ xs, (payload x).toBitVec.getLsbD i = true := by
  induction xs generalizing acc with
  | nil => simp
  | cons x rest ih =>
      rw [List.foldl_cons, ih, Int64.toBitVec_or, BitVec.getLsbD_or, Bool.or_eq_true, List.exists_mem_cons_iff,
        or_assoc]

theorem isUnion_foldl (entries : List (String × Int64)) :
    IsUnion entries (entries.foldl (fun acc e => acc ||| e.2) 0) := by
  intro i
  rw [getLsbD_foldl_or Prod.snd]
  simp

theorem foldl_eq_iff : entries.foldl (fun acc e => acc ||| e.2) 0 = p ↔ IsUnion entries p :=
  ⟨fun h => h ▸ isUnion_foldl entries, (isUnion_foldl entries).unique⟩

/-! ## The entries of a set -/

theorem mem_covering_iff : e ∈ f.covering ↔ e ∈ f.type.entries ∧ e.2 ≠ 0 ∧ Within e.2 f.bits := by
  rw [covering, List.mem_filter, Bool.and_eq_true, bne_iff_ne, beq_iff_eq, and_eq_iff_within]

/-- Entries that make up a set are among those in it, and the others in it add nothing. -/
theorem isUnion_covering_iff : IsUnion f.covering f.bits ↔
    ∃ entries, entries ⊆ f.type.entries ∧ (∀ e ∈ entries, e.2 ≠ 0) ∧ IsUnion entries f.bits := by
  constructor
  · exact fun h => ⟨f.covering, fun e he => (mem_covering_iff.mp he).1, fun e he => (mem_covering_iff.mp he).2.1, h⟩
  · rintro ⟨entries, hsubset, hzero, hunion⟩ i
    constructor
    · intro hi
      obtain ⟨e, he, hbit⟩ := (hunion i).mp hi
      have hwithin : Within e.2 f.bits := fun j hj => (hunion j).mpr ⟨e, he, hj⟩
      exact ⟨e, mem_covering_iff.mpr ⟨hsubset he, hzero e he, hwithin⟩, hbit⟩
    · rintro ⟨e, he, hbit⟩
      exact (mem_covering_iff.mp he).2.2 i hbit

/-! ## Ascending names -/

theorem mem_insertName_iff {other : String} : name ∈ insertName other names ↔ name = other ∨ name ∈ names := by
  induction names with
  | nil => simp [insertName]
  | cons head rest ih =>
      rw [insertName]
      split
      · exact List.mem_cons
      · split
        · rename_i heq
          rw [heq]
          simp
        · rw [List.mem_cons, ih, List.mem_cons, or_left_comm]

theorem mem_sortedNames_iff : name ∈ sortedNames names ↔ name ∈ names := by
  induction names with
  | nil => rfl
  | cons head rest ih =>
      have hstep : sortedNames (head :: rest) = insertName head (sortedNames rest) := rfl
      rw [hstep, mem_insertName_iff, ih, List.mem_cons]

theorem pairwise_insertName (h : names.Pairwise (· < ·)) : (insertName name names).Pairwise (· < ·) := by
  induction names with
  | nil => exact List.pairwise_singleton _ _
  | cons head rest ih =>
      obtain ⟨hhead, hrest⟩ := List.pairwise_cons.mp h
      rw [insertName]
      split
      · rename_i hlt
        refine List.pairwise_cons.mpr ⟨fun other hother => ?_, h⟩
        rcases List.mem_cons.mp hother with rfl | hother
        · exact hlt
        · exact String.lt_trans hlt (hhead other hother)
      · rename_i hle
        split
        · exact h
        · rename_i hne
          refine List.pairwise_cons.mpr ⟨fun other hother => ?_, ih hrest⟩
          rcases mem_insertName_iff.mp hother with rfl | hother
          · -- The new name is neither before the head nor equal to it.
            refine Decidable.byContradiction fun hge => ?_
            exact hne (String.le_antisymm (String.not_lt.mp hge) (String.not_lt.mp hle))
          · exact hhead other hother

theorem pairwise_sortedNames (names : List String) : (sortedNames names).Pairwise (· < ·) := by
  induction names with
  | nil => exact List.Pairwise.nil
  | cons head rest ih => exact pairwise_insertName ih

/-! ## Names -/

/-- A set without flags is named by the first entry of zero, any other by the entries in it if they make it up. -/
theorem names?_eq_some_iff : f.names? = some names ↔
    (f.bits = 0 ∧ ∃ name, f.type.nameOf? 0 = some name ∧ [name] = names) ∨
      (f.bits ≠ 0 ∧ IsUnion f.covering f.bits ∧ sortedNames (f.covering.map Prod.fst) = names) := by
  unfold names?
  split
  · rename_i hzero
    simp [hzero, Option.map_eq_some_iff]
  · rename_i hbits
    simp only [hbits, false_and, false_or, Option.ite_none_right_eq_some, Option.some.injEq, foldl_eq_iff,
      ne_eq, not_false_eq_true, true_and]

theorem exists_nameOf?_iff {t : EnumType} : (∃ name, t.nameOf? p = some name) ↔ ∃ e ∈ t.entries, e.2 = p := by
  rw [← Option.isSome_iff_exists, EnumType.nameOf?, Option.isSome_map, List.find?_isSome]
  simp only [beq_iff_eq]

/-- A set has names exactly if it is empty and there is an entry of zero, or if entries with flags make it up. -/
theorem exists_names?_iff : (∃ names, f.names? = some names) ↔
    (f.bits = 0 ∧ ∃ e ∈ f.type.entries, e.2 = 0) ∨
      (f.bits ≠ 0 ∧ ∃ entries, entries ⊆ f.type.entries ∧ (∀ e ∈ entries, e.2 ≠ 0) ∧ IsUnion entries f.bits) := by
  simp only [names?_eq_some_iff, ← isUnion_covering_iff, ← exists_nameOf?_iff]
  constructor
  · rintro ⟨names, ⟨hzero, name, hname, -⟩ | ⟨hbits, hunion, -⟩⟩
    · exact Or.inl ⟨hzero, name, hname⟩
    · exact Or.inr ⟨hbits, hunion⟩
  · rintro (⟨hzero, name, hname⟩ | ⟨hbits, hunion⟩)
    · exact ⟨_, Or.inl ⟨hzero, name, hname, rfl⟩⟩
    · exact ⟨_, Or.inr ⟨hbits, hunion, rfl⟩⟩

/-- Names are in ascending order, and each is there once. -/
theorem pairwise_names (h : f.names? = some names) : names.Pairwise (· < ·) := by
  rcases names?_eq_some_iff.mp h with ⟨-, name, -, rfl⟩ | ⟨-, -, rfl⟩
  · exact List.pairwise_singleton _ _
  · exact pairwise_sortedNames _

/-- A set with flags is named by all entries with flags that are in it. -/
theorem mem_names_iff (h : f.names? = some names) (hbits : f.bits ≠ 0) :
    name ∈ names ↔ ∃ e ∈ f.type.entries, e.1 = name ∧ e.2 ≠ 0 ∧ Within e.2 f.bits := by
  rcases names?_eq_some_iff.mp h with ⟨hzero, -⟩ | ⟨-, -, rfl⟩
  · exact absurd hzero hbits
  · simp only [mem_sortedNames_iff, List.mem_map, mem_covering_iff]
    constructor
    · rintro ⟨e, ⟨he, hflags, hwithin⟩, heq⟩
      exact ⟨e, he, heq, hflags, hwithin⟩
    · rintro ⟨e, he, heq, hflags, hwithin⟩
      exact ⟨e, ⟨he, hflags, hwithin⟩, heq⟩

/-- The entries that the names of a set stand for, which make it up. -/
structure Named (f : FlagSet) (names : List String) (entries : List (String × Int64)) : Prop where
  subset : entries ⊆ f.type.entries
  mem_iff : ∀ name, name ∈ names ↔ ∃ e ∈ entries, e.1 = name
  isUnion : IsUnion entries f.bits
  ne_nil : names ≠ []

theorem exists_named (h : f.names? = some names) : ∃ entries, Named f names entries := by
  rcases names?_eq_some_iff.mp h with ⟨hzero, name, hname, rfl⟩ | ⟨hbits, hunion, rfl⟩
  · refine ⟨[(name, 0)], ?_, by simp [eq_comm], fun i => by simp [hzero], List.cons_ne_nil name []⟩
    exact List.cons_subset.mpr ⟨EnumType.nameOf?_eq_some hname, List.nil_subset _⟩
  · refine ⟨f.covering, fun e he => (mem_covering_iff.mp he).1, fun name => ?_, hunion, fun hnil => hbits ?_⟩
    · rw [mem_sortedNames_iff, List.mem_map]
    · -- Without names there are no entries, and without entries there are no bits.
      have hnone : f.covering = [] := by
        refine List.eq_nil_iff_forall_not_mem.mpr fun e he => ?_
        have hmem : e.1 ∈ sortedNames (f.covering.map Prod.fst) :=
          mem_sortedNames_iff.mpr (List.mem_map_of_mem he)
        rw [hnil] at hmem
        cases hmem
      rw [hnone] at hunion
      exact hunion.unique fun i => by simp

end FlagSet

/-- Names that tell entries apart, without bars and without blanks at their ends, and none of which is a number. -/
structure EnumType.Separable (t : EnumType) : Prop where
  distinguishes : t.Distinguishes
  bar_not_mem : ∀ e ∈ t.entries, '|' ∉ e.1.toList
  trimmed : ∀ e ∈ t.entries, Text.Trimmed e.1.toList
  not_literal : ∀ e ∈ t.entries, ¬∃ word, Text.WordLiteral e.1.toList word

namespace FlagSet

variable {t : EnumType} {f : FlagSet} {e : String × Int64} {names : List String} {payload : Int64}

/-! ## Pieces -/

/-- A name between bars is read as the payload of its entry. -/
theorem piece?_of_mem (ht : t.Separable) (he : e ∈ t.entries) :
    piece? t (Text.trimChars e.1.toList) = some e.2 := by
  rw [(ht.trimmed e he).trimChars_eq, piece?, String.ofList_toList, EnumType.payloadOf?_of_mem ht.distinguishes he]
  rfl

theorem unionOfPieces?_eq (ht : t.Separable) {entries : List (String × Int64)} (hsubset : entries ⊆ t.entries)
    (acc : Int64) : unionOfPieces? t acc (entries.map fun e => e.1.toList) =
      some (entries.foldl (fun acc e => acc ||| e.2) acc) := by
  induction entries generalizing acc with
  | nil => rfl
  | cons e rest ih =>
      obtain ⟨he, hrest⟩ := List.cons_subset.mp hsubset
      rw [List.map_cons, unionOfPieces?, piece?_of_mem ht he, List.foldl_cons]
      exact ih hrest _

/-- Names of entries are the names of a list of them. -/
theorem exists_listed {entries : List (String × Int64)} (h : ∀ name ∈ names, ∃ e ∈ entries, e.1 = name) :
    ∃ listed : List (String × Int64), listed.map Prod.fst = names ∧ listed ⊆ entries := by
  induction names with
  | nil => exact ⟨[], rfl, List.nil_subset _⟩
  | cons name rest ih =>
      obtain ⟨⟨e, he, rfl⟩, hrest⟩ := List.forall_mem_cons.mp h
      obtain ⟨listed, rfl, hlisted⟩ := ih hrest
      exact ⟨e :: listed, rfl, List.cons_subset.mpr ⟨he, hlisted⟩⟩

/-- Names of entries that make up a set are read as its bits, in whatever order they are and however often. -/
theorem unionOfPieces?_of_named (ht : t.Separable) (htype : f.type = t) {entries : List (String × Int64)}
    (h : Named f names entries) : unionOfPieces? t 0 (names.map String.toList) = some f.bits := by
  obtain ⟨listed, rfl, hlisted⟩ := exists_listed fun name hname => (h.mem_iff name).mp hname
  have hsubset : listed ⊆ t.entries := htype ▸ List.Subset.trans hlisted h.subset
  have hunion : IsUnion listed f.bits := by
    intro i
    rw [h.isUnion i]
    constructor
    · rintro ⟨e, he, hbit⟩
      obtain ⟨d, hd, hname⟩ := List.mem_map.mp ((h.mem_iff e.1).mpr ⟨e, he, rfl⟩)
      -- Entries with one name are one entry.
      have hpayload := EnumType.payloadOf?_of_mem ht.distinguishes (hsubset hd)
      rw [hname, EnumType.payloadOf?_of_mem ht.distinguishes (htype ▸ h.subset he)] at hpayload
      exact ⟨d, hd, Option.some.inj hpayload ▸ hbit⟩
    · rintro ⟨e, he, hbit⟩
      exact ⟨e, hlisted he, hbit⟩
  rw [List.map_map, ← foldl_eq_iff.mpr hunion]
  exact unionOfPieces?_eq ht hsubset 0

/-! ## Three kinds of text -/

/-- Joined names are not read as a number. -/
theorem payload?_join (ht : t.Separable) (hne : names ≠ []) (hnames : ∀ name ∈ names, ∃ e ∈ t.entries, e.1 = name) :
    Text.payload? (Text.trimChars (Text.join "|" names).toList) = none := by
  rcases Text.mem_join (show "|".toList = ['|'] from rfl) names with hnil | ⟨name, rfl⟩ | hbar
  · exact absurd hnil hne
  · obtain ⟨e, he, rfl⟩ := hnames name List.mem_cons_self
    show Text.payload? (Text.trimChars e.1.toList) = none
    rw [(ht.trimmed e he).trimChars_eq, Text.payload?_eq_none_iff.mpr (ht.not_literal e he)]
  · exact Text.payload?_eq_none_of_mem (Text.mem_trimChars hbar rfl) rfl (by decide) (by decide)

/-- The names that make up a set are read as the set. -/
theorem parse?_join (ht : t.Separable) (htype : f.type = t) {entries : List (String × Int64)}
    (h : Named f names entries) : parse? t (Text.join "|" names) = some (ofBits t f.bits) := by
  have hentry : ∀ name ∈ names, ∃ e ∈ t.entries, e.1 = name := fun name hname => by
    obtain ⟨e, he, heq⟩ := (h.mem_iff name).mp hname
    exact ⟨e, htype ▸ h.subset he, heq⟩
  have hbar : ∀ name ∈ names, '|' ∉ name.toList := fun name hname => by
    obtain ⟨e, he, rfl⟩ := hentry name hname
    exact ht.bar_not_mem e he
  rw [parse?, payload?_join ht h.ne_nil hentry, Text.splitChars_join rfl h.ne_nil hbar,
    unionOfPieces?_of_named ht htype h]
  rfl

/-- The name of an entry is read as the set with its bits. -/
theorem parse?_of_mem (ht : t.Separable) {name : String} (he : (name, payload) ∈ t.entries) :
    parse? t name = some (ofBits t payload) := by
  have hnamed : Named ⟨t, payload⟩ [name] [(name, payload)] :=
    ⟨List.cons_subset.mpr ⟨he, List.nil_subset _⟩, by simp [eq_comm], fun i => by simp, by simp⟩
  have hread := parse?_join ht rfl hnamed
  rwa [Text.join] at hread

/-- A number is read as the set with its bits. -/
theorem parse?_render (h : t.backing.Normal payload) :
    parse? t (t.backing.render payload) = some (ofBits t payload) := by
  have hread := IntegerType.payload?_render h
  have htrim := (Text.payload?_eq_some_iff.mp hread).trimmed.trimChars_eq
  rw [parse?, htrim, hread]

/-- A number behind a sharp is read as the set with its bits, if no name starts like that. -/
theorem parse?_sharp (hsharp : t.AvoidsSharp) (h : t.backing.Normal payload) :
    parse? t ("#" ++ t.backing.render payload) = some (ofBits t payload) := by
  have hword := Text.payload?_eq_some_iff.mp (IntegerType.payload?_render h)
  -- The text is no number and has no bar, so it is a single piece.
  have hchars : ("#" ++ t.backing.render payload).toList = '#' :: (t.backing.render payload).toList := by
    rw [String.toList_append]
    rfl
  have htrim : Text.trimChars ("#" ++ t.backing.render payload).toList =
      ("#" ++ t.backing.render payload).toList := by
    rw [hchars]
    refine (Text.trimmed_of_forall (List.forall_mem_cons.mpr ⟨rfl, fun c hc => ?_⟩)).trimChars_eq
    exact Text.isBlank_of_isDigit_or_sign (hword.isDigit_or_sign hc)
  have hnone : Text.payload? ("#" ++ t.backing.render payload).toList = none := by
    rw [hchars]
    exact Text.payload?_eq_none_of_mem List.mem_cons_self rfl (by decide) (by decide)
  have hbar : '|' ∉ ("#" ++ t.backing.render payload).toList := by
    rw [hchars, List.mem_cons, not_or]
    refine ⟨by decide, fun hmem => ?_⟩
    have hpiece := Text.payload?_eq_none_of_mem hmem rfl (by decide) (by decide)
    rw [IntegerType.payload?_render h] at hpiece
    cases hpiece
  have hpiece : piece? t ("#" ++ t.backing.render payload).toList = some payload := by
    rw [piece?, String.ofList_toList, EnumType.payloadOf?_eq_none_of_sharp hsharp hchars, EnumType.numbered?_render h]
    rfl
  have hunion : unionOfPieces? t 0 [("#" ++ t.backing.render payload).toList] = some payload := by
    simp only [unionOfPieces?, htrim, hpiece, Option.bind_eq_bind, Option.bind_some, Int64.zero_or]
  rw [parse?, htrim, hnone, Text.splitChars_of_not_mem hbar, hunion]
  rfl

/-! ## Sets and values -/

theorem parse?_text (ht : t.Separable) (bits : Int64) : parse? t (ofBits t bits).text = some (ofBits t bits) := by
  have hnormal : t.backing.Normal (ofBits t bits).bits := t.backing.normal_truncate bits
  have hsame : ofBits t (ofBits t bits).bits = ofBits t bits :=
    congrArg (FlagSet.mk t) (t.backing.truncate_truncate bits)
  unfold text
  cases hnames : (ofBits t bits).names? with
  | none => exact (parse?_render hnormal).trans (congrArg some hsame)
  | some names =>
      obtain ⟨entries, hnamed⟩ := exists_named hnames
      exact (parse?_join ht rfl hnamed).trans (congrArg some hsame)

theorem parse?_text_of_value (ht : t.Separable) (hsharp : t.AvoidsSharp) (payload : Int64) :
    parse? t (EnumValue.ofPayload t payload).text = some (ofValue (EnumValue.ofPayload t payload)) := by
  have hnormal : t.backing.Normal (EnumValue.ofPayload t payload).payload := t.backing.normal_truncate payload
  rcases (EnumValue.ofPayload t payload).text_cases with hentry | htext
  · exact parse?_of_mem ht hentry
  · rw [htext]
    exact parse?_sharp hsharp hnormal

/-- A set of flags has names exactly if it is empty and there is an entry of zero, or if entries with flags make it up;
then the names of a set that is not empty are those of all entries with flags that are in it, in ascending order and
each once.  If names can stand between bars, a set is read back from its text, and if moreover none starts with a sharp,
the text of a value is read as the set with its bits. -/
theorem flags_read_back (t : EnumType) :
    (∀ f : FlagSet, f.type = t →
      ((∃ names, f.names? = some names) ↔
        (f.bits = 0 ∧ ∃ e ∈ t.entries, e.2 = 0) ∨
          (f.bits ≠ 0 ∧ ∃ entries, entries ⊆ t.entries ∧ (∀ e ∈ entries, e.2 ≠ 0) ∧ IsUnion entries f.bits)) ∧
      ∀ names, f.names? = some names → f.bits ≠ 0 → names.Pairwise (· < ·) ∧
        ∀ name, name ∈ names ↔ ∃ e ∈ t.entries, e.1 = name ∧ e.2 ≠ 0 ∧ Within e.2 f.bits) ∧
    (t.Separable → ∀ bits, parse? t (ofBits t bits).text = some (ofBits t bits)) ∧
    (t.Separable → t.AvoidsSharp → ∀ payload,
      parse? t (EnumValue.ofPayload t payload).text = some (ofValue (EnumValue.ofPayload t payload))) := by
  refine ⟨?_, parse?_text, parse?_text_of_value⟩
  rintro f rfl
  exact ⟨exists_names?_iff, fun names hnames hbits => ⟨pairwise_names hnames, fun name => mem_names_iff hnames hbits⟩⟩

/-- Four flags without a sign, with a name for two of them together and none for the last. -/
def overlapping : EnumType := .declare "Access" ⟨4, false⟩ [("write", 2), ("read", 1), ("all", 3), ("run", 4)]

/-- Overlapping names, a single name, no name and no flag are read back. -/
theorem overlapping_read_back : overlapping.Separable ∧ overlapping.AvoidsSharp ∧
    [7, 4, 12, 0].map (fun bits => (ofBits overlapping bits).text) = ["all|read|run|write", "run", "12", "0"] ∧
    (∀ bits ∈ [7, 4, 12, 0], parse? overlapping (ofBits overlapping bits).text = some (ofBits overlapping bits)) ∧
    parse? overlapping (EnumValue.ofPayload overlapping 12).text = some (ofBits overlapping 12) := by
  have hseparable : overlapping.Separable := by
    have hblank : ∀ e ∈ overlapping.entries, ∀ c ∈ e.1.toList, Text.isBlank c = false := by
      simp [overlapping, EnumType.declare, Text.isBlank]
    have hnone : ∀ e ∈ overlapping.entries, Text.payload? e.1.toList = none := by decide +kernel
    exact ⟨by decide, by decide, fun e he => Text.trimmed_of_forall (hblank e he),
      fun e he => Text.payload?_eq_none_iff.mp (hnone e he)⟩
  have hsharp : overlapping.AvoidsSharp := by decide
  have htexts : [7, 4, 12, 0].map (fun bits => (ofBits overlapping bits).text) =
      ["all|read|run|write", "run", "12", "0"] := by
    decide +kernel
  obtain ⟨-, hsets, hvalues⟩ := flags_read_back overlapping
  exact ⟨hseparable, hsharp, htexts, fun bits _ => hsets hseparable bits, hvalues hseparable hsharp 12⟩

end FlagSet

end ObjectBridge
