import Mathlib.Order.Bounds.Basic
import ObjectBridge.Proofs.Call.Binding
import ObjectBridge.Proofs.Call.Selection

/-!
# Every argument is used once

A positional argument is for the parameter at its position, and a keyword is for the first parameter with its name.
What is bound to parameters can be told from this alone.  If no parameter is given twice, the sources that
`placeKeywords` fills in are the arguments that are given, and a parameter without an argument takes its default.

* `CallArgs.Gives` — which arguments are given for a parameter.
* `CallArgs.OneEach`, `Complete` and `Convertible` — what arguments must be like to be bound.
* `CallArgs.UsesEachOnce` — what is bound to the parameters.
* `CallArgs.getElem?_of_findSources` — the sources of the parameters.
* `CallArgs.binds_each_argument_once` — arguments are bound exactly if they are like this, and each of them once.
-/

namespace ObjectBridge.CallArgs

open Conversion

/-! ## Arguments and parameters -/

/-- The positions of the parameters with a name. -/
def named (params : List Param) (name : String) : Set Nat :=
  { i | ∃ p, params[i]? = some p ∧ p.name = name }

/-- An argument is given for a parameter. -/
inductive Gives (args : CallArgs) (params : List Param) (i : Nat) : Source → Prop
  /-- A positional argument is for the parameter at its position. -/
  | positional (h : i < args.positional.length) : Gives args params i (.positional i)
  /-- A keyword is for the first parameter with its name. -/
  | keyword {k : Nat} {name : String} {v : Value} (hgiven : args.keywords[k]? = some (name, v))
      (hfirst : IsLeast (named params name) i) : Gives args params i (.keyword k)

/-- Some argument is given for a parameter. -/
def Given (args : CallArgs) (params : List Param) (i : Nat) : Prop :=
  ∃ source, args.Gives params i source

/-- Every argument has a parameter of its own. -/
structure OneEach (args : CallArgs) (params : List Param) : Prop where
  few : args.positional.length ≤ params.length
  known : ∀ e ∈ args.keywords, ∃ p ∈ params, p.name = e.1
  once : ∀ i source other, args.Gives params i source → args.Gives params i other → source = other

/-- The positions of the required parameters for which no argument is given. -/
def unfilled (args : CallArgs) (params : List Param) : Set Nat :=
  { i | ∃ p, params[i]? = some p ∧ p.default? = none ∧ ¬args.Given params i }

/-- An argument is given for every required parameter. -/
def Complete (args : CallArgs) (params : List Param) : Prop :=
  ∀ i p, params[i]? = some p → p.default? = none → args.Given params i

/-- The value at a source, or else the default of the parameter. -/
def supplied? (args : CallArgs) (p : Param) : Source → Option Value
  | .default => p.default?
  | source => args.given? source

/-- A value is given for a parameter. -/
def GivesValue (args : CallArgs) (params : List Param) (i : Nat) (raw : Value) : Prop :=
  ∃ source, args.Gives params i source ∧ args.given? source = some raw

/-- A parameter is to take a value: the one that is given for it, or its default if none is given. -/
def Supplies (args : CallArgs) (params : List Param) (i : Nat) (p : Param) (raw : Value) : Prop :=
  args.GivesValue params i raw ∨ (¬args.Given params i ∧ p.default? = some raw)

/-- Every value that a parameter is to take converts to its type. -/
def Convertible (w : World) (args : CallArgs) (params : List Param) : Prop :=
  ∀ i p raw, params[i]? = some p → args.Supplies params i p raw →
    ∃ converted, convert w p.type p.passing raw = .ok converted

/-- Every argument is the source of one parameter, and every parameter takes the converted value of its source. -/
structure UsesEachOnce (w : World) (args : CallArgs) (params : List Param) (b : Bound) : Prop where
  length_values : b.values.length = params.length
  length_sources : b.sources.length = params.length
  positional : ∀ i < args.positional.length, ∀ j, b.sources[j]? = some (.positional i) ↔ j = i
  keyword : ∀ k name v, args.keywords[k]? = some (name, v) →
    ∃ i, IsLeast (named params name) i ∧ ∀ j, b.sources[j]? = some (.keyword k) ↔ j = i
  /-- A parameter takes its default only if it declares one and no argument is given for it. -/
  default : ∀ (i : Nat) (p : Param), params[i]? = some p → b.sources[i]? = some .default →
    p.default?.isSome = true ∧ ¬args.Given params i
  value : ∀ (i : Nat) (p : Param) (source : Source) (v : Value), params[i]? = some p → b.sources[i]? = some source →
    b.values[i]? = some v →
      ∃ raw cost, args.supplied? p source = some raw ∧ convert w p.type p.passing raw = .ok (v, cost)

variable {args : CallArgs} {params : List Param} {w : World} {names : List String} {sources filled : List (Option Source)}
  {number i : Nat} {name : String} {source : Source}

/-! ## Names of parameters -/

theorem findIdx?_eq_some_iff_isLeast :
    params.findIdx? (fun p => p.name == name) = some i ↔ IsLeast (named params name) i := by
  rw [List.findIdx?_eq_some_iff_getElem]
  constructor
  · rintro ⟨hlt, hname, hbefore⟩
    refine ⟨⟨params[i], List.getElem?_eq_getElem hlt, eq_of_beq hname⟩, ?_⟩
    rintro j ⟨p, hp, rfl⟩
    by_contra hji
    obtain ⟨hj, rfl⟩ := List.getElem?_eq_some_iff.mp hp
    exact hbefore j (Nat.lt_of_not_le hji) (beq_self_eq_true _)
  · rintro ⟨⟨p, hp, rfl⟩, hleast⟩
    obtain ⟨hlt, rfl⟩ := List.getElem?_eq_some_iff.mp hp
    refine ⟨hlt, beq_self_eq_true _, fun j hji hname => ?_⟩
    have hle := hleast ⟨params[j], List.getElem?_eq_getElem (Nat.lt_trans hji hlt), eq_of_beq hname⟩
    exact absurd hle (Nat.not_le_of_lt hji)

/-- A parameter has one name. -/
theorem eq_of_isLeast_named {other : String} (h : IsLeast (named params name) i)
    (h' : IsLeast (named params other) i) : name = other := by
  obtain ⟨p, hp, rfl⟩ := h.1
  obtain ⟨q, hq, rfl⟩ := h'.1
  rw [Option.some.inj (hp.symm.trans hq)]

theorem exists_isLeast_named (h : ∃ p ∈ params, p.name = name) : ∃ i, IsLeast (named params name) i := by
  obtain ⟨p, hp, hname⟩ := h
  cases hfound : params.findIdx? (fun p => p.name == name) with
  | none => exact absurd (List.findIdx?_eq_none_iff.mp hfound p hp) (by simp [hname])
  | some i => exact ⟨i, findIdx?_eq_some_iff_isLeast.mp hfound⟩

theorem lt_of_isLeast_named (h : IsLeast (named params name) i) : i < params.length := by
  obtain ⟨p, hp, -⟩ := h.1
  exact (List.getElem?_eq_some_iff.mp hp).1

/-! ## Keywords find their places -/

theorem getD_set_source {j : Nat} {s : Option Source} (hj : j < sources.length) :
    (sources.set j s).getD i none = if i = j then s else sources.getD i none := by
  rw [List.getD_eq_getElem?_getD, List.getD_eq_getElem?_getD, List.getElem?_set]
  by_cases hij : i = j
  · subst hij
    rw [if_pos rfl, if_pos rfl, if_pos hj, Option.getD_some]
  · rw [if_neg (Ne.symm hij), if_neg hij]

/-- The first keyword finds a free parameter, and the others find theirs afterwards. -/
theorem exists_of_placeKeywords_cons {rest : List String}
    (h : placeKeywords params sources number (name :: rest) = .ok filled) :
    ∃ j, IsLeast (named params name) j ∧ sources.getD j none = none ∧
      placeKeywords params (sources.set j (some (.keyword number))) (number + 1) rest = .ok filled := by
  rw [placeKeywords] at h
  split at h
  · cases h
  · rename_i j hj
    split at h
    · cases h
    · cases h
    · rename_i hfree
      exact ⟨j, findIdx?_eq_some_iff_isLeast.mp hj, hfree, h⟩

theorem placeKeywords_cons {rest : List String} (hfirst : IsLeast (named params name) i)
    (hfree : sources.getD i none = none) :
    placeKeywords params sources number (name :: rest) =
      placeKeywords params (sources.set i (some (.keyword number))) (number + 1) rest := by
  rw [placeKeywords, findIdx?_eq_some_iff_isLeast.mpr hfirst]
  simp only [hfree]

/-- All keywords find their places exactly if they are different and name parameters that are free. -/
theorem exists_placeKeywords_iff (hlength : sources.length = params.length) :
    (∃ filled, placeKeywords params sources number names = .ok filled) ↔
      names.Nodup ∧ ∀ name ∈ names, ∃ i, IsLeast (named params name) i ∧ sources.getD i none = none := by
  induction names generalizing sources number with
  | nil => exact ⟨fun _ => ⟨List.nodup_nil, nofun⟩, fun _ => ⟨sources, rfl⟩⟩
  | cons name rest ih =>
      -- What is free after the first keyword is free before, apart from the place of the first keyword.
      have hrest {j : Nat} (hj : IsLeast (named params name) j) (s : Option Source) :
          (∃ filled, placeKeywords params (sources.set j s) (number + 1) rest = .ok filled) ↔ rest.Nodup ∧
            ∀ other ∈ rest, ∃ i, IsLeast (named params other) i ∧ (sources.set j s).getD i none = none :=
        ih (by rw [List.length_set, hlength])
      constructor
      · rintro ⟨filled, hplace⟩
        obtain ⟨j, hj, hfree, hplace⟩ := exists_of_placeKeywords_cons hplace
        have hlt : j < sources.length := hlength ▸ lt_of_isLeast_named hj
        obtain ⟨hnodup, hall⟩ := (hrest hj _).mp ⟨filled, hplace⟩
        refine ⟨List.nodup_cons.mpr ⟨fun hmem => ?_, hnodup⟩, ?_⟩
        · obtain ⟨i, hi, hnone⟩ := hall name hmem
          rw [hi.unique hj, getD_set_source hlt, if_pos rfl] at hnone
          cases hnone
        · rintro other (_ | ⟨_, hmem⟩)
          · exact ⟨j, hj, hfree⟩
          · obtain ⟨i, hi, hnone⟩ := hall other hmem
            rw [getD_set_source hlt] at hnone
            split at hnone
            · cases hnone
            · exact ⟨i, hi, hnone⟩
      · rintro ⟨hnodup, hall⟩
        obtain ⟨hnew, hnodup⟩ := List.nodup_cons.mp hnodup
        obtain ⟨j, hj, hfree⟩ := hall name List.mem_cons_self
        have hlt : j < sources.length := hlength ▸ lt_of_isLeast_named hj
        rw [placeKeywords_cons hj hfree]
        refine (hrest hj _).mpr ⟨hnodup, fun other hmem => ?_⟩
        obtain ⟨i, hi, hnone⟩ := hall other (List.mem_cons_of_mem _ hmem)
        refine ⟨i, hi, ?_⟩
        rw [getD_set_source hlt, if_neg, hnone]
        rintro rfl
        exact hnew (eq_of_isLeast_named hj hi ▸ hmem)

/-- What is filled in is what was there before, and every keyword at its place. -/
theorem getD_of_placeKeywords (hlength : sources.length = params.length)
    (h : placeKeywords params sources number names = .ok filled) :
    filled.getD i none = some source ↔ sources.getD i none = some source ∨
      ∃ k name, names[k]? = some name ∧ IsLeast (named params name) i ∧ source = .keyword (number + k) := by
  induction names generalizing sources number with
  | nil =>
      obtain rfl := Except.ok.inj h
      simp
  | cons name rest ih =>
      obtain ⟨j, hj, hfree, h⟩ := exists_of_placeKeywords_cons h
      have hlt : j < sources.length := hlength ▸ lt_of_isLeast_named hj
      -- The first name fills its place, and the other names are numbered from the next one on.
      rw [ih (by rw [List.length_set, hlength]) h, getD_set_source hlt]
      constructor
      · rintro (hnow | ⟨k, other, hother, hi, rfl⟩)
        · split at hnow
          · rename_i hij
            subst hij
            exact Or.inr ⟨0, name, rfl, hj, (Option.some.inj hnow).symm⟩
          · exact Or.inl hnow
        · exact Or.inr ⟨k + 1, other, hother, hi, by rw [Nat.add_assoc, Nat.add_comm 1 k]⟩
      · rintro (hbefore | ⟨k, other, hother, hi, rfl⟩)
        · refine Or.inl ?_
          rw [if_neg, hbefore]
          rintro rfl
          rw [hfree] at hbefore
          cases hbefore
        · cases k with
          | zero =>
              obtain rfl := Option.some.inj hother
              exact Or.inl (if_pos (hi.unique hj))
          | succ k => exact Or.inr ⟨k, other, hother, hi, by rw [Nat.add_assoc, Nat.add_comm 1 k]⟩

theorem getD_positionalSources (given first : Nat) (params : List Param) (i : Nat) :
    (positionalSources given first params).getD i none =
      if i < params.length ∧ first + i < given then some (.positional (first + i)) else none := by
  induction params generalizing first i with
  | nil => rfl
  | cons p rest ih =>
      cases i with
      | zero => simp [positionalSources]
      | succ i =>
          rw [positionalSources, List.getD_cons_succ, ih, List.length_cons, Nat.add_right_comm, Nat.add_assoc]
          simp only [Nat.add_lt_add_iff_right]

/-! ## Sources -/

/-- The arguments at their places, before defaults are filled in. -/
def places (args : CallArgs) (params : List Param) : Except Rejection (List (Option Source)) :=
  placeKeywords params (positionalSources args.positional.length 0 params) 0 (args.keywords.map Prod.fst)

theorem findSources_of_many (hmany : params.length < args.positional.length) :
    args.findSources params = .error (.tooMany args.positional.length params.length) := by
  simp only [findSources, if_pos hmany]
  rfl

theorem findSources_of_error {r : Rejection} (hfew : args.positional.length ≤ params.length)
    (hplaces : args.places params = .error r) : args.findSources params = .error r := by
  have hplaces' : placeKeywords params (positionalSources args.positional.length 0 params) 0
      (args.keywords.map Prod.fst) = .error r := hplaces
  simp only [findSources, if_neg (Nat.not_lt_of_le hfew), hplaces']
  rfl

theorem findSources_of_missing {r : Rejection} (hfew : args.positional.length ≤ params.length)
    (hplaces : args.places params = .ok filled) (hmissing : missing? params filled = some r) :
    args.findSources params = .error r := by
  have hplaces' : placeKeywords params (positionalSources args.positional.length 0 params) 0
      (args.keywords.map Prod.fst) = .ok filled := hplaces
  simp only [findSources, if_neg (Nat.not_lt_of_le hfew), hplaces', Bind.bind, Except.bind, hmissing]

theorem findSources_of_places (hfew : args.positional.length ≤ params.length)
    (hplaces : args.places params = .ok filled) (hnone : missing? params filled = none) :
    args.findSources params = .ok (filled.map fun source => source.getD .default) := by
  have hplaces' : placeKeywords params (positionalSources args.positional.length 0 params) 0
      (args.keywords.map Prod.fst) = .ok filled := hplaces
  simp only [findSources, if_neg (Nat.not_lt_of_le hfew), hplaces', Bind.bind, Except.bind, hnone]
  rfl

/-- A place that positional arguments leave free is beyond all of them. -/
theorem getD_positionalSources_eq_none_iff (hi : i < params.length) :
    (positionalSources args.positional.length 0 params).getD i none = none ↔ args.positional.length ≤ i := by
  rw [getD_positionalSources, Nat.zero_add]
  split
  · rename_i hgiven
    simp [hgiven.2]
  · rename_i hgiven
    simp only [true_iff]
    exact Nat.le_of_not_lt fun hlt => hgiven ⟨hi, hlt⟩

theorem getElem?_keywords_names {k : Nat} :
    (args.keywords.map Prod.fst)[k]? = some name ↔ ∃ v, args.keywords[k]? = some (name, v) := by
  rw [List.getElem?_map, Option.map_eq_some_iff]
  constructor
  · rintro ⟨⟨other, v⟩, hgiven, rfl⟩
    exact ⟨v, hgiven⟩
  · rintro ⟨v, hgiven⟩
    exact ⟨_, hgiven, rfl⟩

/-- Every argument has a parameter of its own exactly if the positional ones have parameters, and the keywords are
different and name parameters behind them. -/
theorem oneEach_iff : args.OneEach params ↔ args.positional.length ≤ params.length ∧
    (args.keywords.map Prod.fst).Nodup ∧ ∀ name ∈ args.keywords.map Prod.fst,
      ∃ i, IsLeast (named params name) i ∧ args.positional.length ≤ i := by
  constructor
  · intro hone
    have hplace {name : String} {v : Value} {k : Nat} (hgiven : args.keywords[k]? = some (name, v)) :
        ∃ i, IsLeast (named params name) i :=
      exists_isLeast_named (hone.known _ (List.mem_of_getElem? hgiven))
    refine ⟨hone.few, List.nodup_iff_getElem?_ne_getElem?.mpr fun k k' hlt hlt' hsame => ?_, fun name hname => ?_⟩
    · obtain ⟨v', hgiven'⟩ := getElem?_keywords_names.mp (List.getElem?_eq_getElem hlt')
      obtain ⟨v, hgiven⟩ := getElem?_keywords_names.mp (hsame.trans (List.getElem?_eq_getElem hlt'))
      obtain ⟨i, hi⟩ := hplace hgiven
      obtain rfl := Source.keyword.inj (hone.once i _ _ (.keyword hgiven hi) (.keyword hgiven' hi))
      exact absurd hlt (Nat.lt_irrefl _)
    · obtain ⟨k, hk⟩ := List.getElem?_of_mem hname
      obtain ⟨v, hgiven⟩ := getElem?_keywords_names.mp hk
      obtain ⟨i, hi⟩ := hplace hgiven
      refine ⟨i, hi, Nat.le_of_not_lt fun hlt => ?_⟩
      cases hone.once i _ _ (.positional hlt) (.keyword hgiven hi)
  · rintro ⟨hfew, hnodup, hall⟩
    -- The place that a name stands for lies behind the positional arguments.
    have hbehind {k : Nat} {name : String} {v : Value} {i : Nat} (hgiven : args.keywords[k]? = some (name, v))
        (hfirst : IsLeast (named params name) i) : args.positional.length ≤ i := by
      obtain ⟨j, hj, hle⟩ := hall name (List.mem_of_getElem? (getElem?_keywords_names.mpr ⟨v, hgiven⟩))
      rwa [hfirst.unique hj]
    refine ⟨hfew, fun e he => ?_, ?_⟩
    · obtain ⟨j, hj, -⟩ := hall e.1 (List.mem_map_of_mem he)
      obtain ⟨p, hp, hname⟩ := hj.1
      exact ⟨p, List.mem_of_getElem? hp, hname⟩
    · rintro i _ _ (hlt | ⟨hgiven, hfirst⟩) (hlt' | ⟨hgiven', hfirst'⟩)
      · rfl
      · exact absurd hlt (Nat.not_lt_of_le (hbehind hgiven' hfirst'))
      · exact absurd hlt' (Nat.not_lt_of_le (hbehind hgiven hfirst))
      · obtain rfl := eq_of_isLeast_named hfirst hfirst'
        have hsame := (getElem?_keywords_names.mpr ⟨_, hgiven⟩).trans (getElem?_keywords_names.mpr ⟨_, hgiven'⟩).symm
        have hlt := (List.getElem?_eq_some_iff.mp (getElem?_keywords_names.mpr ⟨_, hgiven⟩)).1
        rw [(List.getElem?_inj hlt hnodup).mp hsame]

section Placed

variable (hfew : args.positional.length ≤ params.length)

include hfew

/-- Where the arguments find their places, these are the arguments that are given. -/
theorem getD_of_places (h : args.places params = .ok filled) :
    filled.getD i none = some source ↔ args.Gives params i source := by
  rw [getD_of_placeKeywords (length_positionalSources ..) h, getD_positionalSources]
  simp only [Nat.zero_add, getElem?_keywords_names]
  constructor
  · rintro (hpositional | ⟨k, name, ⟨v, hgiven⟩, hfirst, rfl⟩)
    · split at hpositional
      · rename_i hlt
        obtain rfl := Option.some.inj hpositional
        exact .positional hlt.2
      · cases hpositional
    · exact .keyword hgiven hfirst
  · intro hgives
    cases hgives with
    | positional hlt => exact Or.inl (if_pos ⟨Nat.lt_of_lt_of_le hlt hfew, hlt⟩)
    | keyword hgiven hfirst => exact Or.inr ⟨_, _, ⟨_, hgiven⟩, hfirst, rfl⟩

/-- The arguments find their places exactly if each has a parameter of its own. -/
theorem exists_places_iff : (∃ filled, args.places params = .ok filled) ↔ args.OneEach params := by
  rw [places, exists_placeKeywords_iff (length_positionalSources ..), oneEach_iff]
  constructor
  · rintro ⟨hnodup, hall⟩
    refine ⟨hfew, hnodup, fun name hname => ?_⟩
    obtain ⟨i, hi, hnone⟩ := hall name hname
    exact ⟨i, hi, (getD_positionalSources_eq_none_iff (lt_of_isLeast_named hi)).mp hnone⟩
  · rintro ⟨-, hnodup, hall⟩
    refine ⟨hnodup, fun name hname => ?_⟩
    obtain ⟨i, hi, hle⟩ := hall name hname
    exact ⟨i, hi, (getD_positionalSources_eq_none_iff (lt_of_isLeast_named hi)).mpr hle⟩

end Placed

theorem length_of_places (h : args.places params = .ok filled) : filled.length = params.length := by
  rw [length_of_placeKeywords h, length_positionalSources]

/-- An argument that is given has a value. -/
theorem Gives.exists_value (h : args.Gives params i source) : ∃ raw, args.given? source = some raw := by
  cases h with
  | positional hlt => exact ⟨_, List.getElem?_eq_getElem hlt⟩
  | keyword hgiven _ => exact ⟨_, by rw [given?, hgiven]; rfl⟩

theorem Gives.ne_default (h : args.Gives params i source) : source ≠ .default := by
  cases h <;> exact nofun

theorem Gives.lt (hfew : args.positional.length ≤ params.length) (h : args.Gives params i source) :
    i < params.length := by
  cases h with
  | positional hlt => exact Nat.lt_of_lt_of_le hlt hfew
  | keyword _ hfirst => exact lt_of_isLeast_named hfirst

/-- Some argument is given where something is filled in. -/
theorem given_iff_of_places (hfew : args.positional.length ≤ params.length) (h : args.places params = .ok filled) :
    args.Given params i ↔ (filled.getD i none).isSome = true := by
  rw [Option.isSome_iff_exists]
  exact exists_congr fun source => (getD_of_places hfew h).symm

/-- A parameter takes the argument that is given for it. -/
theorem Gives.raw_eq (h : args.Gives params i source) {raw : Value} (hraw : args.given? source = some raw) (p : Param) :
    args.raw p source = raw ∧ args.supplied? p source = some raw := by
  cases h with
  | positional hlt => exact ⟨congrArg (fun v : Option Value => v.getD .nil) hraw, hraw⟩
  | keyword hgiven hfirst => exact ⟨congrArg (fun v : Option Value => v.getD .nil) hraw, hraw⟩

theorem isRequired_iff {p : Param} : p.isRequired = true ↔ p.default? = none :=
  Option.isNone_iff_eq_none

/-! ## Required parameters -/

/-- The first required parameter without an argument is missing. -/
theorem missing?_eq_some_iff (hfew : args.positional.length ≤ params.length) (h : args.places params = .ok filled)
    {r : Rejection} : missing? params filled = some r ↔ ∃ i, IsLeast (args.unfilled params) i ∧
      r = .missing (i + 1) !((filled.drop (i + 1)).any Option.isSome) := by
  have hlength := length_of_places h
  -- The test of the search holds at the unfilled places and nowhere else.
  have hat (i : Nat) (hlt : i < (params.zip filled).length) :
      ((params.zip filled)[i].2.isNone && (params.zip filled)[i].1.isRequired) = true ↔ i ∈ args.unfilled params := by
    obtain ⟨hp, hf⟩ := List.lt_length_left_of_zip hlt, List.lt_length_right_of_zip hlt
    have hgiven := given_iff_of_places (i := i) hfew h
    rw [List.getD_eq_getElem?_getD, List.getElem?_eq_getElem hf, Option.getD_some] at hgiven
    rw [List.getElem_zip, Bool.and_eq_true, isRequired_iff, Option.isNone_iff_eq_none, ← Option.not_isSome_iff_eq_none,
      ← hgiven]
    constructor
    · rintro ⟨hnot, hrequired⟩
      exact ⟨_, List.getElem?_eq_getElem hp, hrequired, hnot⟩
    · rintro ⟨p, hget, hrequired, hnot⟩
      rw [List.getElem?_eq_getElem hp] at hget
      obtain rfl := Option.some.inj hget
      exact ⟨hnot, hrequired⟩
  have hbound {i : Nat} (hi : i ∈ args.unfilled params) : i < (params.zip filled).length := by
    obtain ⟨p, hp, -⟩ := hi
    rw [List.length_zip, hlength, Nat.min_self]
    exact (List.getElem?_eq_some_iff.mp hp).1
  unfold missing?
  rw [Option.map_eq_some_iff]
  refine exists_congr fun i => and_congr ?_ eq_comm
  rw [List.findIdx?_eq_some_iff_getElem]
  constructor
  · rintro ⟨hlt, hi, hbefore⟩
    refine ⟨(hat i hlt).mp hi, fun j hj => Nat.le_of_not_lt fun hji => ?_⟩
    exact hbefore j hji ((hat j (Nat.lt_trans hji hlt)).mpr hj)
  · rintro ⟨hi, hleast⟩
    refine ⟨hbound hi, (hat i _).mpr hi, fun j hji hj => ?_⟩
    exact absurd (hleast ((hat j (Nat.lt_trans hji (hbound hi))).mp hj)) (Nat.not_le_of_lt hji)

theorem exists_isLeast_unfilled (h : (args.unfilled params).Nonempty) : ∃ i, IsLeast (args.unfilled params) i := by
  classical
  exact ⟨Nat.find h, Nat.find_spec h, fun _ hj => Nat.find_min' h hj⟩

/-- Nothing is missing exactly if an argument is given for every required parameter. -/
theorem missing?_eq_none_iff (hfew : args.positional.length ≤ params.length) (h : args.places params = .ok filled) :
    missing? params filled = none ↔ args.Complete params := by
  constructor
  · intro hnone i p hp hrequired
    by_contra hnot
    obtain ⟨j, hj⟩ := exists_isLeast_unfilled ⟨i, p, hp, hrequired, hnot⟩
    have hsome := (missing?_eq_some_iff hfew h).mpr ⟨j, hj, rfl⟩
    rw [hnone] at hsome
    cases hsome
  · intro hcomplete
    by_contra hnot
    obtain ⟨r, hr⟩ := Option.ne_none_iff_exists'.mp hnot
    obtain ⟨i, ⟨⟨p, hp, hrequired, hungiven⟩, -⟩, -⟩ := (missing?_eq_some_iff hfew h).mp hr
    exact hungiven (hcomplete i p hp hrequired)

/-! ## The source of every parameter -/

section Sources

variable {bound : List Source} {p : Param} {raw : Value}

theorem places_of_findSources (h : args.findSources params = .ok bound) :
    args.positional.length ≤ params.length ∧ ∃ filled, args.places params = .ok filled ∧
      missing? params filled = none ∧ bound = filled.map fun source => source.getD .default := by
  rcases Nat.lt_or_ge params.length args.positional.length with hmany | hfew
  · rw [findSources_of_many hmany] at h
    cases h
  · refine ⟨hfew, ?_⟩
    cases hplaces : args.places params with
    | error r =>
        rw [findSources_of_error hfew hplaces] at h
        cases h
    | ok filled =>
        cases hmissing : missing? params filled with
        | some r =>
            rw [findSources_of_missing hfew hplaces hmissing] at h
            cases h
        | none =>
            rw [findSources_of_places hfew hplaces hmissing] at h
            exact ⟨filled, rfl, hmissing, (Except.ok.inj h).symm⟩

/-- There is a source for every parameter exactly if each argument has a parameter of its own and no required parameter
is left over. -/
theorem exists_findSources_iff :
    (∃ bound, args.findSources params = .ok bound) ↔ args.OneEach params ∧ args.Complete params := by
  constructor
  · rintro ⟨bound, h⟩
    obtain ⟨hfew, filled, hplaces, hnone, -⟩ := places_of_findSources h
    exact ⟨(exists_places_iff hfew).mp ⟨filled, hplaces⟩, (missing?_eq_none_iff hfew hplaces).mp hnone⟩
  · rintro ⟨hone, hcomplete⟩
    obtain ⟨filled, hplaces⟩ := (exists_places_iff hone.few).mpr hone
    exact ⟨_, findSources_of_places hone.few hplaces ((missing?_eq_none_iff hone.few hplaces).mpr hcomplete)⟩

/-- The source of a parameter is the argument that is given for it, or its default if none is given. -/
theorem getElem?_of_findSources (h : args.findSources params = .ok bound) :
    bound[i]? = some source ↔
      i < params.length ∧ (args.Gives params i source ∨ source = .default ∧ ¬args.Given params i) := by
  obtain ⟨hfew, filled, hplaces, -, rfl⟩ := places_of_findSources h
  have hgives (s : Source) : filled.getD i none = some s ↔ args.Gives params i s := getD_of_places hfew hplaces
  have hgiven := given_iff_of_places (i := i) hfew hplaces
  rw [List.getD_eq_getElem?_getD] at hgiven
  simp only [List.getD_eq_getElem?_getD] at hgives
  rw [List.getElem?_map, ← length_of_places hplaces]
  rcases Nat.lt_or_ge i filled.length with hlt | hge
  · rw [List.getElem?_eq_getElem hlt, Option.getD_some] at hgives hgiven
    rw [List.getElem?_eq_getElem hlt, Option.map_some, Option.some.injEq, hgiven, ← hgives source]
    cases filled[i] with
    | none => simp [hlt, eq_comm]
    | some s => simp [hlt]
  · rw [List.getElem?_eq_none hge]
    simp [Nat.not_lt_of_le hge]

/-- What is supplied to a parameter is the value that it takes. -/
theorem raw_eq_of_supplies (h : args.findSources params = .ok bound) (hsource : bound[i]? = some source)
    (hraw : args.Supplies params i p raw) : args.raw p source = raw := by
  have hone := (exists_findSources_iff.mp ⟨bound, h⟩).1
  obtain ⟨-, hsource⟩ := (getElem?_of_findSources h).mp hsource
  rcases hraw with ⟨s, hgives, hvalue⟩ | ⟨hnot, hdefault⟩
  · rcases hsource with hsame | ⟨-, hnone⟩
    · obtain rfl := hone.once i _ _ hgives hsame
      exact (hgives.raw_eq hvalue p).1
    · exact absurd ⟨s, hgives⟩ hnone
  · rcases hsource with hsame | ⟨rfl, -⟩
    · exact absurd ⟨source, hsame⟩ hnot
    · rw [CallArgs.raw, hdefault, Option.getD_some]

/-- The value that a parameter takes is supplied to it by its source. -/
theorem supplied?_eq (h : args.findSources params = .ok bound) (hp : params[i]? = some p)
    (hsource : bound[i]? = some source) :
    args.supplied? p source = some (args.raw p source) ∧ args.Supplies params i p (args.raw p source) := by
  have hcomplete := (exists_findSources_iff.mp ⟨bound, h⟩).2
  rcases ((getElem?_of_findSources h).mp hsource).2 with hgives | ⟨rfl, hnot⟩
  · obtain ⟨v, hv⟩ := hgives.exists_value
    obtain ⟨hraw, hsupplied⟩ := hgives.raw_eq hv p
    rw [hraw]
    exact ⟨hsupplied, Or.inl ⟨source, hgives, hv⟩⟩
  · obtain ⟨v, hv⟩ : ∃ v, p.default? = some v :=
      Option.ne_none_iff_exists'.mp fun hrequired => hnot (hcomplete i p hp hrequired)
    have hraw : args.raw p .default = v := by rw [CallArgs.raw, hv, Option.getD_some]
    rw [hraw]
    exact ⟨hv, Or.inr ⟨hnot, hv⟩⟩

end Sources

/-! ## Binding -/

theorem usesEachOnce_of_bind {b : Bound} (h : args.bind w params = .bound b) : args.UsesEachOnce w params b := by
  obtain ⟨hsources, htakes⟩ := forall₂_of_bind h
  have hone := (exists_findSources_iff.mp ⟨_, hsources⟩).1
  have hlength := length_of_findSources hsources
  -- A source is where its argument is given, and nowhere else.
  have hplace {i : Nat} {source : Source} (hgives : args.Gives params i source)
      (honly : ∀ j, args.Gives params j source → j = i) (j : Nat) : b.sources[j]? = some source ↔ j = i := by
    rw [getElem?_of_findSources hsources]
    constructor
    · rintro ⟨-, hj | ⟨hdefault, -⟩⟩
      · exact honly j hj
      · exact absurd hdefault hgives.ne_default
    · rintro rfl
      exact ⟨hgives.lt hone.few, Or.inl hgives⟩
  refine ⟨?_, hlength, fun i hi => ?_, fun k name v hgiven => ?_, fun i p hp hdefault => ?_, ?_⟩
  · rw [← htakes.length_eq, List.length_zip, hlength, Nat.min_self]
  · refine hplace (.positional hi) fun j hj => ?_
    cases hj
    rfl
  · obtain ⟨i, hi⟩ := exists_isLeast_named (hone.known _ (List.mem_of_getElem? hgiven))
    refine ⟨i, hi, hplace (.keyword hgiven hi) fun j hj => ?_⟩
    cases hj with
    | keyword hgiven' hj =>
        obtain ⟨rfl, -⟩ := Prod.mk.inj (Option.some.inj (hgiven.symm.trans hgiven'))
        exact hj.unique hi
  · obtain ⟨-, hgives | ⟨-, hnot⟩⟩ := (getElem?_of_findSources hsources).mp hdefault
    · exact absurd rfl hgives.ne_default
    · obtain ⟨hsupplied, -⟩ := supplied?_eq hsources hp hdefault
      exact ⟨Option.isSome_iff_exists.mpr ⟨_, hsupplied⟩, hnot⟩
  · intro i p source v hp hsource hv
    obtain ⟨u, hu, cost, hconv⟩ := exists_getElem?_of_forall₂ htakes (i := i) (x := (p, source))
      (List.getElem?_zip_eq_some.mpr ⟨hp, hsource⟩)
    obtain rfl := Option.some.inj (hv.symm.trans hu)
    exact ⟨_, cost, (supplied?_eq hsources hp hsource).1, hconv⟩

theorem exists_bind_iff : (∃ b, args.bind w params = .bound b) ↔
    args.OneEach params ∧ args.Complete params ∧ args.Convertible w params := by
  rw [← and_assoc, ← exists_findSources_iff]
  constructor
  · rintro ⟨b, hb⟩
    obtain ⟨hsources, htakes⟩ := forall₂_of_bind hb
    refine ⟨⟨_, hsources⟩, fun i p raw hp hraw => ?_⟩
    have hlt : i < b.sources.length := length_of_findSources hsources ▸ (List.getElem?_eq_some_iff.mp hp).1
    have hsource := List.getElem?_eq_getElem hlt
    obtain ⟨v, -, cost, hconv⟩ := exists_getElem?_of_forall₂ htakes (i := i) (x := (p, b.sources[i]))
      (List.getElem?_zip_eq_some.mpr ⟨hp, hsource⟩)
    rw [raw_eq_of_supplies hsources hsource hraw] at hconv
    exact ⟨_, hconv⟩
  · rintro ⟨⟨bound, hsources⟩, hconvertible⟩
    unfold CallArgs.bind
    rw [hsources]
    refine (exists_convertAll_or_failsAt w args 1 (params.zip bound)).resolve_right ?_
    rintro ⟨i, p, refusal, ⟨source, hbound, hrefused⟩, -⟩
    obtain ⟨hp, hsource⟩ := List.getElem?_zip_eq_some.mp hbound
    obtain ⟨converted, hconv⟩ := hconvertible i p _ hp (supplied?_eq hsources hp hsource).2
    rw [hconv] at hrefused
    cases hrefused

theorem bind_of_unfilled (hone : args.OneEach params) (hi : IsLeast (args.unfilled params) i) :
    ∃ following, args.bind w params = .rejected (.missing (i + 1) following) ∧
      (following = true ↔ ∀ j, i < j → ¬args.Given params j) := by
  obtain ⟨filled, hplaces⟩ := (exists_places_iff hone.few).mpr hone
  have hmissing := (missing?_eq_some_iff hone.few hplaces).mpr ⟨i, hi, rfl⟩
  have hgiven (j : Nat) := given_iff_of_places (i := j) hone.few hplaces
  simp only [List.getD_eq_getElem?_getD] at hgiven
  refine ⟨!((filled.drop (i + 1)).any Option.isSome), ?_, ?_⟩
  · rw [CallArgs.bind, findSources_of_missing hone.few hplaces hmissing]
  · rw [Bool.not_eq_true', List.any_eq_false]
    constructor
    · intro hnone j hij hj
      rw [hgiven] at hj
      rcases Nat.lt_or_ge j filled.length with hlt | hge
      · rw [List.getElem?_eq_getElem hlt, Option.getD_some] at hj
        refine hnone _ (List.mem_of_getElem? (i := j - (i + 1)) ?_) hj
        rw [List.getElem?_drop, Nat.add_sub_cancel' hij, List.getElem?_eq_getElem hlt]
      · rw [List.getElem?_eq_none hge] at hj
        cases hj
    · intro hnone source hsource hsome
      obtain ⟨k, hk⟩ := List.getElem?_of_mem hsource
      rw [List.getElem?_drop] at hk
      refine hnone (i + 1 + k) (by omega) ((hgiven _).mpr ?_)
      rwa [hk]

/-- Arguments are bound to parameters exactly if there are no more positional ones than parameters, every keyword names a
parameter, no parameter is given twice, an argument is given for every required one, and all values convert.  Then every
argument is the source of one parameter, and every parameter takes its converted source.  If only required parameters
are left over, the first one of them is named, and whether an argument is given for any behind it. -/
theorem binds_each_argument_once (w : World) (args : CallArgs) (params : List Param) :
    (∀ b, args.bind w params = .bound b → args.UsesEachOnce w params b) ∧
      ((∃ b, args.bind w params = .bound b) ↔
        args.OneEach params ∧ args.Complete params ∧ args.Convertible w params) ∧
      (args.OneEach params → ∀ i, IsLeast (args.unfilled params) i →
        ∃ following, args.bind w params = .rejected (.missing (i + 1) following) ∧
          (following = true ↔ ∀ j, i < j → ¬args.Given params j) ∧
          (Rejection.missing (i + 1) following).reason =
            "no value given for argument #" ++ Text.naturalText (i + 1) ++
              if following then " and following" else "") := by
  refine ⟨fun b hb => usesEachOnce_of_bind hb, exists_bind_iff, fun hone i hi => ?_⟩
  obtain ⟨following, hrejected, hfollowing⟩ := bind_of_unfilled (w := w) hone hi
  exact ⟨following, hrejected, hfollowing, rfl⟩

/-- Three flags, the second of which is set unless it is given. -/
def threeFlags : List Param :=
  [⟨"first", .bool, .value, none⟩, ⟨"second", .bool, .value, some (.bool true)⟩, ⟨"third", .bool, .value, none⟩]

/-- The first flag by position, the third by its keyword, and the second from its default. -/
theorem binds_around_default :
    ∃ b, CallArgs.bind {} ⟨[.bool true], [("third", .bool false)]⟩ threeFlags = .bound b ∧
      b.sources = [.positional 0, .default, .keyword 0] ∧
      UsesEachOnce {} ⟨[.bool true], [("third", .bool false)]⟩ threeFlags b :=
  ⟨_, rfl, rfl, (binds_each_argument_once {} _ threeFlags).1 _ rfl⟩

end ObjectBridge.CallArgs
