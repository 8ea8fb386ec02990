import ObjectBridge.Proofs.Call.Sources

/-!
# How arguments are spelled

What becomes of a call depends on the values that are given for the parameters, and not on how they are given.  So the
keywords may stand in any order, and where all names differ, an argument may be positional or a keyword.

* `Outcome.Agrees` — outcomes that are the same apart from where the values come from.
* `CallArgs.agrees_of_sameValues` — arguments that give the same values have outcomes that agree.
* `CallArgs.Spells` — arguments that give the values of an assignment.
* `Selection.Alike` — answers that are the same apart from the reasons for which keywords are refused.
* `Selection.spelling_does_not_matter` — keywords in any order, and arguments by position or by keyword.
-/

namespace ObjectBridge

/-- A keyword names no parameter, or one that is given already. -/
def Rejection.ofKeyword : Rejection → Bool
  | .unknownKeyword _ | .givenTwice .. | .repeatedKeyword _ => true
  | _ => false

namespace Outcome

/-- Outcomes with the same values and the same number of conversions, or with the same failure. -/
inductive Agrees : Outcome → Outcome → Prop
  | bound (values : List Value) (cost : Nat) (sources sources' : List Source) :
      Agrees (.bound ⟨values, sources, cost⟩) (.bound ⟨values, sources', cost⟩)
  | rejected (r : Rejection) : Agrees (.rejected r) (.rejected r)
  | aborted (cls : String) : Agrees (.aborted cls) (.aborted cls)

/-- Outcomes that agree, or that are rejected for some keyword. -/
inductive Similar : Outcome → Outcome → Prop
  | agrees {o o' : Outcome} (h : o.Agrees o') : Similar o o'
  | keyword {r r' : Rejection} (h : r.ofKeyword = true) (h' : r'.ofKeyword = true) :
      Similar (.rejected r) (.rejected r')

theorem Agrees.symm {o o' : Outcome} (h : o.Agrees o') : o'.Agrees o := by
  cases h with
  | bound values cost sources sources' => exact .bound values cost sources' sources
  | rejected r => exact .rejected r
  | aborted cls => exact .aborted cls

theorem Similar.symm {o o' : Outcome} (h : o.Similar o') : o'.Similar o := by
  cases h with
  | agrees h => exact .agrees h.symm
  | keyword h h' => exact .keyword h' h

theorem Similar.isFinal {o o' : Outcome} (h : o.Similar o') (hfinal : o.IsFinal) : o'.IsFinal := by
  cases h with
  | keyword => cases hfinal
  | agrees h =>
      cases h with
      | bound =>
          cases hfinal with
          | exact hcost => exact .exact hcost
      | rejected r => exact hfinal
      | aborted cls => exact hfinal

end Outcome

namespace CallArgs

open Conversion

variable {args args' : CallArgs} {params : List Param} {w : World} {i : Nat} {raw : Value}

/-! ## Values that are given -/

/-- A value is given by position or by keyword. -/
theorem givesValue_iff : args.GivesValue params i raw ↔ args.positional[i]? = some raw ∨
    ∃ name, (name, raw) ∈ args.keywords ∧ IsLeast (named params name) i := by
  constructor
  · rintro ⟨_, hlt | ⟨hgiven, hfirst⟩, hraw⟩
    · exact Or.inl hraw
    · rename_i k name v
      rw [given?, hgiven, Option.map_some, Option.some.injEq] at hraw
      subst hraw
      exact Or.inr ⟨name, List.mem_of_getElem? hgiven, hfirst⟩
  · rintro (hpositional | ⟨name, hmem, hfirst⟩)
    · exact ⟨_, .positional (List.getElem?_eq_some_iff.mp hpositional).1, hpositional⟩
    · obtain ⟨k, hk⟩ := List.getElem?_of_mem hmem
      exact ⟨_, .keyword hk hfirst, by rw [given?, hk]; rfl⟩

theorem given_iff_exists_value : args.Given params i ↔ ∃ raw, args.GivesValue params i raw := by
  constructor
  · rintro ⟨source, hgives⟩
    obtain ⟨raw, hraw⟩ := hgives.exists_value
    exact ⟨raw, source, hgives, hraw⟩
  · rintro ⟨raw, source, hgives, -⟩
    exact ⟨source, hgives⟩

/-- The same values are given for the parameters. -/
def SameValues (args args' : CallArgs) (params : List Param) : Prop :=
  ∀ i raw, args.GivesValue params i raw ↔ args'.GivesValue params i raw

theorem SameValues.given_iff (h : args.SameValues args' params) (i : Nat) :
    args.Given params i ↔ args'.Given params i := by
  rw [given_iff_exists_value, given_iff_exists_value]
  exact exists_congr (h i)

theorem SameValues.unfilled_eq (h : args.SameValues args' params) : args'.unfilled params = args.unfilled params := by
  simp only [unfilled, h.given_iff]

theorem SameValues.supplies_iff (h : args.SameValues args' params) (p : Param) :
    args.Supplies params i p raw ↔ args'.Supplies params i p raw := by
  rw [Supplies, Supplies, h i raw, h.given_iff]

/-- Conversion depends on the values alone. -/
theorem agrees_convertAll {bound bound' : List (Param × Source)} (position : Nat)
    (h : List.Forall₂ (fun e e' => e'.1 = e.1 ∧ args'.raw e'.1 e'.2 = args.raw e.1 e.2) bound bound') :
    (args.convertAll w position bound).Agrees (args'.convertAll w position bound') := by
  induction h generalizing position with
  | nil => exact .bound [] 0 [] []
  | @cons e e' bound bound' he _ ih =>
      obtain ⟨p, source⟩ := e
      obtain ⟨p', source'⟩ := e'
      obtain ⟨rfl, hraw⟩ : p' = p ∧ args'.raw p' source' = args.raw p source := he
      rw [convertAll, convertAll, hraw]
      cases convert w p'.type p'.passing (args.raw p' source) with
      | error refusal =>
          cases refusal with
          | destroyed cls => exact .aborted cls
          | constObject => exact .rejected _
          | mismatch expected actual => exact .rejected _
      | ok converted =>
          obtain ⟨v, cost⟩ := converted
          have hrest := ih (position + 1)
          dsimp only
          generalize args.convertAll w (position + 1) bound = o, args'.convertAll w (position + 1) bound' = o' at hrest ⊢
          cases hrest with
          | bound values cost' sources sources' => exact .bound _ _ _ _
          | rejected r => exact .rejected r
          | aborted cls => exact .aborted cls

/-- Arguments that give the same values have outcomes that agree. -/
theorem agrees_of_sameValues (hone : args.OneEach params) (hone' : args'.OneEach params)
    (hsame : args.SameValues args' params) : (args.bind w params).Agrees (args'.bind w params) := by
  rcases Set.eq_empty_or_nonempty (args.unfilled params) with hnone | hsome
  · -- Nothing is missing, so every parameter takes the same value.
    have hcomplete {given : CallArgs} (hunfilled : given.unfilled params = ∅) : given.Complete params := by
      intro j p hp hrequired
      by_contra hnot
      exact Set.eq_empty_iff_forall_notMem.mp hunfilled j ⟨p, hp, hrequired, hnot⟩
    obtain ⟨bound, hbound⟩ := exists_findSources_iff.mpr ⟨hone, hcomplete hnone⟩
    obtain ⟨bound', hbound'⟩ := exists_findSources_iff.mpr ⟨hone', hcomplete (hsame.unfilled_eq.trans hnone)⟩
    rw [CallArgs.bind, CallArgs.bind, hbound, hbound']
    have hlength := length_of_findSources hbound
    have hlength' := length_of_findSources hbound'
    refine agrees_convertAll 1 (List.forall₂_iff_get.mpr ⟨by simp [hlength, hlength'], fun j hj hj' => ?_⟩)
    rw [List.length_zip, hlength, Nat.min_self] at hj
    have hp := List.getElem?_eq_getElem hj
    have hs := List.getElem?_eq_getElem (hlength ▸ hj)
    have hs' := List.getElem?_eq_getElem (hlength' ▸ hj)
    obtain ⟨-, hsupplies⟩ := supplied?_eq hbound hp hs
    simp only [List.get_eq_getElem, List.getElem_zip, true_and]
    exact raw_eq_of_supplies hbound' hs' ((hsame.supplies_iff _).mp hsupplies)
  · obtain ⟨j, hj⟩ := exists_isLeast_unfilled hsome
    obtain ⟨following, hrejected, hfollowing⟩ := bind_of_unfilled (w := w) hone hj
    obtain ⟨following', hrejected', hfollowing'⟩ := bind_of_unfilled (w := w) hone' (hsame.unfilled_eq ▸ hj)
    simp only [← hsame.given_iff] at hfollowing'
    rw [hrejected, hrejected', Bool.eq_iff_iff.mpr (hfollowing.trans hfollowing'.symm)]
    exact .rejected _

/-! ## Keywords in any order -/

theorem ofKeyword_of_placeKeywords {names : List String} {number : Nat} {sources : List (Option Source)} {r : Rejection}
    (h : placeKeywords params sources number names = .error r) : r.ofKeyword = true := by
  induction names generalizing sources number with
  | nil => cases h
  | cons name rest ih =>
      rw [placeKeywords] at h
      split at h
      · cases h
        rfl
      · split at h
        · cases h
          rfl
        · cases h
          rfl
        · exact ih h

/-- If there are parameters for the positional arguments, and not each argument has one of its own, it is a keyword that
is refused. -/
theorem bind_of_not_oneEach (hfew : args.positional.length ≤ params.length) (hnot : ¬args.OneEach params) :
    ∃ r, args.bind w params = .rejected r ∧ r.ofKeyword = true := by
  cases hplaces : args.places params with
  | ok filled => exact absurd ((exists_places_iff hfew).mp ⟨filled, hplaces⟩) hnot
  | error r =>
      refine ⟨r, ?_, ofKeyword_of_placeKeywords hplaces⟩
      rw [CallArgs.bind, findSources_of_error hfew hplaces]

/-- The keywords stand in another order. -/
structure Reorders (args args' : CallArgs) : Prop where
  positional : args'.positional = args.positional
  keywords : args.keywords.Perm args'.keywords

theorem Reorders.oneEach_iff (h : args.Reorders args') : args.OneEach params ↔ args'.OneEach params := by
  have hnames := h.keywords.map Prod.fst
  rw [CallArgs.oneEach_iff, CallArgs.oneEach_iff, h.positional, hnames.nodup_iff]
  simp only [hnames.mem_iff]

theorem Reorders.sameValues (h : args.Reorders args') : args.SameValues args' params := by
  intro j raw
  rw [givesValue_iff, givesValue_iff, h.positional]
  simp only [h.keywords.mem_iff]

/-- The order of the keywords decides at most for which keyword a candidate is rejected. -/
theorem Reorders.similar (h : args.Reorders args') : (args.bind w params).Similar (args'.bind w params) := by
  rcases Nat.lt_or_ge params.length args.positional.length with hmany | hfew
  · have hmany' : params.length < args'.positional.length := h.positional ▸ hmany
    rw [CallArgs.bind, CallArgs.bind, findSources_of_many hmany, findSources_of_many hmany', h.positional]
    exact .agrees (.rejected _)
  · by_cases hone : args.OneEach params
    · exact .agrees (agrees_of_sameValues hone (h.oneEach_iff.mp hone) h.sameValues)
    · obtain ⟨r, hr, hkeyword⟩ := bind_of_not_oneEach (w := w) hfew hone
      obtain ⟨r', hr', hkeyword'⟩ := bind_of_not_oneEach (w := w) (h.positional ▸ hfew) (mt h.oneEach_iff.mpr hone)
      rw [hr, hr']
      exact .keyword hkeyword hkeyword'

/-! ## By position or by keyword -/

/-- Values for some of the parameters, each with the name of its parameter. -/
def spelled (params : List Param) (assigned : List (Option Value)) : List (String × Value) :=
  (params.zip assigned).filterMap fun e => e.2.map fun v => (e.1.name, v)

/-- Arguments that give each parameter the value that is assigned to it: the first parameters by position, and the others
by keywords in any order. -/
structure Spells (args : CallArgs) (params : List Param) (assigned : List (Option Value)) : Prop where
  length : assigned.length = params.length
  positional : assigned.take args.positional.length = args.positional.map some
  keywords : args.keywords.Perm
    (spelled (params.drop args.positional.length) (assigned.drop args.positional.length))

variable {assigned : List (Option Value)} {name : String}

theorem mem_spelled_iff : (name, raw) ∈ spelled params assigned ↔
    ∃ (j : Nat) (p : Param), params[j]? = some p ∧ assigned[j]? = some (some raw) ∧ p.name = name := by
  rw [spelled, List.mem_filterMap]
  constructor
  · rintro ⟨⟨p, v⟩, hmem, hv⟩
    obtain ⟨j, hj⟩ := List.getElem?_of_mem hmem
    obtain ⟨hp, hassigned⟩ := List.getElem?_zip_eq_some.mp hj
    obtain ⟨v, rfl, heq⟩ := Option.map_eq_some_iff.mp hv
    obtain ⟨rfl, rfl⟩ := Prod.mk.inj heq
    exact ⟨j, p, hp, hassigned, rfl⟩
  · rintro ⟨j, p, hp, hassigned, rfl⟩
    exact ⟨(p, some raw), List.mem_of_getElem? (List.getElem?_zip_eq_some.mpr ⟨hp, hassigned⟩), rfl⟩

theorem map_fst_spelled_sublist (params : List Param) (assigned : List (Option Value)) :
    ((spelled params assigned).map Prod.fst).Sublist (params.map Param.name) := by
  induction params generalizing assigned with
  | nil => exact List.Sublist.refl _
  | cons p rest ih =>
      cases assigned with
      | nil => exact List.nil_sublist _
      | cons v others =>
          cases v with
          | none => exact (ih others).cons _
          | some v => exact (ih others).cons_cons _

/-- Where all names differ, the parameter at a position is the only one with its name. -/
theorem isLeast_named_of_nodup (hnames : (params.map Param.name).Nodup) {j : Nat} {p : Param}
    (hp : params[j]? = some p) (hname : p.name = name) : IsLeast (named params name) j := by
  refine ⟨⟨p, hp, hname⟩, ?_⟩
  rintro k ⟨q, hq, hother⟩
  have hj : (params.map Param.name)[j]? = some name := by rw [List.getElem?_map, hp, ← hname]; rfl
  have hk : (params.map Param.name)[k]? = some name := by rw [List.getElem?_map, hq, ← hother]; rfl
  exact ((List.getElem?_inj (List.getElem?_eq_some_iff.mp hj).1 hnames).mp (hj.trans hk.symm)).le

namespace Spells

variable (h : args.Spells params assigned)

include h

theorem few : args.positional.length ≤ params.length := by
  have hlength := congrArg List.length h.positional
  rw [List.length_take, List.length_map] at hlength
  rw [← h.length]
  omega

theorem mem_keywords_iff : (name, raw) ∈ args.keywords ↔ ∃ (j : Nat) (p : Param), args.positional.length ≤ j ∧
    params[j]? = some p ∧ assigned[j]? = some (some raw) ∧ p.name = name := by
  rw [h.keywords.mem_iff, mem_spelled_iff]
  simp only [List.getElem?_drop]
  constructor
  · rintro ⟨j, p, hp, hassigned, hname⟩
    exact ⟨args.positional.length + j, p, Nat.le_add_right _ _, hp, hassigned, hname⟩
  · rintro ⟨j, p, hle, hp, hassigned, hname⟩
    refine ⟨j - args.positional.length, p, ?_, ?_, hname⟩
    · rwa [Nat.add_sub_cancel' hle]
    · rwa [Nat.add_sub_cancel' hle]

theorem oneEach (hnames : (params.map Param.name).Nodup) : args.OneEach params := by
  refine CallArgs.oneEach_iff.mpr ⟨h.few, ?_, fun name hname => ?_⟩
  · have hdrop : ((params.drop args.positional.length).map Param.name).Nodup := by
      rw [List.map_drop]
      exact hnames.sublist (List.drop_sublist _ _)
    exact (h.keywords.map Prod.fst).nodup_iff.mpr (hdrop.sublist (map_fst_spelled_sublist _ _))
  · obtain ⟨⟨_, raw⟩, hmem, rfl⟩ := List.mem_map.mp hname
    obtain ⟨j, p, hle, hp, -, hname⟩ := h.mem_keywords_iff.mp hmem
    exact ⟨j, isLeast_named_of_nodup hnames hp hname, hle⟩

/-- The values that are given are those that are assigned. -/
theorem givesValue_iff (hnames : (params.map Param.name).Nodup) :
    args.GivesValue params i raw ↔ assigned[i]? = some (some raw) := by
  have hpositional (hlt : i < args.positional.length) : assigned[i]? = args.positional[i]?.map some := by
    rw [← List.getElem?_map, ← h.positional, List.getElem?_take_of_lt hlt]
  rw [CallArgs.givesValue_iff]
  constructor
  · rintro (hgiven | ⟨name, hmem, hfirst⟩)
    · rw [hpositional (List.getElem?_eq_some_iff.mp hgiven).1, hgiven]
      rfl
    · obtain ⟨j, p, -, hp, hassigned, hname⟩ := h.mem_keywords_iff.mp hmem
      rwa [hfirst.unique (isLeast_named_of_nodup hnames hp hname)]
  · intro hassigned
    rcases Nat.lt_or_ge i args.positional.length with hlt | hge
    · rw [hpositional hlt, Option.map_eq_some_iff] at hassigned
      obtain ⟨v, hv, hsame⟩ := hassigned
      obtain rfl := Option.some.inj hsame
      exact Or.inl hv
    · have hlt : i < params.length := h.length ▸ (List.getElem?_eq_some_iff.mp hassigned).1
      have hp := List.getElem?_eq_getElem hlt
      exact Or.inr ⟨_, h.mem_keywords_iff.mpr ⟨i, _, hge, hp, hassigned, rfl⟩, isLeast_named_of_nodup hnames hp rfl⟩

end Spells

theorem agrees_of_spells (hnames : (params.map Param.name).Nodup) (h : args.Spells params assigned)
    (h' : args'.Spells params assigned) : (args.bind w params).Agrees (args'.bind w params) :=
  agrees_of_sameValues (h.oneEach hnames) (h'.oneEach hnames) fun _ _ =>
    (h.givesValue_iff hnames).trans (h'.givesValue_iff hnames).symm

end CallArgs

/-! ## Selection -/

namespace Selection

/-- A candidate is rejected for the same reason, or for some keyword both times. -/
def SameRejection (r r' : Rejection) : Prop :=
  r' = r ∨ (r.ofKeyword = true ∧ r'.ofKeyword = true)

/-- Answers to two calls with the same candidates: the same overload with the same values, the same error, or lists of the
same candidates, which are all rejected, with reasons that differ at most for candidates that are rejected for a
keyword. -/
inductive Alike (w : World) (owner method : String) (signatures : List Signature) (args args' : CallArgs) :
    Except Error Binding → Except Error Binding → Prop
  | selected (index : Nat) (values : List Value) (sources sources' : List Source) :
      Alike w owner method signatures args args' (.ok ⟨index, values, sources⟩) (.ok ⟨index, values, sources'⟩)
  | failed (e : Error) : Alike w owner method signatures args args' (.error e) (.error e)
  | listed {rs rs' : List Rejection} (hrejected : outcomes w args signatures = rs.map .rejected)
      (hrejected' : outcomes w args' signatures = rs'.map .rejected) (hsame : List.Forall₂ SameRejection rs rs') :
      Alike w owner method signatures args args'
        (.error (.overloadResolution owner method (List.zipWith (candidate w method) signatures rs)))
        (.error (.overloadResolution owner method (List.zipWith (candidate w method) signatures rs')))

variable {w : World} {owner method : String} {signatures : List Signature} {args args' : CallArgs}

/-- The outcomes of all candidates are similar. -/
def AllSimilar (w : World) (signatures : List Signature) (args args' : CallArgs) : Prop :=
  ∀ sig ∈ signatures, (args.bind w sig.params).Similar (args'.bind w sig.params)

theorem AllSimilar.symm (h : AllSimilar w signatures args args') : AllSimilar w signatures args' args :=
  fun sig hsig => (h sig hsig).symm

theorem AllSimilar.exists_outcome (h : AllSimilar w signatures args args') {k : Nat} {o : Outcome}
    (ho : (outcomes w args signatures)[k]? = some o) :
    ∃ o', (outcomes w args' signatures)[k]? = some o' ∧ o.Similar o' := by
  rw [outcomes, List.getElem?_map, Option.map_eq_some_iff] at ho
  obtain ⟨sig, hsig, rfl⟩ := ho
  refine ⟨args'.bind w sig.params, ?_, h sig (List.mem_of_getElem? hsig)⟩
  rw [outcomes, List.getElem?_map, hsig]
  rfl

theorem AllSimilar.finals_subset (h : AllSimilar w signatures args args') :
    finals w args signatures ⊆ finals w args' signatures := by
  rintro k ⟨o, ho, hfinal⟩
  obtain ⟨o', ho', hsimilar⟩ := h.exists_outcome ho
  exact ⟨o', ho', hsimilar.isFinal hfinal⟩

theorem AllSimilar.finals_eq (h : AllSimilar w signatures args args') :
    finals w args' signatures = finals w args signatures :=
  Set.Subset.antisymm h.symm.finals_subset h.finals_subset

theorem AllSimilar.fitting_subset (h : AllSimilar w signatures args args') :
    fitting w args signatures ⊆ fitting w args' signatures := by
  rintro k ⟨b, hb⟩
  obtain ⟨o', ho', hsimilar⟩ := h.exists_outcome hb
  cases hsimilar with
  | agrees hagrees =>
      cases hagrees with
      | bound values cost sources sources' => exact ⟨_, ho'⟩

theorem AllSimilar.fitting_eq (h : AllSimilar w signatures args args') :
    fitting w args' signatures = fitting w args signatures :=
  Set.Subset.antisymm h.symm.fitting_subset h.fitting_subset

/-- Similar outcomes at one position are answered alike. -/
theorem alike_of_answer? {k : Nat} {o o' : Outcome} {answer answer' : Except Error Binding} (hsimilar : o.Similar o')
    (h : answer? method k o = some answer) (h' : answer? method k o' = some answer') :
    Alike w owner method signatures args args' answer answer' := by
  cases hsimilar with
  | keyword => cases h
  | agrees hagrees =>
      cases hagrees with
      | rejected r => cases h
      | bound values cost sources sources' =>
          cases h
          cases h'
          exact .selected k values sources sources'
      | aborted cls =>
          cases h
          cases h'
          exact .failed _

/-- Where all candidates are rejected, they are rejected for the same reasons, apart from keywords. -/
theorem AllSimilar.sameRejections (h : AllSimilar w signatures args args') {rs rs' : List Rejection}
    (hrs : outcomes w args signatures = rs.map .rejected) (hrs' : outcomes w args' signatures = rs'.map .rejected) :
    List.Forall₂ SameRejection rs rs' := by
  have hall : List.Forall₂ Outcome.Similar (outcomes w args signatures) (outcomes w args' signatures) := by
    rw [outcomes, outcomes, List.forall₂_map_left_iff, List.forall₂_map_right_iff]
    exact List.forall₂_same.mpr h
  rw [hrs, hrs', List.forall₂_map_left_iff, List.forall₂_map_right_iff] at hall
  refine hall.imp fun r r' hsimilar => ?_
  cases hsimilar with
  | keyword h h' => exact Or.inr ⟨h, h'⟩
  | agrees hagrees =>
      cases hagrees with
      | rejected r => exact Or.inl rfl

/-- A keyword is no value. -/
theorem ofValue_of_ofKeyword {r : Rejection} (h : r.ofKeyword = true) : r.ofValue = false := by
  cases r with
  | mismatch | constObject => cases h
  | _ => rfl

/-- A list of candidates is the answer unless a single one is rejected because of a value. -/
theorem failure_eq {rs : List Rejection} (hlength : signatures.length = rs.length)
    (hvalue : ∀ r, rs = [r] → r.ofValue = false) :
    failure w owner method signatures ((List.range' 0 rs.length).zip rs) =
      .overloadResolution owner method (List.zipWith (candidate w method) signatures rs) := by
  by_cases hsingle : signatures.length = 1
  · obtain ⟨sig, rfl⟩ := List.length_eq_one_iff.mp hsingle
    obtain ⟨r, rfl⟩ := List.length_eq_one_iff.mp (hlength ▸ hsingle)
    have hnot := hvalue r rfl
    refine (failure_of_single sig r).trans ?_
    cases r with
    | mismatch | constObject => cases hnot
    | _ => rfl
  · rw [failure, if_neg hsingle, listing_eq hlength]

/-- Candidates whose outcomes are similar are answered alike. -/
theorem AllSimilar.alike (h : AllSimilar w signatures args args') : Alike w owner method signatures args args'
    (select w owner method signatures args) (select w owner method signatures args') := by
  have hselects := selects_select w owner method signatures args
  have hselects' := selects_select w owner method signatures args'
  generalize select w owner method signatures args = answer at hselects ⊢
  generalize select w owner method signatures args' = answer' at hselects' ⊢
  have hsame {s : Set Nat} {k k' : Nat} {o o' : Outcome} (hk : IsLeast s k) (hk' : IsLeast s k')
      (ho : (outcomes w args signatures)[k]? = some o) (ho' : (outcomes w args' signatures)[k']? = some o')
      (hanswer : answer? method k o = some answer) (hanswer' : answer? method k' o' = some answer') :
      Alike w owner method signatures args args' answer answer' := by
    obtain rfl := hk.unique hk'
    obtain ⟨o'', ho'', hsimilar⟩ := h.exists_outcome ho
    obtain rfl := Option.some.inj (ho''.symm.trans ho')
    exact alike_of_answer? hsimilar hanswer hanswer'
  have hfinals := h.finals_eq
  have hfitting := h.fitting_eq
  rcases hselects.cases with ⟨k, o, hk, ho, ha⟩ | ⟨hfinal, k, o, hk, ho, ha⟩ | ⟨rs, hrs, rfl⟩ <;>
    rcases hselects'.cases with ⟨k', o', hk', ho', ha'⟩ | ⟨hfinal', k', o', hk', ho', ha'⟩ | ⟨rs', hrs', rfl⟩
  · exact hsame hk (hfinals ▸ hk') ho ho' ha ha'
  · rw [← hfinals, hfinal'] at hk
    exact absurd hk.1 (Set.notMem_empty k)
  · rw [← hfinals, finals_eq_empty hrs'] at hk
    exact absurd hk.1 (Set.notMem_empty k)
  · rw [hfinals, hfinal] at hk'
    exact absurd hk'.1 (Set.notMem_empty k')
  · exact hsame hk (hfitting ▸ hk') ho ho' ha ha'
  · rw [← hfitting, fitting_eq_empty hrs'] at hk
    exact absurd hk.1 (Set.notMem_empty k)
  · rw [hfinals, finals_eq_empty hrs] at hk'
    exact absurd hk'.1 (Set.notMem_empty k')
  · rw [hfitting, fitting_eq_empty hrs] at hk'
    exact absurd hk'.1 (Set.notMem_empty k')
  · -- All candidates are rejected by both, and a single one by the same value or not by a value.
    have hsame := h.sameRejections hrs hrs'
    have hlength := length_of_rejected hrs
    have hlength' := length_of_rejected hrs'
    by_cases hvalue : ∃ r, rs = [r] ∧ r.ofValue = true
    · obtain ⟨r, rfl, hr⟩ := hvalue
      obtain ⟨r', rs', hone, hnil, rfl⟩ := List.forall₂_cons_left_iff.mp hsame
      obtain rfl := List.forall₂_nil_left_iff.mp hnil
      rcases hone with rfl | ⟨hkeyword, -⟩
      · exact .failed _
      · rw [ofValue_of_ofKeyword hkeyword] at hr
        cases hr
    · have hnot : ∀ r, rs = [r] → r.ofValue = false := fun r hr => by
        by_contra htrue
        exact hvalue ⟨r, hr, Bool.eq_true_of_not_eq_false htrue⟩
      have hnot' : ∀ r', rs' = [r'] → r'.ofValue = false := by
        rintro r' rfl
        obtain ⟨r, rest, hone, hnil, rfl⟩ := List.forall₂_cons_right_iff.mp hsame
        obtain rfl := List.forall₂_nil_right_iff.mp hnil
        rcases hone with rfl | ⟨-, hkeyword⟩
        · exact hnot r' rfl
        · exact ofValue_of_ofKeyword hkeyword
      rw [failure_eq hlength hnot, failure_eq hlength' hnot']
      exact .listed hrs hrs' hsame

/-- It does not matter how arguments are spelled.  With the keywords in another order, the same overload is selected with
the same values, or the answer is the same error, up to the reasons for which keywords are refused.  Where the names of
the parameters all differ, arguments that give the same values to the same parameters, whether by position or by keyword,
are bound to the same values with as many conversions, or fail in the same way. -/
theorem spelling_does_not_matter :
    (∀ (w : World) (owner method : String) (signatures : List Signature) (args args' : CallArgs),
      args'.positional = args.positional → args.keywords.Perm args'.keywords →
      Alike w owner method signatures args args' (select w owner method signatures args)
        (select w owner method signatures args')) ∧
      ∀ (w : World) (params : List Param) (assigned : List (Option Value)) (args args' : CallArgs),
        (params.map Param.name).Nodup → args.Spells params assigned → args'.Spells params assigned →
        (args.bind w params).Agrees (args'.bind w params) := by
  constructor
  · intro w owner method signatures args args' hpositional hkeywords
    have hreorders : args.Reorders args' := ⟨hpositional, hkeywords⟩
    exact AllSimilar.alike fun sig _ => hreorders.similar
  · exact fun w params assigned args args' hnames h h' => CallArgs.agrees_of_spells hnames h h'

/-- Two flags, which have to be given. -/
def twoFlags : List Param :=
  [⟨"first", .bool, .value, none⟩, ⟨"second", .bool, .value, none⟩]

/-- The first flag by position, or both flags by keywords in reverse order. -/
theorem two_flags_spelled_alike :
    (CallArgs.bind {} ⟨[.bool true], [("second", .bool false)]⟩ twoFlags).Agrees
      (CallArgs.bind {} ⟨[], [("second", .bool false), ("first", .bool true)]⟩ twoFlags) :=
  spelling_does_not_matter.2 {} twoFlags [some (.bool true), some (.bool false)] _ _ (by decide)
    ⟨rfl, rfl, List.Perm.refl _⟩ ⟨rfl, rfl, List.Perm.swap _ _ _⟩

end Selection

end ObjectBridge
