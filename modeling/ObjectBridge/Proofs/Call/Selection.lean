import Mathlib.Data.List.Basic
import Mathlib.Order.Bounds.Basic
import ObjectBridge.Call.Selection

/-!
# What selection selects

`Selection.select` runs through the candidates once.  Here its answer is told by what becomes of binding the
arguments to each candidate alone.

* `CallArgs.Fails` — the first parameter whose value does not become one of its type.
* `Selection.Selects` — the answer, by the outcomes of the candidates.
* `Selection.Tried` — what the search carries from one candidate to the next.
* `Selection.select_eq_iff` — the answer of selection is the one that `Selects` describes, and no other.
-/

namespace ObjectBridge

/-- The arguments fit a candidate's parameters but for a value. -/
def Rejection.ofValue : Rejection → Bool
  | .mismatch .. | .constObject .. => true
  | _ => false

/-- An outcome that leaves nothing to look for: an exact match, or an argument that is gone. -/
inductive Outcome.IsFinal : Outcome → Prop
  | exact {b : Bound} (hcost : b.cost = 0) : IsFinal (.bound b)
  | gone {cls : String} : IsFinal (.aborted cls)

namespace CallArgs

open Conversion

variable {w : World} {args : CallArgs} {bound : List (Param × Source)} {params : List Param} {p : Param}
  {refusal : Refusal} {i position : Nat}

/-- What becomes of a candidate when the value for a parameter is refused. -/
def refused (position : Nat) (p : Param) : Refusal → Outcome
  | .destroyed cls => .aborted cls
  | .constObject => .rejected (.constObject position p.name)
  | .mismatch expected actual =>
      .rejected (.mismatch position p.name expected actual p.type.isObject)

/-- The value for a parameter is refused, and those for the parameters before are not. -/
structure FailsAt (w : World) (args : CallArgs) (bound : List (Param × Source)) (i : Nat) (p : Param)
    (refusal : Refusal) : Prop where
  refused : ∃ source, bound[i]? = some (p, source) ∧
    convert w p.type p.passing (args.raw p source) = .error refusal
  before : ∀ e ∈ bound.take i, ∃ converted,
    convert w e.1.type e.1.passing (args.raw e.1 e.2) = .ok converted

/-- Every parameter has a source, and the one at a position, counted from one, is the first whose value is
refused. -/
def Fails (w : World) (args : CallArgs) (params : List Param) (position : Nat) (p : Param)
    (refusal : Refusal) : Prop :=
  ∃ sources i, args.findSources params = .ok sources ∧ position = i + 1 ∧
    FailsAt w args (params.zip sources) i p refusal

theorem convertAll_of_failsAt (h : FailsAt w args bound i p refusal) :
    convertAll w args position bound = refused (position + i) p refusal := by
  obtain ⟨⟨source, hsource, hrefused⟩, hbefore⟩ := h
  induction bound generalizing i position with
  | nil => cases hsource
  | cons e rest ih =>
      rw [convertAll]
      cases i with
      | zero =>
          obtain rfl := Option.some.inj hsource
          rw [hrefused]
          cases refusal <;> rfl
      | succ i =>
          obtain ⟨converted, hconv⟩ := hbefore e (by simp)
          rw [hconv]
          simp only
          rw [ih (fun e he => hbefore e (List.mem_cons_of_mem _ he)) hsource, Nat.add_assoc, Nat.add_comm 1]
          cases refusal <;> rfl

/-- Every value becomes one of its parameter's type, or there is a first one that is refused. -/
theorem exists_convertAll_or_failsAt (w : World) (args : CallArgs) (position : Nat)
    (bound : List (Param × Source)) :
    (∃ b, convertAll w args position bound = .bound b) ∨ ∃ i p refusal, FailsAt w args bound i p refusal := by
  induction bound generalizing position with
  | nil => exact Or.inl ⟨_, rfl⟩
  | cons e rest ih =>
      rcases hconv : convert w e.1.type e.1.passing (args.raw e.1 e.2) with refusal | converted
      · exact Or.inr ⟨0, e.1, refusal, ⟨e.2, rfl, hconv⟩, by simp⟩
      · rcases ih (position + 1) with ⟨b, hb⟩ | ⟨i, p, refusal, hrefused, hbefore⟩
        · refine Or.inl ⟨⟨converted.1 :: b.values, e.2 :: b.sources, converted.2 + b.cost⟩, ?_⟩
          rw [convertAll, hconv]
          simp only
          rw [hb]
        · refine Or.inr ⟨i + 1, p, refusal, hrefused, fun e' he' => ?_⟩
          rcases List.mem_cons.mp (List.take_succ_cons ▸ he') with rfl | he'
          · exact ⟨converted, hconv⟩
          · exact hbefore e' he'

theorem bind_of_fails (h : Fails w args params position p refusal) :
    args.bind w params = refused position p refusal := by
  obtain ⟨sources, i, hsources, rfl, hfails⟩ := h
  unfold CallArgs.bind
  rw [hsources]
  exact (convertAll_of_failsAt hfails).trans (by rw [Nat.add_comm])

theorem ofValue_of_placeKeywords {names : List String} {number : Nat} {sources : List (Option Source)}
    {r : Rejection} (h : placeKeywords params sources number names = .error r) : r.ofValue = false := by
  induction names generalizing sources number with
  | nil => cases h
  | cons name rest ih =>
      rw [placeKeywords] at h
      split at h
      · cases h; rfl
      · split at h
        · cases h; rfl
        · cases h; rfl
        · exact ih h

theorem ofValue_of_missing? {sources : List (Option Source)} {r : Rejection}
    (h : missing? params sources = some r) : r.ofValue = false := by
  obtain ⟨i, -, rfl⟩ := Option.map_eq_some_iff.mp h
  rfl

/-- A parameter without a source is no matter of a value. -/
theorem ofValue_of_findSources {r : Rejection} (h : args.findSources params = .error r) :
    r.ofValue = false := by
  unfold findSources at h
  simp only at h
  split at h
  · cases h; rfl
  · rcases hplaced : placeKeywords params (positionalSources args.positional.length 0 params) 0
        (args.keywords.map Prod.fst) with r' | filled
    · rw [hplaced] at h
      cases h
      exact ofValue_of_placeKeywords hplaced
    · rw [hplaced] at h
      cases hmissing : missing? params filled with
      | none => simp only [Bind.bind, Except.bind, hmissing] at h; cases h
      | some r' =>
          simp only [Bind.bind, Except.bind, hmissing] at h
          cases h
          exact ofValue_of_missing? hmissing

/-- A candidate that is rejected because of a value has a first parameter whose value is refused. -/
theorem exists_fails_of_bind {r : Rejection} (h : args.bind w params = .rejected r) (hvalue : r.ofValue = true) :
    ∃ position p refusal, Fails w args params position p refusal ∧
      refused position p refusal = .rejected r := by
  unfold CallArgs.bind at h
  split at h
  · rename_i r' hsources
    cases h
    rw [ofValue_of_findSources hsources] at hvalue
    cases hvalue
  · rename_i sources hsources
    rcases exists_convertAll_or_failsAt w args 1 (params.zip sources) with ⟨b, hb⟩ | ⟨i, p, refusal, hfails⟩
    · rw [hb] at h
      cases h
    · refine ⟨i + 1, p, refusal, ⟨sources, i, hsources, rfl, hfails⟩, ?_⟩
      rw [← h, convertAll_of_failsAt hfails, Nat.add_comm]

end CallArgs

namespace Selection

/-- The outcomes of binding arguments to each candidate alone. -/
def outcomes (w : World) (args : CallArgs) (signatures : List Signature) : List Outcome :=
  signatures.map fun sig => args.bind w sig.params

/-- The positions of the final outcomes. -/
def finals (w : World) (args : CallArgs) (signatures : List Signature) : Set Nat :=
  { i | ∃ o, (outcomes w args signatures)[i]? = some o ∧ o.IsFinal }

/-- The positions of the candidates that take the arguments. -/
def fitting (w : World) (args : CallArgs) (signatures : List Signature) : Set Nat :=
  { i | ∃ b, (outcomes w args signatures)[i]? = some (.bound b) }

/-- How a candidate that was rejected is listed. -/
def candidate (w : World) (method : String) (sig : Signature) (r : Rejection) : Candidate :=
  ⟨sig.render w.cells method, r.reason⟩

/-- The answer for candidates, by the outcome of each of them alone. -/
inductive Selects (w : World) (owner method : String) (signatures : List Signature) (args : CallArgs) :
    Except Error Binding → Prop
  /-- The first final outcome is an exact match. -/
  | exact {k : Nat} {b : Bound} (hleast : IsLeast (finals w args signatures) k)
      (hbound : (outcomes w args signatures)[k]? = some (.bound b)) :
      Selects w owner method signatures args (.ok ⟨k, b.values, b.sources⟩)
  /-- The first final outcome is that an argument is gone. -/
  | gone {k : Nat} {cls : String} (hleast : IsLeast (finals w args signatures) k)
      (hgone : (outcomes w args signatures)[k]? = some (.aborted cls)) :
      Selects w owner method signatures args (.error (.useAfterFree cls method))
  /-- No outcome is final, and there is a first match. -/
  | converted {k : Nat} {b : Bound} (hfinal : finals w args signatures = ∅)
      (hleast : IsLeast (fitting w args signatures) k)
      (hbound : (outcomes w args signatures)[k]? = some (.bound b)) :
      Selects w owner method signatures args (.ok ⟨k, b.values, b.sources⟩)
  /-- The only candidate has a first parameter that does not take its value, because of the type. -/
  | mismatch {sig : Signature} {position : Nat} {p : Param} {expected actual : String}
      (honly : signatures = [sig]) (hfails : args.Fails w sig.params position p (.mismatch expected actual)) :
      Selects w owner method signatures args (.error (if p.type.isObject
        then .typeMismatch expected actual position owner method
        else .conversion expected actual position owner method))
  /-- The only candidate has a first parameter that does not take its value, because it is const. -/
  | constObject {sig : Signature} {position : Nat} {p : Param} (honly : signatures = [sig])
      (hfails : args.Fails w sig.params position p .constObject) :
      Selects w owner method signatures args (.error (.constViolation owner method))
  /-- Every candidate is rejected, and it is not just one that is rejected because of a value. -/
  | listed {rejections : List Rejection} (hrejected : outcomes w args signatures = rejections.map .rejected)
      (hvalue : ∀ r, rejections = [r] → r.ofValue = false) :
      Selects w owner method signatures args
        (.error (.overloadResolution owner method (List.zipWith (candidate w method) signatures rejections)))

/-- What is known after some candidates that did not end the search: the first match among them, and if there is
none, all of their rejections. -/
structure Tried (w : World) (args : CallArgs) (tried : List Signature) (first? : Option Binding)
    (rejected : List (Nat × Rejection)) : Prop where
  notFinal : finals w args tried = ∅
  first : ∀ first, first? = some first → ∃ k b, first = ⟨k, b.values, b.sources⟩ ∧
    IsLeast (fitting w args tried) k ∧ (outcomes w args tried)[k]? = some (.bound b)
  rejections : first? = none → ∃ rs, outcomes w args tried = rs.map .rejected ∧
    rejected = (List.range' 0 rs.length).zip rs

variable {w : World} {owner method : String} {signatures : List Signature} {args : CallArgs}
  {tried rest : List Signature} {sig : Signature} {first? : Option Binding} {rejected : List (Nat × Rejection)}
  {r : Rejection} {b : Bound} {rs : List Rejection} {i k : Nat} {o : Outcome}

/-! ## Outcomes -/

@[simp] theorem length_outcomes (w : World) (args : CallArgs) (signatures : List Signature) :
    (outcomes w args signatures).length = signatures.length :=
  List.length_map ..

/-- A candidate among those that were tried has the same outcome among all. -/
theorem getElem?_outcomes_of_lt (hi : i < tried.length) :
    (outcomes w args (tried ++ rest))[i]? = (outcomes w args tried)[i]? := by
  rw [outcomes, List.map_append, List.getElem?_append_left (by simpa using hi), outcomes]

/-- The next candidate's outcome stands behind those of the candidates that were tried. -/
theorem getElem?_outcomes_length (w : World) (args : CallArgs) (tried rest : List Signature) (sig : Signature) :
    (outcomes w args (tried ++ sig :: rest))[tried.length]? = some (args.bind w sig.params) := by
  simp [outcomes]

theorem lt_of_getElem?_outcomes (h : (outcomes w args tried)[i]? = some o) : i < tried.length :=
  length_outcomes w args tried ▸ (List.getElem?_eq_some_iff.mp h).1

/-- Rejections are neither final nor matches. -/
theorem not_of_rejected (hrs : outcomes w args signatures = rs.map .rejected)
    (h : (outcomes w args signatures)[i]? = some o) : ∃ r, o = .rejected r := by
  rw [hrs, List.getElem?_map, Option.map_eq_some_iff] at h
  obtain ⟨r, -, hr⟩ := h
  exact ⟨r, hr.symm⟩

theorem fitting_eq_empty (hrs : outcomes w args signatures = rs.map .rejected) :
    fitting w args signatures = ∅ := by
  rw [Set.eq_empty_iff_forall_notMem]
  rintro i ⟨b, hb⟩
  obtain ⟨r, hr⟩ := not_of_rejected hrs hb
  cases hr

theorem finals_eq_empty (hrs : outcomes w args signatures = rs.map .rejected) :
    finals w args signatures = ∅ := by
  rw [Set.eq_empty_iff_forall_notMem]
  rintro i ⟨o, ho, hfinal⟩
  obtain ⟨r, rfl⟩ := not_of_rejected hrs ho
  cases hfinal

/-- A final outcome of the next candidate is the first one. -/
theorem isLeast_finals (hnot : finals w args tried = ∅) (hfinal : (args.bind w sig.params).IsFinal) :
    IsLeast (finals w args (tried ++ sig :: rest)) tried.length := by
  refine ⟨⟨_, getElem?_outcomes_length w args tried rest sig, hfinal⟩, fun i hi => ?_⟩
  obtain ⟨o, ho, hofinal⟩ := hi
  by_contra hlt
  rw [getElem?_outcomes_of_lt (Nat.lt_of_not_le hlt)] at ho
  exact Set.eq_empty_iff_forall_notMem.mp hnot i ⟨o, ho, hofinal⟩

theorem finals_concat (hnot : finals w args tried = ∅) (hsig : ¬(args.bind w sig.params).IsFinal) :
    finals w args (tried ++ [sig]) = ∅ := by
  rw [Set.eq_empty_iff_forall_notMem]
  rintro i ⟨o, ho, hfinal⟩
  have hi : i < tried.length + 1 := by simpa using lt_of_getElem?_outcomes ho
  rcases Nat.lt_succ_iff_lt_or_eq.mp hi with hlt | rfl
  · rw [getElem?_outcomes_of_lt hlt] at ho
    exact Set.eq_empty_iff_forall_notMem.mp hnot i ⟨o, ho, hfinal⟩
  · rw [getElem?_outcomes_length, Option.some.injEq] at ho
    exact hsig (ho ▸ hfinal)

/-- The first match stays the first one when more candidates are tried. -/
theorem isLeast_fitting_append (hleast : IsLeast (fitting w args tried) k) (rest : List Signature) :
    IsLeast (fitting w args (tried ++ rest)) k := by
  obtain ⟨⟨b, hb⟩, hlower⟩ := hleast
  have hk := lt_of_getElem?_outcomes hb
  refine ⟨⟨b, by rw [getElem?_outcomes_of_lt hk, hb]⟩, fun i hi => ?_⟩
  obtain ⟨b', hb'⟩ := hi
  by_contra hlt
  rw [getElem?_outcomes_of_lt (Nat.lt_trans (Nat.lt_of_not_le hlt) hk)] at hb'
  exact hlt (hlower ⟨b', hb'⟩)

/-- A match of the next candidate is the first one if there is none before. -/
theorem isLeast_fitting (hnone : fitting w args tried = ∅) (hsig : args.bind w sig.params = .bound b) :
    IsLeast (fitting w args (tried ++ sig :: rest)) tried.length := by
  refine ⟨⟨b, by rw [getElem?_outcomes_length, hsig]⟩, fun i hi => ?_⟩
  obtain ⟨b', hb'⟩ := hi
  by_contra hlt
  rw [getElem?_outcomes_of_lt (Nat.lt_of_not_le hlt)] at hb'
  exact Set.eq_empty_iff_forall_notMem.mp hnone i ⟨b', hb'⟩

/-! ## Failures -/

/-- Rejections by their positions are listed next to the signatures at these positions. -/
theorem filterMap_zip_range' {α β γ : Type} (f : α → β → γ) (before xs : List α) (ys : List β)
    (hlength : xs.length = ys.length) :
    ((List.range' before.length ys.length).zip ys).filterMap
      (fun e => ((before ++ xs)[e.1]?).map fun x => f x e.2) = List.zipWith f xs ys := by
  induction ys generalizing before xs with
  | nil => simp
  | cons y ys ih =>
      obtain ⟨x, xs, rfl⟩ := List.exists_cons_of_length_eq_add_one hlength
      have hrest := ih (before ++ [x]) xs (Nat.succ.inj hlength)
      rw [List.append_assoc, List.singleton_append, List.length_append, List.length_singleton] at hrest
      rw [List.length_cons, List.range'_succ, List.zip_cons_cons, List.filterMap_cons_some (b := f x y) (by simp),
        hrest, List.zipWith_cons_cons]

theorem listing_eq (hlength : signatures.length = rs.length) :
    listing w owner method signatures ((List.range' 0 rs.length).zip rs) =
      .overloadResolution owner method (List.zipWith (candidate w method) signatures rs) :=
  congrArg (Error.overloadResolution owner method)
    (filterMap_zip_range' (candidate w method) [] signatures rs hlength)

/-- What a single candidate's rejection is reported as. -/
theorem failure_of_single (sig : Signature) (r : Rejection) :
    failure w owner method [sig] [(0, r)] =
      match r with
      | .mismatch position _ expected actual object =>
          if object then .typeMismatch expected actual position owner method
          else .conversion expected actual position owner method
      | .constObject _ _ => .constViolation owner method
      | r => .overloadResolution owner method [candidate w method sig r] := by
  cases r with
  | mismatch position name expected actual object => cases object <;> rfl
  | _ => rfl

theorem length_of_rejected (hrs : outcomes w args signatures = rs.map .rejected) :
    signatures.length = rs.length := by
  rw [← length_outcomes w args signatures, hrs, List.length_map]

/-- When every candidate is rejected, the answer is the error made of the rejections. -/
theorem selects_failure (hrs : outcomes w args signatures = rs.map .rejected) :
    Selects w owner method signatures args
      (.error (failure w owner method signatures ((List.range' 0 rs.length).zip rs))) := by
  have hlength := length_of_rejected hrs
  by_cases hsingle : signatures.length = 1
  · obtain ⟨sig, rfl⟩ := List.length_eq_one_iff.mp hsingle
    obtain ⟨r, rfl⟩ := List.length_eq_one_iff.mp (hlength ▸ hsingle)
    have hsig : args.bind w sig.params = .rejected r := (List.cons.inj hrs).1
    have hlisted (hvalue : r.ofValue = false) : Selects w owner method [sig] args
        (.error (.overloadResolution owner method [candidate w method sig r])) :=
      .listed hrs fun r' hr' => (List.singleton_inj.mp hr') ▸ hvalue
    change Selects w owner method [sig] args (.error (failure w owner method [sig] [(0, r)]))
    rw [failure_of_single]
    cases r with
    | mismatch position name expected actual object =>
        obtain ⟨_, p, refusal, hfails, hrefused⟩ := CallArgs.exists_fails_of_bind hsig rfl
        cases refusal <;> cases hrefused
        exact .mismatch rfl hfails
    | constObject position name =>
        obtain ⟨_, p, refusal, hfails, hrefused⟩ := CallArgs.exists_fails_of_bind hsig rfl
        cases refusal <;> cases hrefused
        exact .constObject rfl hfails
    | _ => exact hlisted rfl
  · unfold failure
    rw [if_neg hsingle, listing_eq hlength]
    refine .listed hrs fun r hr => absurd ?_ hsingle
    rw [hlength, hr, List.length_singleton]

/-! ## The search -/

theorem Tried.nil : Tried w args [] none [] where
  notFinal := Set.eq_empty_iff_forall_notMem.mpr fun i ⟨o, ho, _⟩ => by cases ho
  first _ hfirst := by cases hfirst
  rejections _ := ⟨[], rfl, rfl⟩

theorem Tried.first_concat (h : Tried w args tried first? rejected) (first : Binding)
    (hfirst : first? = some first) : ∃ k b, first = ⟨k, b.values, b.sources⟩ ∧
      IsLeast (fitting w args (tried ++ [sig])) k ∧
      (outcomes w args (tried ++ [sig]))[k]? = some (.bound b) := by
  obtain ⟨k, b, heq, hleast, hbound⟩ := h.first first hfirst
  refine ⟨k, b, heq, isLeast_fitting_append hleast [sig], ?_⟩
  rw [getElem?_outcomes_of_lt (lt_of_getElem?_outcomes hbound), hbound]

/-- A candidate that is rejected joins the rejections. -/
theorem Tried.of_rejected (h : Tried w args tried first? rejected)
    (hsig : args.bind w sig.params = .rejected r) :
    Tried w args (tried ++ [sig]) first? (rejected ++ [(tried.length, r)]) where
  notFinal := finals_concat h.notFinal (by rw [hsig]; rintro ⟨⟩)
  first := h.first_concat
  rejections hnone := by
    obtain ⟨rs, hrs, rfl⟩ := h.rejections hnone
    refine ⟨rs ++ [r], ?_, ?_⟩
    · rw [outcomes, List.map_append, List.map_append, ← hrs, List.map_singleton, hsig]
      rfl
    · rw [List.length_append, List.length_singleton, List.range'_concat,
        List.zip_append (List.length_range' ..), length_of_rejected hrs]
      simp

/-- A match that needs a conversion is kept if it is the first one. -/
theorem Tried.of_bound (h : Tried w args tried first? rejected) (hsig : args.bind w sig.params = .bound b)
    (hcost : b.cost ≠ 0) :
    Tried w args (tried ++ [sig]) (first?.or (some ⟨tried.length, b.values, b.sources⟩)) rejected where
  notFinal := finals_concat h.notFinal (by rw [hsig]; rintro ⟨hzero⟩; exact hcost hzero)
  first first hfirst := by
    cases first? with
    | some _ => exact h.first_concat first hfirst
    | none =>
        obtain ⟨rs, hrs, -⟩ := h.rejections rfl
        refine ⟨tried.length, b, (Option.some.inj hfirst).symm,
          isLeast_fitting (fitting_eq_empty hrs) hsig, ?_⟩
        rw [getElem?_outcomes_length, hsig]
  rejections hnone := by
    cases first? <;> cases hnone

/-- The rest of the search answers for all candidates, those that were tried before included. -/
theorem selects_search (htried : Tried w args tried first? rejected) :
    Selects w owner method (tried ++ rest) args
      (search w owner method (tried ++ rest) args tried.length first? rejected rest) := by
  induction rest generalizing tried first? rejected with
  | nil =>
      rw [List.append_nil]
      cases first? with
      | some first =>
          obtain ⟨k, b, rfl, hleast, hbound⟩ := htried.first first rfl
          exact .converted htried.notFinal hleast hbound
      | none =>
          obtain ⟨rs, hrs, rfl⟩ := htried.rejections rfl
          exact selects_failure hrs
  | cons sig rest ih =>
      have hnext := getElem?_outcomes_length w args tried rest sig
      -- The search goes on as the one for the candidates with `sig` among those that were tried.
      have hgo {first? : Option Binding} {rejected : List (Nat × Rejection)}
          (hmore : Tried w args (tried ++ [sig]) first? rejected) :
          Selects w owner method (tried ++ sig :: rest) args
            (search w owner method (tried ++ sig :: rest) args (tried.length + 1) first? rejected rest) := by
        simpa using ih hmore
      rw [search]
      split
      · rename_i cls hsig
        exact .gone (isLeast_finals htried.notFinal (hsig ▸ .gone)) (hsig ▸ hnext)
      · rename_i r hsig
        exact hgo (htried.of_rejected hsig)
      · rename_i b hsig
        simp only
        split
        · rename_i hcost
          exact .exact (isLeast_finals htried.notFinal (hsig ▸ .exact hcost)) (hsig ▸ hnext)
        · rename_i hcost
          exact hgo (htried.of_bound hsig hcost)

/-! ## Only one answer -/

/-- What a final outcome, or the first match, is answered with. -/
def answer? (method : String) (k : Nat) : Outcome → Option (Except Error Binding)
  | .bound b => some (.ok ⟨k, b.values, b.sources⟩)
  | .aborted cls => some (.error (.useAfterFree cls method))
  | .rejected _ => none

/-- The rejection of a single candidate by the first parameter whose value is refused. -/
theorem outcomes_of_fails {position : Nat} {p : Param} {refusal : Refusal}
    (hfails : args.Fails w sig.params position p refusal) :
    outcomes w args [sig] = [CallArgs.refused position p refusal] := by
  rw [outcomes, List.map_singleton, CallArgs.bind_of_fails hfails]

/-- An answer comes from the first final outcome, or from the first match, or from the rejections. -/
theorem Selects.cases {answer : Except Error Binding} (h : Selects w owner method signatures args answer) :
    (∃ k o, IsLeast (finals w args signatures) k ∧ (outcomes w args signatures)[k]? = some o ∧
      answer? method k o = some answer) ∨
    (finals w args signatures = ∅ ∧ ∃ k o, IsLeast (fitting w args signatures) k ∧
      (outcomes w args signatures)[k]? = some o ∧ answer? method k o = some answer) ∨
    ∃ rs : List Rejection, outcomes w args signatures = rs.map .rejected ∧
      answer = .error (failure w owner method signatures ((List.range' 0 rs.length).zip rs)) := by
  cases h with
  | exact hleast hbound => exact Or.inl ⟨_, _, hleast, hbound, rfl⟩
  | gone hleast hgone => exact Or.inl ⟨_, _, hleast, hgone, rfl⟩
  | converted hfinal hleast hbound => exact Or.inr (Or.inl ⟨hfinal, _, _, hleast, hbound, rfl⟩)
  | mismatch honly hfails =>
      rename_i sig position p expected actual
      subst honly
      refine Or.inr (Or.inr ⟨[_], outcomes_of_fails hfails, congrArg Except.error ?_⟩)
      exact (failure_of_single sig (.mismatch position p.name expected actual p.type.isObject)).symm
  | constObject honly hfails =>
      subst honly
      exact Or.inr (Or.inr ⟨[_], outcomes_of_fails hfails, rfl⟩)
  | listed hrejected hvalue =>
      rename_i rs
      refine Or.inr (Or.inr ⟨rs, hrejected, congrArg Except.error ?_⟩)
      have hlength := length_of_rejected hrejected
      -- A single candidate has a failure of its own, which is the listed one unless a value is at fault.
      by_cases hsingle : signatures.length = 1
      · obtain ⟨sig, rfl⟩ := List.length_eq_one_iff.mp hsingle
        obtain ⟨r, rfl⟩ := List.length_eq_one_iff.mp (hlength ▸ hsingle)
        have hnot := hvalue r rfl
        refine Eq.trans ?_ (failure_of_single sig r).symm
        cases r <;> first | rfl | cases hnot
      · rw [failure, if_neg hsingle, listing_eq hlength]

theorem Selects.unique {answer answer' : Except Error Binding}
    (h : Selects w owner method signatures args answer) (h' : Selects w owner method signatures args answer') :
    answer = answer' := by
  -- One position and its outcome give one answer.
  have hsame {s : Set Nat} {k k' : Nat} {o o' : Outcome} (hk : IsLeast s k) (hk' : IsLeast s k')
      (ho : (outcomes w args signatures)[k]? = some o) (ho' : (outcomes w args signatures)[k']? = some o')
      (hanswer : answer? method k o = some answer) (hanswer' : answer? method k' o' = some answer') :
      answer = answer' := by
    obtain rfl := hk.unique hk'
    obtain rfl := Option.some.inj (ho.symm.trans ho')
    exact Option.some.inj (hanswer.symm.trans hanswer')
  rcases h.cases with ⟨k, o, hk, ho, ha⟩ | ⟨hfinal, k, o, hk, ho, ha⟩ | ⟨rs, hrs, rfl⟩ <;>
    rcases h'.cases with ⟨k', o', hk', ho', ha'⟩ | ⟨hfinal', k', o', hk', ho', ha'⟩ | ⟨rs', hrs', rfl⟩
  · exact hsame hk hk' ho ho' ha ha'
  · exact absurd (hfinal' ▸ hk.1) (Set.notMem_empty k)
  · exact absurd (finals_eq_empty hrs' ▸ hk.1) (Set.notMem_empty k)
  · exact absurd (hfinal ▸ hk'.1) (Set.notMem_empty k')
  · exact hsame hk hk' ho ho' ha ha'
  · exact absurd (fitting_eq_empty hrs' ▸ hk.1) (Set.notMem_empty k)
  · exact absurd (finals_eq_empty hrs ▸ hk'.1) (Set.notMem_empty k')
  · exact absurd (fitting_eq_empty hrs ▸ hk'.1) (Set.notMem_empty k')
  · have hrejections : rs = rs' :=
      List.map_injective_iff.mpr (fun _ _ => Outcome.rejected.inj) (hrs.symm.trans hrs')
    rw [hrejections]

theorem selects_select (w : World) (owner method : String) (signatures : List Signature) (args : CallArgs) :
    Selects w owner method signatures args (select w owner method signatures args) :=
  selects_search Tried.nil

/-- A candidate that is selected takes the arguments. -/
theorem bind_of_select {binding : Binding} (h : select w owner method signatures args = .ok binding) :
    ∃ sig b, signatures[binding.index]? = some sig ∧ args.bind w sig.params = .bound b ∧
      binding.values = b.values ∧ binding.sources = b.sources := by
  have hfound {k : Nat} {b : Bound} (hbound : (outcomes w args signatures)[k]? = some (.bound b)) :
      ∃ sig b', signatures[k]? = some sig ∧ args.bind w sig.params = .bound b' ∧
        b.values = b'.values ∧ b.sources = b'.sources := by
    rw [outcomes, List.getElem?_map, Option.map_eq_some_iff] at hbound
    obtain ⟨sig, hsig, hb⟩ := hbound
    exact ⟨sig, b, hsig, hb, rfl, rfl⟩
  cases h ▸ selects_select w owner method signatures args with
  | exact _ hbound => exact hfound hbound
  | converted _ _ hbound => exact hfound hbound

/-- The answer of selection is the one that the outcomes of the candidates tell, and no other. -/
theorem select_eq_iff (w : World) (owner method : String) (signatures : List Signature) (args : CallArgs)
    (answer : Except Error Binding) :
    select w owner method signatures args = answer ↔ Selects w owner method signatures args answer :=
  ⟨fun h => h ▸ selects_select w owner method signatures args,
    fun h => (selects_select w owner method signatures args).unique h⟩

end Selection

end ObjectBridge
