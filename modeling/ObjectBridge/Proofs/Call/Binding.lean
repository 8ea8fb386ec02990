import Mathlib.Data.List.Forall2
import ObjectBridge.Proofs.Value.Conversion

/-!
# What parameters are bound to

Every parameter of the overload that is selected is bound to a converted value.

* `Selection.exists_of_pick` — the selected overload is one of the candidates, and the arguments are bound to its
  parameters.
* `CallArgs.Takes` and `Selection.forall₂_of_pick` — the values of the parameters.
* `Conversion.object_of_convert` — what an object parameter is bound to.
-/

namespace ObjectBridge

theorem exists_getElem?_of_forall₂ {α β : Type} {R : α → β → Prop} {xs : List α} {ys : List β}
    (h : List.Forall₂ R xs ys) {i : Nat} {x : α} (hx : xs[i]? = some x) : ∃ y, ys[i]? = some y ∧ R x y := by
  induction h generalizing i with
  | nil => cases hx
  | cons hone hrest ih =>
      cases i with
      | zero =>
          obtain rfl := Option.some.inj hx
          exact ⟨_, rfl, hone⟩
      | succ i => exact ih hx

theorem Ty.eq_object_of_isObject {type : Ty} (h : type.isObject = true) : ∃ cls, type = .object cls := by
  cases type with
  | object cls => exact ⟨cls, rfl⟩
  | _ => cases h

namespace Conversion

/-- A value is what some value becomes when it is converted for a parameter. -/
def Accepts (w : World) (p : Param) (v : Value) : Prop :=
  ∃ raw cost, convert w p.type p.passing raw = .ok (v, cost)

/-- What becomes an object is behind any boxes an object that is there, with a handle that is not const if the
object may be changed, or it is nil where nil may pass. -/
theorem object_of_convert {w : World} {cls : String} {passing : Passing} {raw v : Value} {cost : Nat}
    (hconv : convert w (.object cls) passing raw = .ok (v, cost)) :
    (passing.isNullable = true ∧ v = .nil) ∨
      ∃ h, v = .object h ∧ behind w.cells (w.cells.size + 1) raw = .object h ∧
        w.arena.isDestroyed h = false ∧ (passing.writesBack = true → w.isConst h = false) := by
  rw [convert] at hconv
  rcases throughBoxes_cases hconv with hnil | ⟨hnot, -⟩ | hobject
  · exact Or.inl hnil
  · cases hnot
  · split at hobject
    · rename_i h hbehind
      unfold toObject at hobject
      split at hobject
      · cases hobject
      · rename_i hthere
        split at hobject
        · cases hobject
        · split at hobject
          · split at hobject
            · cases hobject
            · rename_i hconst
              refine Or.inr ⟨h, (Prod.mk.inj (Except.ok.inj hobject)).1.symm, hbehind,
                Bool.eq_false_iff.mpr hthere, fun hback => ?_⟩
              rw [hback, Bool.true_and] at hconst
              exact Bool.eq_false_iff.mpr hconst
          · cases hobject
    · cases hobject

end Conversion

namespace CallArgs

open Conversion

/-! ## Sources -/

theorem length_positionalSources (given i : Nat) (params : List Param) :
    (positionalSources given i params).length = params.length := by
  induction params generalizing i with
  | nil => rfl
  | cons p rest ih => simp [positionalSources, ih]

theorem length_of_placeKeywords {params : List Param} {names : List String} {number : Nat}
    {sources filled : List (Option Source)}
    (h : placeKeywords params sources number names = .ok filled) : filled.length = sources.length := by
  induction names generalizing sources number with
  | nil => rw [← Except.ok.inj h]
  | cons name rest ih =>
      rw [placeKeywords] at h
      split at h
      · cases h
      · split at h
        · cases h
        · cases h
        · rw [ih h, List.length_set]

/-- There is a source for every parameter. -/
theorem length_of_findSources {args : CallArgs} {params : List Param} {sources : List Source}
    (h : args.findSources params = .ok sources) : sources.length = params.length := by
  unfold findSources at h
  simp only at h
  split at h
  · cases h
  · obtain ⟨filled, hfilled, hrest⟩ := bind_eq_ok_iff.mp h
    split at hrest
    · cases hrest
    · rw [← Except.ok.inj hrest, List.length_map, length_of_placeKeywords hfilled,
        length_positionalSources]

/-! ## Values -/

/-- A parameter takes what is given at its source, or else its default, as a value. -/
def Takes (w : World) (args : CallArgs) (bound : Param × Source) (v : Value) : Prop :=
  ∃ cost, convert w bound.1.type bound.1.passing (args.raw bound.1 bound.2) = .ok (v, cost)

theorem Takes.accepts {w : World} {args : CallArgs} {bound : Param × Source} {v : Value}
    (h : args.Takes w bound v) : Accepts w bound.1 v := by
  obtain ⟨cost, hconv⟩ := h
  exact ⟨_, cost, hconv⟩

/-- An object parameter takes the object that is given, which may be in a box. -/
theorem Takes.behind_eq {w : World} {args : CallArgs} {bound : Param × Source} {h : Handle}
    (htakes : args.Takes w bound (.object h)) (hobject : bound.1.type.isObject = true) :
    behind w.cells (w.cells.size + 1) (args.raw bound.1 bound.2) = .object h := by
  obtain ⟨cost, hconv⟩ := htakes
  obtain ⟨cls, htype⟩ := Ty.eq_object_of_isObject hobject
  rw [htype] at hconv
  rcases object_of_convert hconv with ⟨-, hnil⟩ | ⟨g, hg, hbehind, -⟩
  · cases hnil
  · rw [hbehind, hg]

theorem forall₂_of_convertAll {w : World} {args : CallArgs} {position : Nat}
    {bound : List (Param × Source)} {b : Bound} (h : args.convertAll w position bound = .bound b) :
    List.Forall₂ (args.Takes w) bound b.values ∧ b.sources = bound.map Prod.snd := by
  induction bound generalizing position b with
  | nil =>
      simp only [convertAll, Outcome.bound.injEq] at h
      rw [← h]
      exact ⟨.nil, rfl⟩
  | cons e rest ih =>
      obtain ⟨p, source⟩ := e
      rw [convertAll] at h
      split at h
      · cases h
      · cases h
      · cases h
      · rename_i u cost hconv
        split at h
        · rename_i b' hrest
          simp only [Outcome.bound.injEq] at h
          obtain ⟨hvalues, hsources⟩ := ih hrest
          rw [← h]
          exact ⟨.cons ⟨cost, hconv⟩ hvalues, by simp [hsources]⟩
        · rename_i hother
          exact absurd h (hother b)

/-- Every parameter has a source, and takes the value there. -/
theorem forall₂_of_bind {w : World} {args : CallArgs} {params : List Param} {b : Bound}
    (h : args.bind w params = .bound b) :
    args.findSources params = .ok b.sources ∧
      List.Forall₂ (args.Takes w) (params.zip b.sources) b.values := by
  unfold CallArgs.bind at h
  split at h
  · cases h
  · rename_i sources hsources
    obtain ⟨hvalues, hbound⟩ := forall₂_of_convertAll h
    rw [List.map_snd_zip (length_of_findSources hsources).le] at hbound
    rw [hbound]
    exact ⟨hsources, hvalues⟩

end CallArgs

namespace Selection

open Conversion

variable {w : World} {owner method : String} {overloads : List Overload} {args : CallArgs} {o : Overload}
  {binding : Binding}

/-- The overload that is picked is one of the candidates, and its parameters are bound to the arguments. -/
theorem exists_of_pick (h : pick w owner method overloads args = .ok (o, binding)) :
    o ∈ overloads ∧ ∃ b, args.bind w o.sig.params = .bound b ∧ binding.values = b.values ∧
      binding.sources = b.sources := by
  obtain ⟨selected, hsel, hpicked⟩ := bind_eq_ok_iff.mp h
  split at hpicked
  · rename_i o' hfound
    obtain ⟨rfl, rfl⟩ := Prod.mk.inj (Except.ok.inj hpicked)
    obtain ⟨sig, b, hsig, hb, hvalues, hsources⟩ := bind_of_select hsel
    rw [List.getElem?_map, hfound, Option.map_some, Option.some.injEq] at hsig
    exact ⟨List.mem_of_getElem? hfound, b, hsig ▸ hb, hvalues, hsources⟩
  · cases hpicked

/-- Every parameter of the overload that is picked has a source, and takes the value there. -/
theorem forall₂_of_pick (h : pick w owner method overloads args = .ok (o, binding)) :
    args.findSources o.sig.params = .ok binding.sources ∧
      List.Forall₂ (args.Takes w) (o.sig.params.zip binding.sources) binding.values := by
  obtain ⟨-, b, hb, hvalues, hsources⟩ := exists_of_pick h
  rw [hvalues, hsources]
  exact CallArgs.forall₂_of_bind hb

/-- Every parameter of the overload that is picked is bound to a value that was converted for it. -/
theorem accepts_of_pick (h : pick w owner method overloads args = .ok (o, binding)) :
    List.Forall₂ (Accepts w) o.sig.params binding.values := by
  obtain ⟨hsources, htakes⟩ := forall₂_of_pick h
  rw [← List.map_fst_zip (CallArgs.length_of_findSources hsources).ge, List.forall₂_map_left_iff]
  exact htakes.imp fun bound v hv => hv.accepts

end Selection

end ObjectBridge
