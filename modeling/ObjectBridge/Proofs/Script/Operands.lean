import ObjectBridge.Proofs.Call.Event
import ObjectBridge.Proofs.Script.Definition
import ObjectBridge.Script.Operands

/-!
# Operands and the handles that exist

Operands are evaluated one after the other, and the ones that are evaluated stay in use until all of them
are.  An object that an action works on stays in use for as long as the action lasts.

* `Interpreter.ConservesAll` — an interpreter whose evaluations and bodies conserve handles.
* `conserves_evalAll`, `conserves_evalOperands` and `conserves_arguments` — operands in order.
* `conserves_withObject` and `conserves_onHandlers` — actions on an object.
* `conserves_defineClass` and `conserves_defineSubclass` — classes.
-/

namespace ObjectBridge.Script.Interpreter

open Run

/-- Evaluations start with nothing in hand and end with their value, and so do bodies, without any. -/
structure ConservesAll (I : Interpreter) : Prop where
  eval : ∀ e s, Conserves (I.eval e) s [] fun v => [v]
  exec : Run.ConservesAll I.exec

variable {s : State} {I : Interpreter} (hI : I.ConservesAll)

theorem covers_orNil (h : Option Handle) {values : List Value} {cells : Cells}
    (hh : ∀ v ∈ (h.map Value.object).toList, cells.Covers values v) :
    cells.Covers values (orNil h) := by
  cases h with
  | none => exact Cells.covers_of_isPlain Value.isPlain_nil
  | some h => exact hh (.object h) (by simp)

theorem isPlain_count (n : Nat) : (count n).IsPlain :=
  Value.isPlain_uint _

/-- What named callables captured is in use. -/
theorem conserves_bind_resolveCallables {α : Type} {overrides : List (String × String)}
    {k : List (String × Callable) → Run α} {hand : List Value} {out : α → List Value}
    (hk : ∀ fs : List (String × Callable),
      (∀ v ∈ fs.flatMap fun entry => entry.2.values, v ∈ s.roots) → Conserves (k fs) s hand out) :
    Conserves (resolveCallables overrides >>= k) s hand out := by
  induction overrides generalizing k with
  | nil => exact conserves_bind_pure (hk [] (by simp))
  | cons entry rest ih =>
      obtain ⟨method, name⟩ := entry
      rw [resolveCallables, bind_assoc]
      refine conserves_bind_callable fun f hf => ?_
      rw [bind_assoc]
      refine ih fun fs hfs => conserves_bind_pure (hk _ ?_)
      intro v hv
      rw [List.flatMap_cons, List.mem_append] at hv
      rcases hv with hv | hv
      · exact hf v hv
      · exact hfs v hv

theorem conserves_defineSubclass (name base : String) (overrides : List (String × String)) :
    Conserves (defineSubclass name base overrides) s [] fun v => [v] := by
  refine conserves_bind_resolveCallables fun fs hfs => conserves_get (conserves_bind_ofExcept ?_)
  rintro ⟨id, classes⟩ hdefine
  have hset : Conserves (modify fun s => { s with classes := classes } : Run PUnit) s []
      fun _ => [] := by
    refine conserves_setClasses (ClassTable.allOverrides_subset_of_defineSubclass hdefine) ?_
    intro v hv
    rcases ClassTable.mem_heldValues_of_defineSubclass hdefine hv with hv | hv
    · exact State.covers_of_mem_roots (hfs v hv) []
    · exact covers_of_mem_classes hv
  refine hset.bind fun _ t _ _ => conserves_pure ?_
  intro v hv
  obtain rfl := List.mem_singleton.mp hv
  exact Cells.covers_of_isPlain (ClassTable.isPlain_number id)

include hI

/-! ## Operands in order -/

theorem conserves_evalAll (es : List Expr) : Conserves (I.evalAll es) s [] fun vs => vs := by
  induction es generalizing s with
  | nil => exact conserves_pure (by simp)
  | cons e rest ih =>
      refine (hI.eval e s).bind ?_
      intro v t _ _
      exact conserves_map (Conserves.holding_nil ih)

/-- Keys and values of a map. -/
theorem conserves_evalEntries (es : List (Expr × Expr)) :
    Conserves (I.evalEntries es) s [] fun entries => entries.flatMap fun e => [e.1, e.2] := by
  induction es generalizing s with
  | nil => exact conserves_pure (by simp)
  | cons e rest ih =>
      obtain ⟨key, value⟩ := e
      refine (hI.eval key s).bind ?_
      intro k t _ _
      refine (Conserves.holding_nil (hI.eval value _)).bind ?_
      intro v u _ _
      have hrest : Conserves (holding [k, v] (I.evalEntries rest)) u [k, v]
          fun entries => [k, v] ++ entries.flatMap fun e => [e.1, e.2] := Conserves.holding_nil ih
      exact conserves_map hrest

/-- What an operation keeps of its operands. -/
theorem conserves_evalOperands (op : Primitive) (es : List Expr) :
    Conserves (I.evalOperands op es) s [] fun vs => vs := by
  induction es generalizing s with
  | nil => exact conserves_pure (by simp)
  | cons e rest ih =>
      refine (hI.eval e s).bind ?_
      intro v t _ _
      refine conserves_get (conserves_bind_ofExcept ?_)
      intro kept hkept
      refine conserves_map (Conserves.of_hand (Conserves.holding_nil ih) ?_)
      intro u hu
      obtain rfl := List.mem_singleton.mp hu
      exact (Cells.carried_covers _ _).keep hkept (State.covers_of_mem_hand (by simp))

theorem conserves_arguments (args : List Expr) (keywords : List (String × Expr)) :
    Conserves (I.arguments args keywords) s [] CallArgs.values := by
  refine (conserves_evalAll hI args).bind ?_
  intro positional t _ _
  refine conserves_map (g := fun named =>
    (⟨positional, (keywords.map Prod.fst).zip named⟩ : CallArgs))
    (Conserves.of_out_subset (Conserves.holding_nil (conserves_evalAll hI _)) ?_)
  intro named v hv
  simp only [CallArgs.values, List.mem_append] at hv ⊢
  refine hv.imp_right fun hv => ?_
  obtain ⟨entry, hentry, rfl⟩ := List.mem_map.mp hv
  exact (List.of_mem_zip hentry).2

/-! ## Objects -/

/-- An action on an object, which is in use meanwhile. -/
theorem conserves_withObject {α : Type} {e : Expr} {act : Handle → Run α} {out : α → List Value}
    (hact : ∀ h t, (∀ v ∈ s.kept, v ∈ t.kept) → .object h ∈ t.kept →
      Conserves (act h) t [] out) :
    Conserves (I.withObject e act) s [] out := by
  refine (hI.eval e s).bind ?_
  intro v t _ hlevel
  refine conserves_bind_ofExcept ?_
  intro h hh
  rw [Value.eq_object_of_asHandle hh]
  refine Conserves.of_out_subset (Conserves.holding_nil (hact h _ ?_ ?_)) fun x u hu =>
    List.mem_append_right _ hu
  · intro u hu
    rw [State.kept_cons_held, hlevel.kept_eq]
    exact List.mem_append_right _ hu
  · rw [State.kept_cons_held]
    exact List.mem_append_left _ (by simp)

theorem conserves_withObjects {α : Type} {left right : Expr} {act : Handle → Handle → Run α}
    {out : α → List Value}
    (hact : ∀ h k t, .object h ∈ t.kept → .object k ∈ t.kept → Conserves (act h k) t [] out) :
    Conserves (I.withObjects left right act) s [] out :=
  conserves_withObject hI fun h _ _ hh =>
    conserves_withObject hI fun k u hkept hk => hact h k u (hkept _ hh) hk

/-- Handlers are changed by a callable that is in use. -/
theorem conserves_onHandlers {object : Expr} {event operation name : String}
    {f : Handlers → Callable → Handlers}
    (hf : ∀ hs g, ∀ v ∈ (f hs g).values, v ∈ hs.values ∨ v ∈ g.values) :
    Conserves (I.onHandlers object event operation name f) s [] fun _ => [] := by
  refine conserves_withObject hI fun h t _ _ => conserves_bind_callable fun g hg => ?_
  have hmodify : Conserves
      (holding g.values (Event.modifyHandlers I.exec h event operation fun hs => f hs g)) t
      g.values fun _ => g.values ++ [] := by
    refine Conserves.holding_nil (Event.conserves_modifyHandlers hI.exec ?_)
    intro hs v hv
    rw [State.kept_cons_held]
    exact (hf hs g v hv).imp_right fun hv => List.mem_append_left _ hv
  refine (hmodify.of_hand fun v hv => State.covers_of_mem_roots (hg v hv) []).bind ?_
  exact fun _ u _ _ => conserves_pure (by simp)

/-- A block starts with its item and leaves the value with which it stops. -/
theorem conserves_runBlock (code : Code) (item : Value) :
    Conserves (I.runBlock code item) s [item] fun stopped => stopped.toList := by
  refine (Conserves.of_hand (hI.exec code _).activate ?_).bind ?_
  · intro v hv
    exact State.covers_of_mem_hand (by simpa [Activation.values] using hv)
  · intro body t _ _
    refine conserves_pure ?_
    intro v hv
    cases hended : body.ended with
    | none => simp [Activation.stopped?, hended] at hv
    | some ending =>
        cases ending with
        | value u => simp [Activation.stopped?, hended] at hv
        | stop u =>
            refine State.covers_of_mem_hand ?_
            have hvu : v = u := by simpa [Activation.stopped?, hended] using hv
            simp [Activation.values, hended, Ending.content, hvu]

/-! ## Classes -/

theorem conserves_evalOutside (e : Expr) :
    Conserves (I.evalOutside e) s [] fun v => [v] :=
  Conserves.withinActivation (hI.eval e (withActivation s { mode := .outside }))

theorem conserves_defineClass (spec : ClassSpec Expr Stmt) :
    Conserves (I.defineClass spec) s [] fun v => [v] := by
  refine (conserves_resolveClass (fun e t => conserves_evalOutside hI e) spec).bind ?_
  intro draft t _ _
  refine conserves_get (conserves_bind_ofExcept ?_)
  rintro ⟨id, classes⟩ hdefine
  refine (conserves_setClasses (ClassTable.allOverrides_subset_of_define hdefine) ?_).bind
    fun _ u _ _ => conserves_pure ?_
  · intro v hv
    rcases ClassTable.mem_heldValues_of_define hdefine hv with hv | hv
    · exact State.covers_of_mem_hand hv
    · exact covers_of_mem_classes hv
  · intro v hv
    obtain rfl := List.mem_singleton.mp hv
    exact Cells.covers_of_isPlain (ClassTable.isPlain_number id)

end ObjectBridge.Script.Interpreter
