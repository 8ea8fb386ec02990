import ObjectBridge.Proofs.Call.Construction
import ObjectBridge.Proofs.Call.Dispatch
import ObjectBridge.Proofs.Samples.Library
import ObjectBridge.Proofs.Script.Operands
import ObjectBridge.Script.Interpreter

/-!
# The interpreter and the handles that exist

An action starts with nothing in hand and ends with its value.  Every level of the interpreter conserves handles if
the level below does, and the lowest one stops at once.  So whatever a script does, the handles that exist are the ones
in use, and each of them was issued.

* `conserves_performCall` — calls, with the arguments as they were left.
* `conserves_perform` — every action, given an interpreter that conserves handles for its parts.
* `conserves_evalExpr`, `conserves_execStmt` and `conserves_execCode` — one level.
* `interpreter_conservesAll` — all levels.
-/

namespace ObjectBridge.Script.Interpreter

open Run

variable {s : State} {I : Interpreter}

/-! ## Values of actions -/

/-- An action that is done for what it does. -/
theorem conserves_done {act : Run Unit} (hact : Conserves act s [] fun _ => []) :
    Conserves (act >>= fun _ => pure .nil) s [] fun v => [v] := by
  refine hact.bind fun _ t _ _ => conserves_pure ?_
  intro v hv
  obtain rfl := List.mem_singleton.mp hv
  exact Cells.covers_of_isPlain Value.isPlain_nil

/-- An action with a value that holds nothing. -/
theorem conserves_plain {v : Value} {hand : List Value} (hv : v.IsPlain) :
    Conserves (pure v : Run Value) s hand fun v => [v] := by
  refine conserves_pure ?_
  intro u hu
  obtain rfl := List.mem_singleton.mp hu
  exact Cells.covers_of_isPlain hv

/-- An action with a value that is covered. -/
theorem conserves_covered {v : Value} {hand : List Value} (hv : s.Covers hand v) :
    Conserves (pure v : Run Value) s hand fun v => [v] := by
  refine conserves_pure ?_
  intro u hu
  obtain rfl := List.mem_singleton.mp hu
  exact hv

/-- An action with an optional object as its value. -/
theorem conserves_orNil {act : Run (Option Handle)}
    (hact : Conserves act s [] fun h => (h.map Value.object).toList) :
    Conserves (act >>= fun h => pure (orNil h)) s [] fun v => [v] :=
  hact.bind fun h _ _ _ =>
    conserves_covered (covers_orNil h fun _ hv => State.covers_of_mem_hand hv)

/-! ## Actions without operands -/

theorem conserves_constant (cls : ClassRef) (name : String) :
    Conserves (I.perform (.constant cls name)) s [] fun v => [v] := by
  refine conserves_bind_of_reads (reads_classId cls) fun id _ => conserves_get ?_
  refine conserves_orFail ?_
  intro v hv u hu
  obtain rfl := List.mem_singleton.mp hu
  rcases ClassTable.mem_heldValues_of_constant? hv with hv | hv
  · exact covers_of_mem_classes hv
  · exact Cells.covers_of_isPlain hv

theorem conserves_enumType (cls : ClassRef) (name : String) :
    Conserves (I.perform (.enumType cls name)) s [] fun v => [v] := by
  refine conserves_bind_of_reads (reads_classId cls) fun id _ => conserves_get ?_
  exact conserves_bind_orFail fun type _ => conserves_covered (ClassTable.covers_enumSummary type)

theorem conserves_classInfo (cls : ClassRef) :
    Conserves (I.perform (.classInfo cls)) s [] fun v => [v] := by
  refine conserves_get (conserves_bind_of_reads (reads_classId cls) fun id _ => ?_)
  exact conserves_bind_ofExcept fun c _ => conserves_plain (ClassTable.isPlain_summary _ _ c)

theorem conserves_methodInfo (cls : ClassRef) (method : String) :
    Conserves (I.perform (.methodInfo cls method)) s [] fun v => [v] := by
  refine conserves_get (conserves_bind_of_reads (reads_classId cls) fun id _ => ?_)
  exact conserves_plain (ClassTable.isPlain_methodSummary _ _ id method)

theorem conserves_isSubclass (cls base : ClassRef) :
    Conserves (I.perform (.isSubclass cls base)) s [] fun v => [v] := by
  refine conserves_bind_of_reads (reads_classId cls) fun id _ => conserves_get ?_
  refine conserves_bind_of_reads (reads_classId base) fun baseId _ => ?_
  exact conserves_plain (Value.isPlain_bool _)

theorem conserves_receiverIs (cls : String) :
    Conserves (I.perform (.receiverIs cls)) s [] fun v => [v] := by
  refine conserves_bind_of_reads reads_receiver fun recv _ => conserves_get ?_
  exact conserves_bind_ofExcept fun id _ => conserves_plain (Value.isPlain_bool _)

theorem conserves_count (cls : ClassRef) :
    Conserves (I.perform (.count cls)) s [] fun v => [v] := by
  refine conserves_bind_of_reads (reads_classId cls) fun id _ => conserves_get ?_
  refine conserves_plain (Value.isPlain_list_iff.mpr ?_)
  simp [isPlain_count]

theorem conserves_instanceCount (cls : ClassRef) :
    Conserves (I.perform (.instanceCount cls)) s [] fun v => [v] := by
  refine conserves_bind_of_reads (reads_classId cls) fun id _ => conserves_get ?_
  exact conserves_plain (isPlain_count _)

theorem conserves_options : Conserves (I.perform .options) s [] fun v => [v] := by
  refine conserves_get (conserves_plain (Value.isPlain_list_iff.mpr ?_))
  simp [isPlain_count]

theorem conserves_performUpgrade (name : String) :
    Conserves (I.perform (.upgrade name)) s [] fun v => [v] := by
  refine conserves_get ?_
  split
  · exact conserves_orNil (Lifetime.conserves_upgrade _)
  · exact conserves_plain Value.isPlain_nil

theorem conserves_performOccupant (cls : ClassRef) (seat : String) :
    Conserves (I.perform (.occupant cls seat)) s [] fun v => [v] :=
  conserves_bind_of_reads (reads_classId cls) fun id _ =>
    conserves_orNil (Lifetime.conserves_occupant id seat)

theorem conserves_sameCallable (name other : String) :
    Conserves (I.perform (.sameCallable name other)) s [] fun v => [v] :=
  conserves_bind_callable fun _ hf => conserves_done (conserves_nameCallable hf)

/-- A new object takes the fields along that are evaluated for it. -/
theorem conserves_created {id : ClassId} {shape : Shape} {v : Value} {fields : ValueMap}
    {keep : Keep} (hfields : v.asMap = .ok fields) :
    Conserves (Lifetime.create id ⟨shape, fields⟩ keep >>= fun h => pure (.object h)) s [v]
      fun u => [u] := by
  refine conserves_map (g := Value.object) (Conserves.of_out_subset
    (Lifetime.conserves_create ?_) ?_)
  · show s.Covers [v] (.map fields)
    rw [← Value.eq_map_of_asMap hfields]
    exact State.covers_of_mem_hand (by simp)
  · intro h u hu
    obtain rfl := List.mem_singleton.mp hu
    exact List.mem_cons_self

/-- Of a call only the result is taken. -/
theorem conserves_callResult {act : Run (Value × CallArgs)} {hand : List Value}
    (hact : Conserves act s hand fun left => left.1 :: left.2.values) :
    Conserves (act >>= fun left => pure left.1) s hand fun v => [v] :=
  hact.bind fun _ _ _ _ => conserves_covered (State.covers_of_mem_hand (by simp))

section Operands

variable (hI : I.ConservesAll)

include hI

/-! ## Boxes, callables and the running body -/

theorem conserves_boxSet (box value : Expr) :
    Conserves (I.perform (.boxSet box value)) s [] fun v => [v] := by
  refine (hI.eval box s).bind fun u t _ _ => conserves_bind_ofExcept fun b hb => ?_
  rw [Value.eq_box_of_asBox hb]
  refine (Conserves.holding_nil (hI.eval value _)).bind fun v r _ _ => ?_
  exact (Delivery.conserves_setBox (State.covers_of_mem_hand (by simp))).bind
    fun _ _ _ _ => conserves_plain Value.isPlain_nil

theorem conserves_boxGet (box : Expr) :
    Conserves (I.perform (.boxGet box)) s [] fun v => [v] := by
  refine (hI.eval box s).bind fun u t _ _ => conserves_bind_ofExcept fun b hb => ?_
  rw [Value.eq_box_of_asBox hb]
  refine conserves_get (conserves_covered ?_)
  exact Cells.Covers.content (State.covers_of_mem_hand (by simp))

/-- The log keeps nothing in use. -/
theorem conserves_log (e : Expr) : Conserves (I.perform (.log e)) s [] fun v => [v] := by
  refine (hI.eval e s).bind fun v t _ _ => ?_
  have hlog : Conserves
      (modify fun s : State => { s with log := (s.toWorld, v) :: s.log } : Run PUnit) t [v]
      fun _ => [] := by
    refine conserves_modify ⟨rfl, rfl, rfl, id, Set.Subset.rfl⟩ rfl (Cells.within_of_covers fun u hu => ?_)
    exact Cells.covers_of_mem (List.mem_append_right _ hu)
  exact hlog.bind fun _ _ _ _ => conserves_plain Value.isPlain_nil

theorem conserves_attempt (code : Code) :
    Conserves (I.perform (.attempt code)) s [] fun v => [v] := by
  have hattempt : Conserves (Run.attempt (I.exec code)) s [] fun _ => [] :=
    (hI.exec code s).attempt.of_out_subset fun x v hv => absurd hv List.not_mem_nil
  refine hattempt.bind fun result t _ _ => ?_
  cases result with
  | ok _ => exact conserves_plain (Value.isPlain_text _)
  | error e => exact conserves_plain (Value.isPlain_list_iff.mpr (by simp))

/-- Host code takes the values along that are evaluated for it. -/
theorem conserves_closure (name : String) (captures : List (String × Expr)) (code : Code) :
    Conserves (I.perform (.closure name captures code)) s [] fun v => [v] := by
  refine (conserves_evalAll hI _).bind fun values t _ _ => ?_
  refine (conserves_newCallable fun v hv => ?_).bind fun _ _ _ _ =>
    conserves_plain Value.isPlain_nil
  obtain ⟨entry, hentry, rfl⟩ := List.mem_map.mp hv
  exact State.covers_of_mem_hand (List.of_mem_zip hentry).2

/-- What a callable captured is in use from before its arguments are evaluated. -/
theorem conserves_performInvoke (name : String) (args : List Expr) :
    Conserves (I.perform (.invoke name args)) s [] fun v => [v] := by
  refine conserves_bind_callable fun f hf => ?_
  refine ((Conserves.holding_nil (conserves_evalAll hI args)).of_hand fun v hv =>
    State.covers_of_mem_roots (hf v hv) []).bind fun values t _ _ => ?_
  refine ((conserves_invoke hI.exec f none values).of_hand fun v hv =>
    State.covers_of_mem_hand (by simpa using hv)).bind fun body u _ _ => ?_
  exact conserves_covered (State.covers_result body)

theorem conserves_setArg (index : Nat) (e : Expr) :
    Conserves (I.perform (.setArg index e)) s [] fun v => [v] := by
  refine (hI.eval e s).bind fun v t _ _ => ?_
  exact (conserves_setArgument (by simp)).bind fun _ _ _ _ => conserves_plain Value.isPlain_nil

/-- A field gets a value that is in use meanwhile. -/
theorem conserves_setState (type field : String) (e : Expr) :
    Conserves (I.perform (.setState type field e)) s [] fun v => [v] := by
  refine (hI.eval e s).bind fun v t _ _ => conserves_bind_receiver fun recv _ => ?_
  refine (Conserves.holding_nil (Lifetime.conserves_modifyNative hI.exec recv type ?_)).bind
    fun _ _ _ _ => conserves_plain Value.isPlain_nil
  intro u state hlevel
  refine Cells.covers_map_setField ?_ (State.covers_of_mem_hand (by simp))
  refine State.covers_of_mem_kept ?_ _
  rw [hlevel.kept_eq, State.kept_cons_held]
  exact List.mem_append_left _ (by simp)

/-! ## Objects -/

theorem conserves_performCreate (cls : ClassRef) (shape : Shape) (state : Expr)
    (unmanaged : Bool) :
    Conserves (I.perform (.create cls shape state unmanaged)) s [] fun v => [v] := by
  refine conserves_bind_of_reads (reads_classId cls) fun id _ => ?_
  refine (hI.eval state s).bind fun v t _ _ => conserves_bind_ofExcept fun fields hfields => ?_
  exact conserves_created hfields

theorem conserves_newObject (cls : String) (shape : Shape) (state : Expr) :
    Conserves (I.perform (.newObject cls shape state)) s [] fun v => [v] := by
  refine (hI.eval state s).bind fun v t _ _ => conserves_bind_ofExcept fun fields hfields => ?_
  exact conserves_get (conserves_bind_ofExcept fun id _ => conserves_created hfields)

/-- An action on an object that is done for what it does. -/
theorem conserves_doneWithObject {e : Expr} {act : Handle → Run Unit}
    (hact : ∀ h t, Conserves (act h) t [] fun _ => []) :
    Conserves (I.withObject e fun h => act h >>= fun _ => pure .nil) s [] fun v => [v] :=
  conserves_withObject hI fun h t _ _ => conserves_done (hact h t)

/-- An action that only looks at an object. -/
theorem conserves_lookAtObject {e : Expr} {f : State → Handle → Value}
    (hf : ∀ t h, (f t h).IsPlain) :
    Conserves (I.withObject e fun h => do return f (← get) h) s [] fun v => [v] :=
  conserves_withObject hI fun h t _ _ => conserves_get (conserves_plain (hf t h))

theorem conserves_inspect (e : Expr) : Conserves (I.perform (.inspect e)) s [] fun v => [v] :=
  conserves_lookAtObject hI fun _ _ => Value.isPlain_list_iff.mpr (by simp)

theorem conserves_performDup (e : Expr) : Conserves (I.perform (.dup e)) s [] fun v => [v] :=
  conserves_withObject hI fun h _ _ _ =>
    conserves_map (g := Value.object) (Lifetime.conserves_dup hI.exec h)

theorem conserves_performAssign (target source : Expr) :
    Conserves (I.perform (.assign target source)) s [] fun v => [v] :=
  conserves_withObjects hI fun h k _ _ _ =>
    conserves_done (Lifetime.conserves_assign hI.exec h k)

theorem conserves_performEquals (left right : Expr) :
    Conserves (I.perform (.equals left right)) s [] fun v => [v] :=
  conserves_withObjects hI fun h k _ _ _ =>
    (Lifetime.conserves_equals hI.exec h k).bind fun _ _ _ _ =>
      conserves_plain (Value.isPlain_bool _)

theorem conserves_performSame (left right : Expr) :
    Conserves (I.perform (.same left right)) s [] fun v => [v] :=
  conserves_withObjects hI fun _ _ _ _ _ =>
    conserves_get (conserves_plain (Value.isPlain_list_iff.mpr (by simp)))

theorem conserves_performNative (e : Expr) (type : String) :
    Conserves (I.perform (.native e type)) s [] fun v => [v] :=
  conserves_withObject hI fun h _ _ _ =>
    (Lifetime.conserves_native hI.exec h type).bind fun _ _ _ _ =>
      conserves_covered (Cells.covers_shown (State.covers_of_mem_hand (by simp)))

/-- A state gets fields that are in use meanwhile. -/
theorem conserves_nativeSet (e : Expr) (type : String) (value : Expr) :
    Conserves (I.perform (.nativeSet e type value)) s [] fun v => [v] := by
  refine conserves_withObject hI fun h t _ _ => (hI.eval value t).bind fun v u _ _ => ?_
  split
  · refine conserves_bind_ofExcept fun n _ => Conserves.of_nil ?_
    refine (Lifetime.conserves_modifyNative hI.exec h type ?_).bind
      fun _ _ _ _ => conserves_plain Value.isPlain_nil
    intro r state _
    refine Cells.covers_map_setField (Cells.covers_of_isPlain ?_)
      (State.covers_of_mem_hand (by simp))
    exact ⟨rfl, rfl⟩
  · refine conserves_bind_ofExcept fun fields hfields => ?_
    refine (Conserves.holding_nil (Lifetime.conserves_modifyNative hI.exec h type ?_)).bind
      fun _ _ _ _ => conserves_plain Value.isPlain_nil
    intro r state hlevel
    show r.Covers [.map state.fields] (.map fields)
    rw [← Value.eq_map_of_asMap hfields]
    refine State.covers_of_mem_kept ?_ _
    rw [hlevel.kept_eq, State.kept_cons_held]
    exact List.mem_append_left _ (by simp)

/-- A remembered reference keeps nothing in use. -/
theorem conserves_remember (e : Expr) (name : String) :
    Conserves (I.perform (.remember e name)) s [] fun v => [v] :=
  conserves_doneWithObject hI fun _ _ =>
    conserves_modify ⟨rfl, rfl, rfl, id, Set.Subset.rfl⟩ rfl (Cells.within_of_covers fun _ hv => Cells.covers_of_mem hv)

theorem conserves_upgradePair (e : Expr) :
    Conserves (I.perform (.upgradePair e)) s [] fun v => [v] := by
  refine (hI.eval e s).bind fun v t _ _ => ?_
  split
  · exact (conserves_orNil (Lifetime.conserves_upgrade _)).of_nil
  · exact conserves_plain Value.isPlain_nil

/-- A seat keeps no handle of its object. -/
theorem conserves_performInstall (cls : ClassRef) (seat : String) (e : Expr) :
    Conserves (I.perform (.install cls seat e)) s [] fun v => [v] := by
  refine conserves_bind_of_reads (reads_classId cls) fun id _ => ?_
  refine (hI.eval e s).bind fun v t _ _ => conserves_bind_ofExcept fun h _ => ?_
  exact (Lifetime.conserves_install id seat h).bind fun _ _ _ _ => conserves_plain Value.isPlain_nil

/-! ## Calls and events -/

/-- A call ends with its result and the arguments as they were left. -/
theorem conserves_performCall (c : Call) :
    Conserves (I.performCall c) s [] fun left => left.1 :: left.2.values := by
  cases c with
  | construct cls args keywords =>
      refine conserves_bind_of_reads (reads_classId cls) fun id _ => ?_
      refine (conserves_arguments hI args keywords).bind fun given t _ _ => ?_
      refine (Construction.conserves_construct hI.exec).bind ?_
      rintro ⟨h, after⟩ u _ _
      exact conserves_pure fun v hv => State.covers_of_mem_hand hv
  | method e method args keywords =>
      refine conserves_withObject hI fun h t _ hh => ?_
      refine (conserves_arguments hI args keywords).bind fun given u _ hlevel => ?_
      rw [← hlevel.kept_eq] at hh
      exact Dispatch.conserves_invoke hI.exec hh
  | static cls method args keywords =>
      refine conserves_bind_of_reads (reads_classId cls) fun id _ => ?_
      exact (conserves_arguments hI args keywords).bind fun given t _ _ =>
        Dispatch.conserves_callStatic hI.exec

theorem conserves_callBase (e : Expr) (method : String) (args : List Expr)
    (keywords : List (String × Expr)) :
    Conserves (I.perform (.callBase e method args keywords)) s [] fun v => [v] := by
  refine conserves_withObject hI fun h t _ hh => ?_
  refine (conserves_arguments hI args keywords).bind fun given u _ hlevel => ?_
  rw [← hlevel.kept_eq] at hh
  exact conserves_callResult (Dispatch.conserves_invoke hI.exec hh)

theorem conserves_performEach (e : Expr) (method : String) (args : List Expr)
    (keywords : List (String × Expr)) (block : Code) :
    Conserves (I.perform (.each e method args keywords block)) s [] fun v => [v] := by
  refine conserves_withObject hI fun h t _ hh => ?_
  refine (conserves_arguments hI args keywords).bind fun given u _ hlevel => ?_
  rw [← hlevel.kept_eq] at hh
  exact Dispatch.conserves_each hI.exec hh fun v r => conserves_runBlock hI block v

theorem conserves_eventClear (e : Expr) (event : String) :
    Conserves (I.perform (.eventClear e event)) s [] fun v => [v] := by
  refine conserves_withObject hI fun h t _ _ => ?_
  refine (Event.conserves_modifyHandlers hI.exec ?_).bind
    fun _ _ _ _ => conserves_plain Value.isPlain_nil
  exact fun hs v hv => absurd hv List.not_mem_nil

theorem conserves_eventCount (e : Expr) (event : String) :
    Conserves (I.perform (.eventCount e event)) s [] fun v => [v] := by
  refine conserves_withObject hI fun h t _ _ => ?_
  exact (Event.conserves_modifyHandlers hI.exec fun hs v hv => Or.inl hv).bind
    fun _ _ _ _ => conserves_plain (isPlain_count _)

theorem conserves_performTrigger (e : Expr) (event : String) (args : List Expr) :
    Conserves (I.perform (.trigger e event args)) s [] fun v => [v] := by
  refine conserves_withObject hI fun h t _ hh => ?_
  refine (conserves_evalAll hI args).bind fun values u _ hlevel => ?_
  rw [← hlevel.kept_eq] at hh
  exact (Event.conserves_trigger hI.exec hh).bind fun _ _ _ _ => conserves_plain Value.isPlain_nil

/-! ## All actions -/

theorem conserves_perform (a : Action) : Conserves (I.perform a) s [] fun v => [v] := by
  cases a with
  | set e => exact hI.eval e s
  | drop name => exact conserves_done (conserves_dropVariable name)
  | boxSet box value => exact conserves_boxSet hI box value
  | boxGet box => exact conserves_boxGet hI box
  | log e => exact conserves_log hI e
  | fail text native => exact conserves_fail
  | attempt code => exact conserves_attempt hI code
  | callable name code => exact conserves_done (conserves_newCallable (by simp))
  | closure name captures code => exact conserves_closure hI name captures code
  | sameCallable name other => exact conserves_sameCallable name other
  | invoke name args => exact conserves_performInvoke hI name args
  | setArg index e => exact conserves_setArg hI index e
  | setState type field e => exact conserves_setState hI type field e
  | samples => exact conserves_done Samples.conserves_registerSamples
  | defineClass spec => exact conserves_defineClass hI spec
  | subclass name base overrides => exact conserves_defineSubclass name base overrides
  | constant cls name => exact conserves_constant cls name
  | enumType cls name => exact conserves_enumType cls name
  | classInfo cls => exact conserves_classInfo cls
  | methodInfo cls method => exact conserves_methodInfo cls method
  | classTable => exact conserves_get (conserves_plain (ClassTable.isPlain_tableSummary _))
  | isSubclass cls base => exact conserves_isSubclass cls base
  | receiverIs cls => exact conserves_receiverIs cls
  | count cls => exact conserves_count cls
  | instanceCount cls => exact conserves_instanceCount cls
  | openStreams => exact conserves_get (conserves_plain (isPlain_count _))
  | reclaim =>
      exact Lifetime.conserves_reclaim.bind fun _ _ _ _ => conserves_plain (isPlain_count _)
  | options => exact conserves_options
  | create cls shape state unmanaged => exact conserves_performCreate hI cls shape state unmanaged
  | newObject cls shape state => exact conserves_newObject hI cls shape state
  | destroy e => exact conserves_doneWithObject hI fun h _ => Lifetime.conserves_destroy h
  | isDestroyed e => exact conserves_lookAtObject hI fun _ _ => Value.isPlain_bool _
  | manage e => exact conserves_doneWithObject hI fun h _ => Lifetime.conserves_manage h
  | unmanage e => exact conserves_doneWithObject hI fun h _ => Lifetime.conserves_unmanage h
  | handleState e => exact conserves_lookAtObject hI fun _ _ => Value.isPlain_text _
  | inspect e => exact conserves_inspect hI e
  | dup e => exact conserves_performDup hI e
  | assign target source => exact conserves_performAssign hI target source
  | equals left right => exact conserves_performEquals hI left right
  | same left right => exact conserves_performSame hI left right
  | native e type => exact conserves_performNative hI e type
  | nativeSet e type value => exact conserves_nativeSet hI e type value
  | remember e name => exact conserves_remember hI e name
  | upgrade name => exact conserves_performUpgrade name
  | upgradePair e => exact conserves_upgradePair hI e
  | install cls seat e => exact conserves_performInstall hI cls seat e
  | occupant cls seat => exact conserves_performOccupant cls seat
  | call c => exact conserves_callResult (conserves_performCall hI c)
  | callBase e method args keywords => exact conserves_callBase hI e method args keywords
  | each e method args keywords block => exact conserves_performEach hI e method args keywords block
  | eventSet e event name =>
      exact conserves_done (conserves_onHandlers hI fun _ _ _ hv =>
        Or.inr (by simpa [Handlers.set, Handlers.values] using hv))
  | eventAdd e event name =>
      exact conserves_done (conserves_onHandlers hI fun _ _ _ hv => Handlers.mem_values_add hv)
  | eventRemove e event name =>
      exact conserves_done (conserves_onHandlers hI fun _ _ _ hv =>
        Or.inl (Handlers.mem_values_remove hv))
  | eventClear e event => exact conserves_eventClear hI e event
  | eventCount e event => exact conserves_eventCount hI e event
  | trigger e event args => exact conserves_performTrigger hI e event args

end Operands

end ObjectBridge.Script.Interpreter

/-! ## Levels of the interpreter -/

namespace ObjectBridge.Script

open Run

namespace Interpreter

variable {s : State} {I : Interpreter} (hI : I.ConservesAll)

include hI

/-- A call whose result is stored, with its arguments as they were left. -/
theorem conserves_callOut (c : Call) (dest : Option String) :
    Conserves (I.evalExpr (.callOut c dest)) s [] fun v => [v] := by
  refine (conserves_performCall hI c).bind ?_
  rintro ⟨v, args⟩ t _ _
  refine (conserves_store (by simp)).bind fun _ u _ _ => conserves_covered ?_
  refine Cells.covers_record ?_
  simp only [List.forall_mem_cons, List.not_mem_nil, false_implies, implies_true, and_true]
  refine ⟨State.covers_of_mem_hand (by simp), Cells.covers_list_iff.mpr fun w hw => ?_,
    Cells.covers_list_iff.mpr fun w hw => ?_⟩
  · exact State.covers_of_mem_hand (List.mem_cons_of_mem _ (List.mem_append_left _ hw))
  · exact State.covers_of_mem_hand (List.mem_cons_of_mem _ (List.mem_append_right _ hw))

theorem conserves_evalExpr (e : Expr) : Conserves (I.evalExpr e) s [] fun v => [v] := by
  cases e with
  | lit l => exact conserves_plain (Value.isPlain_literal l)
  | enumOf key payload =>
      exact conserves_bind_of_reads (reads_declaredEnum key) fun _ _ =>
        conserves_plain (Value.isPlain_enum _)
  | flagsOf key payload =>
      exact conserves_bind_of_reads (reads_declaredEnum key) fun _ _ =>
        conserves_plain (Value.isPlain_flags _)
  | list items =>
      refine (conserves_evalAll hI items).bind fun vs t _ _ => conserves_covered ?_
      exact Cells.covers_list_iff.mpr fun v hv => State.covers_of_mem_hand hv
  | map entries =>
      refine (conserves_evalEntries hI entries).bind fun es t _ _ => conserves_get ?_
      refine conserves_covered (Cells.covers_map_ofEntries ?_)
      intro e he
      exact ⟨State.covers_of_mem_hand (List.mem_flatMap.mpr ⟨e, he, by simp⟩),
        State.covers_of_mem_hand (List.mem_flatMap.mpr ⟨e, he, by simp⟩)⟩
  | box e =>
      refine (hI.eval e s).bind fun v t _ _ => ?_
      refine (Delivery.conserves_newBox (State.covers_of_mem_hand (by simp))).of_out_subset ?_
      intro b u hu
      obtain rfl := List.mem_singleton.mp hu
      exact List.mem_cons_self
  | var name => exact conserves_readVariable name
  | constView e =>
      refine (hI.eval e s).bind fun v t _ _ => conserves_bind_ofExcept fun h hh => ?_
      rw [Value.eq_object_of_asHandle hh]
      exact conserves_covered (Cells.Covers.asConst (State.covers_of_mem_hand (by simp)))
  | arg index => exact conserves_argument index
  | argAs index type => exact conserves_argumentAs index type
  | argCount =>
      exact conserves_bind_of_reads reads_argumentCount fun n _ =>
        conserves_plain (ClassTable.isPlain_number n)
  | receiver =>
      exact conserves_bind_receiver fun h hh => conserves_covered (State.covers_of_mem_kept hh _)
  | state type field =>
      refine conserves_bind_receiver fun h _ => ?_
      exact (Lifetime.conserves_native hI.exec h type).bind fun state t _ _ =>
        conserves_covered (Cells.covers_field field (State.covers_of_mem_hand (by simp)))
  | primitive op operands =>
      refine (conserves_evalOperands hI op operands).bind fun vs t _ _ => conserves_get ?_
      refine conserves_ofExcept fun u hu v hv => ?_
      obtain rfl := List.mem_singleton.mp hv
      exact (Cells.carried_covers _ _).apply hu fun w hw => State.covers_of_mem_hand hw
  | perform action dest =>
      refine (conserves_perform hI action).bind fun v t _ _ => ?_
      exact (conserves_store (by simp)).bind fun _ _ _ _ =>
        conserves_covered (State.covers_of_mem_hand (by simp))
  | callOut c dest => exact conserves_callOut hI c dest

theorem conserves_execStmt (stmt : Stmt) : Conserves (I.execStmt stmt) s [] fun _ => [] := by
  cases stmt with
  | perform action dest =>
      refine (conserves_perform hI action).bind fun v t _ _ => ?_
      exact (conserves_store (by simp)).of_out_subset fun _ u hu => absurd hu List.not_mem_nil
  | ret e =>
      exact (hI.eval e s).bind fun v t _ _ => conserves_finish (by simp [Ending.content])
  | brk e =>
      exact (hI.eval e s).bind fun v t _ _ => conserves_finish (by simp [Ending.content])
  | branch condition yes no =>
      refine (hI.eval condition s).bind fun v t _ _ => conserves_bind_ofExcept fun b _ => ?_
      split
      · exact (hI.exec yes t).of_nil
      · exact (hI.exec no t).of_nil

/-- Statements run one after the other, until the body ends. -/
theorem conserves_execCode (code : Code) : Conserves (I.execCode code) s [] fun _ => [] := by
  induction code generalizing s with
  | nil => exact conserves_pure (by simp)
  | cons stmt rest ih =>
      refine (conserves_execStmt hI stmt).bind fun _ t _ _ => ?_
      refine conserves_bind_of_reads reads_hasEnded fun ended _ => ?_
      split
      · exact ih
      · exact conserves_pure (by simp)

end Interpreter

/-- A script conserves handles, whatever its budget is. -/
theorem interpreter_conservesAll (budget : Nat) : (interpreter budget).ConservesAll := by
  induction budget with
  | zero =>
      exact ⟨fun _ _ => Relation.ReflTransGen.refl, fun _ _ => Relation.ReflTransGen.refl⟩
  | succ budget ih =>
      refine ⟨fun e s => ?_, fun code s => ?_⟩
      · exact conserves_tick.bind fun _ _ _ _ => Interpreter.conserves_evalExpr ih e
      · exact conserves_tick.bind fun _ _ _ _ => Interpreter.conserves_execCode ih code

end ObjectBridge.Script
