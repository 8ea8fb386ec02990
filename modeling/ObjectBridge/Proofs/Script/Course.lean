import ObjectBridge.Proofs.Call.Course
import ObjectBridge.Proofs.Call.Deeds
import ObjectBridge.Proofs.Run.Orderly
import ObjectBridge.Proofs.Script.Operands
import ObjectBridge.Script.Interpreter

/-!
# The course of scripts

Whatever a script does, it takes a course, if the course allows all changes of handlers.

* `takes_defineClass` and `takes_defineSubclass` — the ways in which a class is registered.
* `takes_perform` — every action, given an interpreter for its parts.
* `interpreter_takes` — all levels of the interpreter.
* `Operations` and `operations_of_takes` — the operations that run bodies, or none, whatever way bodies run.
* `interpreter_orderly` — scripts change the state by steps, and when an evaluation or a body has come to its end, the
  same bodies run as before it.
* `interpreter_performs` — scripts change the arena by the changes that make up histories.
-/

namespace ObjectBridge

open Run

variable {C : Course} {s : State}

namespace Samples

theorem takes_registerAll (drafts : List ClassDraft) : Takes C (registerAll drafts) s := by
  induction drafts generalizing s with
  | nil => exact takes_pure _
  | cons d rest ih =>
      refine takes_get (takes_bind_ofExcept ?_)
      rintro ⟨id, classes⟩ hdefine
      exact (takes_setClasses (C.define hdefine)).bind fun _ _ _ _ => ih

theorem takes_registerSamples : Takes C register s := by
  unfold register
  exact (takes_registerAll library).bind fun _ _ _ _ => takes_modify rfl rfl rfl

end Samples

namespace Script

/-- Whether an action changes handlers by itself. -/
def Action.changesHandlers : Action → Bool
  | .eventSet _ _ _ | .eventAdd _ _ _ | .eventRemove _ _ _ | .eventClear _ _ => true
  | _ => false

/-! ## Names -/

theorem reads_callable (name : String) : Reads (callable name) :=
  reads_get.bind fun _ => reads_orFail _ _

theorem reads_readVariable (name : String) : Reads (readVariable name) :=
  reads_get.bind fun _ => reads_pure _

theorem reads_argument (index : Nat) : Reads (argument index) := by
  refine reads_get.bind fun t => ?_
  split
  · exact reads_pure _
  · split <;> exact reads_pure _

theorem reads_argumentAs (index : Nat) (type : NativeType) : Reads (argumentAs index type) := by
  refine (reads_argument index).bind fun v => reads_get.bind fun t => ?_
  split
  · exact (reads_ofExcept _).bind fun x => reads_pure _
  · exact (reads_ofExcept _).bind fun x => reads_pure _
  · exact reads_pure v

theorem takes_setVariable (name : String) (v : Value) : Takes C (setVariable name v) s := by
  unfold setVariable
  split
  · exact takes_modifyActivation fun _ => ⟨rfl, rfl⟩
  · exact takes_modify rfl rfl rfl

theorem takes_dropVariable (name : String) : Takes C (dropVariable name) s := by
  unfold dropVariable
  dsimp only
  split
  · exact takes_modifyActivation fun _ => ⟨rfl, rfl⟩
  · exact takes_modify rfl rfl rfl

theorem takes_store (dest : Option String) (v : Value) : Takes C (store dest v) s := by
  cases dest with
  | none => exact takes_pure _
  | some name => exact takes_setVariable name v

theorem takes_setArgument (index : Nat) (v : Value) : Takes C (setArgument index v) s := by
  refine takes_modifyActivation fun a => ?_
  split <;> exact ⟨rfl, rfl⟩

theorem takes_finish (ending : Ending) : Takes C (finish ending) s :=
  takes_modifyActivation fun _ => ⟨rfl, rfl⟩

/-! ## Written classes -/

section Definition

variable {eval : Expr → Run Value} (heval : ∀ e s, Takes C (eval e) s)

include heval

theorem takes_resolveParams (params : List (ParamSpec Expr)) :
    Takes C (resolveParams eval params) s := by
  induction params generalizing s with
  | nil => exact takes_pure _
  | cons p rest ih =>
      have hparam : Takes C (p.resolve eval) s := by
        refine takes_bind_of_reads (reads_resolveType p.type) fun type _ => ?_
        split
        · exact takes_pure _
        · exact (heval _ s).map
      exact hparam.bind fun q t _ _ => ih.holding.map

theorem takes_resolveSignature (sig : SignatureSpec Expr) : Takes C (sig.resolve eval) s := by
  refine (takes_resolveParams heval sig.params).bind fun params t _ _ => ?_
  split
  · exact takes_pure _
  · exact takes_bind_of_reads (reads_resolveType _) fun _ _ => takes_pure _

theorem takes_evalNamed (entries : List (String × Expr)) : Takes C (evalNamed eval entries) s := by
  induction entries generalizing s with
  | nil => exact takes_pure _
  | cons entry rest ih => exact (heval entry.2 s).bind fun v t _ _ => ih.holding.map

theorem takes_addTo (shape : Shape) (d : ClassDraft) (m : Member Expr Stmt) :
    Takes C (m.addTo eval shape d) s := by
  cases m with
  | «constructor» sig code => exact (takes_resolveSignature heval sig).map
  | lazy code => exact takes_pure _
  | method name sig code => exact (takes_resolveSignature heval sig).map
  | iterator name sig code failAt => exact (takes_resolveSignature heval sig).map
  | «attribute» name type => exact (takes_of_reads (reads_resolveType type)).map
  | event name params => exact (takes_resolveParams heval params).map
  | constant name e => exact (heval e s).map
  | enum key => exact (takes_of_reads (reads_declaredEnum key)).map
  | mixin name constants enums =>
      refine (takes_evalNamed heval constants).bind fun named t _ _ => ?_
      exact (takes_of_reads (reads_declaredEnums enums)).map

theorem takes_resolveClass (spec : ClassSpec Expr Stmt) : Takes C (spec.resolve eval) s := by
  have hmembers (members : List (Member Expr Stmt)) (d : ClassDraft) (t : State) :
      Takes C (addMembers eval spec.shape d members) t := by
    induction members generalizing d t with
    | nil => exact takes_pure d
    | cons m rest ih => exact (takes_addTo heval spec.shape d m).holding.bind fun d' u _ _ => ih d' u
  exact hmembers spec.members _ s

end Definition

namespace Interpreter

/-- Evaluations and bodies take a course, in any state. -/
structure TakesAll (C : Course) (I : Interpreter) : Prop where
  eval : ∀ e s, Takes C (I.eval e) s
  exec : Run.TakesAll C I.exec

theorem reads_resolveCallables (overrides : List (String × String)) :
    Reads (resolveCallables overrides) := by
  induction overrides with
  | nil => exact reads_pure _
  | cons entry rest ih =>
      exact (reads_callable entry.2).bind fun f => ih.bind fun fs => reads_pure _

theorem takes_defineSubclass (name base : String) (overrides : List (String × String)) :
    Takes C (defineSubclass name base overrides) s := by
  refine takes_bind_of_reads (reads_resolveCallables overrides) fun callables _ => ?_
  refine takes_get (takes_bind_ofExcept ?_)
  rintro ⟨id, classes⟩ hdefine
  exact (takes_setClasses (C.defineSubclass hdefine)).map

variable {I : Interpreter} (hI : I.TakesAll C)

include hI

theorem takes_evalOutside (e : Expr) : Takes C (I.evalOutside e) s :=
  Takes.within_body (starts_activation { mode := .outside }) (hI.eval e _) .outside

theorem takes_defineClass (spec : ClassSpec Expr Stmt) : Takes C (I.defineClass spec) s := by
  refine (takes_resolveClass (fun e t => takes_evalOutside hI e) spec).bind fun d t _ _ => ?_
  refine takes_get (takes_bind_ofExcept ?_)
  rintro ⟨id, classes⟩ hdefine
  exact (takes_setClasses (C.define hdefine)).map

/-! ## Operands -/

theorem takes_evalAll (es : List Expr) : Takes C (I.evalAll es) s := by
  induction es generalizing s with
  | nil => exact takes_pure _
  | cons e rest ih => exact (hI.eval e s).bind fun v t _ _ => ih.holding.map

theorem takes_evalEntries (es : List (Expr × Expr)) : Takes C (I.evalEntries es) s := by
  induction es generalizing s with
  | nil => exact takes_pure _
  | cons entry rest ih =>
      refine (hI.eval entry.1 s).bind fun k t _ _ => ?_
      exact (hI.eval entry.2 _).holding.bind fun v u _ _ => ih.holding.map

theorem takes_evalOperands (op : Primitive) (es : List Expr) : Takes C (I.evalOperands op es) s := by
  induction es generalizing s with
  | nil => exact takes_pure _
  | cons e rest ih =>
      refine (hI.eval e s).bind fun v t _ _ => takes_get (takes_bind_ofExcept fun kept _ => ?_)
      exact ih.holding.map

theorem takes_arguments (args : List Expr) (keywords : List (String × Expr)) :
    Takes C (I.arguments args keywords) s :=
  (takes_evalAll hI args).bind fun _ _ _ _ => (takes_evalAll hI _).holding.map

theorem takes_withObject {α : Type} {e : Expr} {act : Handle → Run α}
    (hact : ∀ h t, Takes C (act h) t) : Takes C (I.withObject e act) s := by
  refine (hI.eval e s).bind fun v t _ _ => takes_bind_ofExcept fun h _ => ?_
  exact (hact h _).holding

theorem takes_withObjects {α : Type} {left right : Expr} {act : Handle → Handle → Run α}
    (hact : ∀ h k t, Takes C (act h k) t) : Takes C (I.withObjects left right act) s :=
  takes_withObject hI fun h _ => takes_withObject hI fun k _ => hact h k _

/-- An operation that changes handlers by a callable. -/
theorem takes_onHandlers {f : Handlers → Callable → Handlers}
    (hallowed : ∀ r event g, C.Allows r event fun hs => f hs g) (object : Expr) (event operation name : String) :
    Takes C (I.onHandlers object event operation name f) s := by
  refine takes_withObject hI fun h t => takes_bind_of_reads (reads_callable name) fun g _ => ?_
  exact (Event.takes_modifyHandlers hI.exec (hallowed h.target event g)).holding.map

omit hI in
/-- A block runs in a frame of host code for every item. -/
theorem takes_block (hexec : Run.TakesAll C I.exec) (code : Code) (item : Value) :
    Takes C (inHostFrame .host (I.runBlock code item)) s := by
  have hbody : Takes C
      (inHostFrame .host (activate { mode := .block, args := [item] } (I.exec code))) s :=
    Takes.inHostFrame (starts_activation { mode := .block, args := [item] })
      (takes_code hexec _ code) fun r hdepth => .block hdepth
  rw [runBlock, inHostFrame_map]
  exact hbody.map

/-! ## Actions -/

theorem takes_performCall (c : Call) : Takes C (I.performCall c) s := by
  cases c with
  | construct cls args keywords =>
      refine takes_bind_of_reads (reads_classId cls) fun id _ => ?_
      refine (takes_arguments hI args keywords).bind fun given t _ _ => ?_
      exact (Construction.takes_construct hI.exec id given).map
  | method e method args keywords =>
      refine takes_withObject hI fun h t => (takes_arguments hI args keywords).bind fun given u _ _ => ?_
      exact Dispatch.takes_call hI.exec h method given
  | static cls method args keywords =>
      refine takes_bind_of_reads (reads_classId cls) fun id _ => ?_
      refine (takes_arguments hI args keywords).bind fun given t _ _ => ?_
      exact Dispatch.takes_callStatic hI.exec id method given

theorem takes_setState (type field : String) (e : Expr) :
    Takes C (I.perform (.setState type field e)) s := by
  refine (hI.eval e s).bind fun v t _ _ => takes_bind_of_reads reads_receiver fun recv _ => ?_
  exact (Lifetime.takes_modifyNative hI.exec recv type _).holding.map

theorem takes_nativeSet (e : Expr) (type : String) (value : Expr) :
    Takes C (I.perform (.nativeSet e type value)) s := by
  refine takes_withObject hI fun h t => (hI.eval value t).bind fun v u _ _ => ?_
  split
  · refine takes_bind_ofExcept fun n _ => ?_
    exact (Lifetime.takes_modifyNative hI.exec h type _).map
  · refine takes_bind_ofExcept fun fields _ => ?_
    exact (Lifetime.takes_modifyNative hI.exec h type _).holding.map

theorem takes_attempt (code : Code) : Takes C (I.perform (.attempt code)) s := by
  refine (hI.exec code s).attempt.bind fun result t _ _ => ?_
  split <;> exact takes_pure _

theorem takes_performInvoke (name : String) (args : List Expr) :
    Takes C (I.perform (.invoke name args)) s := by
  refine takes_bind_of_reads (reads_callable name) fun f _ => ?_
  refine (takes_evalAll hI args).holding.bind fun values t _ _ => ?_
  exact (takes_invoke hI.exec f values).map

theorem takes_performCreate (cls : ClassRef) (shape : Shape) (state : Expr) (unmanaged : Bool) :
    Takes C (I.perform (.create cls shape state unmanaged)) s := by
  refine takes_bind_of_reads (reads_classId cls) fun id _ => (hI.eval state s).bind fun v t _ _ => ?_
  exact takes_bind_ofExcept fun fields _ => (Lifetime.takes_create id _ _).map

theorem takes_newObject (cls : String) (shape : Shape) (state : Expr) :
    Takes C (I.perform (.newObject cls shape state)) s := by
  refine (hI.eval state s).bind fun v t _ _ => takes_bind_ofExcept fun fields _ => takes_get ?_
  exact takes_bind_ofExcept fun id _ => (Lifetime.takes_create id _ _).map

theorem takes_performInstall (cls : ClassRef) (seat : String) (e : Expr) :
    Takes C (I.perform (.install cls seat e)) s := by
  refine takes_bind_of_reads (reads_classId cls) fun id _ => (hI.eval e s).bind fun v t _ _ => ?_
  exact takes_bind_ofExcept fun h _ => (Lifetime.takes_install id seat h).map

omit hI in
theorem takes_performUpgrade (name : String) : Takes C (I.perform (.upgrade name)) s := by
  refine takes_get ?_
  split
  · exact (Lifetime.takes_upgrade _).map
  · exact takes_pure _

theorem takes_upgradePair (e : Expr) : Takes C (I.perform (.upgradePair e)) s := by
  refine (hI.eval e s).bind fun v t _ _ => ?_
  split
  · exact (Lifetime.takes_upgrade _).map
  · exact takes_pure _

theorem takes_boxSet (box value : Expr) : Takes C (I.perform (.boxSet box value)) s := by
  refine (hI.eval box s).bind fun u t _ _ => takes_bind_ofExcept fun b _ => ?_
  refine (hI.eval value _).holding.bind fun v w _ _ => ?_
  exact (takes_modify rfl rfl rfl).map

/-- An action takes a course if its parts do, unless it is one of the four that change handlers. -/
theorem takes_perform (a : Action) (hall : a.changesHandlers = true → C.AllowsAll) :
    Takes C (I.perform a) s := by
  cases a with
  | set e => exact hI.eval e s
  | drop name => exact (takes_dropVariable name).map
  | boxSet box value => exact takes_boxSet hI box value
  | boxGet box =>
      exact (hI.eval box s).bind fun _ _ _ _ => takes_bind_ofExcept fun _ _ =>
        takes_get (takes_pure _)
  | log e => exact (hI.eval e s).bind fun _ _ _ _ => (takes_modify rfl rfl rfl).map
  | fail text native => exact takes_fail _
  | attempt code => exact takes_attempt hI code
  | callable name code => exact (takes_modify rfl rfl rfl).map
  | closure name captures code =>
      exact (takes_evalAll hI _).bind fun _ _ _ _ => (takes_modify rfl rfl rfl).map
  | sameCallable name other =>
      exact takes_bind_of_reads (reads_callable other) fun _ _ => (takes_modify rfl rfl rfl).map
  | invoke name args => exact takes_performInvoke hI name args
  | setArg index e => exact (hI.eval e s).bind fun _ _ _ _ => (takes_setArgument index _).map
  | setState type field e => exact takes_setState hI type field e
  | samples => exact Samples.takes_registerSamples.map
  | defineClass spec => exact takes_defineClass hI spec
  | subclass name base overrides => exact takes_defineSubclass name base overrides
  | constant cls name =>
      exact takes_bind_of_reads (reads_classId cls) fun _ _ =>
        takes_get (takes_of_reads (reads_orFail _ _))
  | enumType cls name =>
      exact takes_bind_of_reads (reads_classId cls) fun _ _ =>
        takes_get (takes_bind_orFail fun _ _ => takes_pure _)
  | classInfo cls =>
      exact takes_get (takes_bind_of_reads (reads_classId cls) fun _ _ =>
        takes_bind_ofExcept fun _ _ => takes_pure _)
  | methodInfo cls method => exact takes_get (takes_of_reads (reads_classId cls)).map
  | classTable => exact takes_get (takes_pure _)
  | isSubclass cls base =>
      exact takes_bind_of_reads (reads_classId cls) fun _ _ =>
        takes_get (takes_of_reads (reads_classId base)).map
  | receiverIs cls =>
      exact takes_bind_of_reads reads_receiver fun _ _ =>
        takes_get (takes_of_reads (reads_ofExcept _)).map
  | count cls => exact (takes_of_reads (reads_classId cls)).look
  | instanceCount cls => exact (takes_of_reads (reads_classId cls)).look
  | openStreams => exact takes_get (takes_pure _)
  | reclaim => exact Lifetime.takes_reclaim.map
  | options => exact takes_get (takes_pure _)
  | create cls shape state unmanaged => exact takes_performCreate hI cls shape state unmanaged
  | newObject cls shape state => exact takes_newObject hI cls shape state
  | destroy e => exact takes_withObject hI fun h _ => (Lifetime.takes_destroy h).map
  | isDestroyed e => exact takes_withObject hI fun _ _ => takes_get (takes_pure _)
  | manage e => exact takes_withObject hI fun h _ => (Lifetime.takes_manage h).map
  | unmanage e => exact takes_withObject hI fun h _ => (Lifetime.takes_unmanage h).map
  | handleState e => exact takes_withObject hI fun _ _ => takes_get (takes_pure _)
  | inspect e => exact takes_withObject hI fun _ _ => takes_get (takes_pure _)
  | dup e => exact takes_withObject hI fun h _ => (Lifetime.takes_dup hI.exec h).map
  | assign target source =>
      exact takes_withObjects hI fun h k _ => (Lifetime.takes_assign hI.exec h k).map
  | equals left right =>
      exact takes_withObjects hI fun h k _ => (Lifetime.takes_equals hI.exec h k).map
  | same left right => exact takes_withObjects hI fun _ _ _ => takes_get (takes_pure _)
  | native e type =>
      exact takes_withObject hI fun h _ => (Lifetime.takes_typedState hI.exec h type "native").map
  | nativeSet e type value => exact takes_nativeSet hI e type value
  | remember e name => exact takes_withObject hI fun _ _ => (takes_modify rfl rfl rfl).map
  | upgrade name => exact takes_performUpgrade name
  | upgradePair e => exact takes_upgradePair hI e
  | install cls seat e => exact takes_performInstall hI cls seat e
  | occupant cls seat =>
      exact takes_bind_of_reads (reads_classId cls) fun id _ =>
        (Lifetime.takes_occupant id seat).map
  | call c => exact (takes_performCall hI c).map
  | callBase e method args keywords =>
      refine takes_withObject hI fun h t => (takes_arguments hI args keywords).bind fun given _ _ _ => ?_
      exact (Dispatch.takes_callBase hI.exec h method given).map
  | each e method args keywords block =>
      refine takes_withObject hI fun h t => (takes_arguments hI args keywords).bind fun given _ _ _ => ?_
      exact Dispatch.takes_each hI.exec h method given fun item u => takes_block hI.exec block item
  | eventSet e event name =>
      exact (takes_onHandlers hI (fun r event g => hall rfl r event (.set g)) e event "event_set" name).map
  | eventAdd e event name =>
      exact (takes_onHandlers hI (fun r event g => hall rfl r event (.add g)) e event "event_add" name).map
  | eventRemove e event name =>
      exact (takes_onHandlers hI (fun r event g => hall rfl r event (.remove g)) e event "event_remove" name).map
  | eventClear e event =>
      exact takes_withObject hI fun h _ =>
        (Event.takes_modifyHandlers hI.exec (hall rfl h.target event .clear)).map
  | eventCount e event =>
      exact takes_withObject hI fun h _ => (Event.takes_modifyHandlers hI.exec C.allows_id).map
  | trigger e event args =>
      refine takes_withObject hI fun h t => (takes_evalAll hI args).bind fun given _ _ _ => ?_
      exact (Event.takes_trigger hI.exec h event given).map

/-! ## Expressions and statements -/

section Any

variable (hall : C.AllowsAll)

include hall

theorem takes_evalExpr (e : Expr) : Takes C (I.evalExpr e) s := by
  cases e with
  | lit l => exact takes_pure _
  | enumOf key payload => exact (takes_of_reads (reads_declaredEnum key)).map
  | flagsOf key payload => exact (takes_of_reads (reads_declaredEnum key)).map
  | list items => exact (takes_evalAll hI items).map
  | map entries => exact (takes_evalEntries hI entries).look
  | box e => exact (hI.eval e s).bind fun v _ _ _ => Delivery.takes_newBox v
  | var name => exact takes_of_reads (reads_readVariable name)
  | constView e =>
      exact (hI.eval e s).bind fun _ _ _ _ => takes_bind_ofExcept fun _ _ => takes_pure _
  | arg index => exact takes_of_reads (reads_argument index)
  | argAs index type => exact takes_of_reads (reads_argumentAs index type)
  | argCount => exact (takes_of_reads reads_argumentCount).map
  | receiver => exact (takes_of_reads reads_receiver).map
  | state type field =>
      exact takes_bind_of_reads reads_receiver fun h _ =>
        (Lifetime.takes_typedState hI.exec h type "native").map
  | primitive op operands =>
      exact (takes_evalOperands hI op operands).bind fun _ _ _ _ =>
        takes_get (takes_of_reads (reads_ofExcept _))
  | perform action dest =>
      exact (takes_perform hI action fun _ => hall).bind fun v _ _ _ => (takes_store dest v).map
  | callOut c dest =>
      exact (takes_performCall hI c).bind fun left _ _ _ => (takes_store dest left.1).map

theorem takes_execStmt (stmt : Stmt) : Takes C (I.execStmt stmt) s := by
  cases stmt with
  | perform action dest => exact (takes_perform hI action fun _ => hall).bind fun v _ _ _ => takes_store dest v
  | ret e => exact (hI.eval e s).bind fun _ _ _ _ => takes_finish _
  | brk e => exact (hI.eval e s).bind fun _ _ _ _ => takes_finish _
  | branch condition yes no =>
      refine (hI.eval condition s).bind fun v t _ _ => takes_bind_ofExcept fun b _ => ?_
      split
      · exact hI.exec yes t
      · exact hI.exec no t

theorem takes_execCode (code : Code) : Takes C (I.execCode code) s := by
  induction code generalizing s with
  | nil => exact takes_pure _
  | cons stmt rest ih =>
      refine (takes_execStmt hI hall stmt).bind fun _ t _ _ => ?_
      refine takes_bind_of_reads reads_hasEnded fun ended _ => ?_
      split
      · exact ih
      · exact takes_pure _

end Any

end Interpreter

/-- The lowest level stops at once, and every other one takes a course because the one below does. -/
theorem interpreter_takes (hall : C.AllowsAll) (budget : Nat) :
    (interpreter budget).TakesAll C := by
  have hstops {α : Type} (t : State) : Takes C (throw .exhausted : Run α) t :=
    takes_of_leads rfl (C.refl t)
  induction budget with
  | zero => exact ⟨fun _ t => hstops t, fun _ t => hstops t⟩
  | succ budget ih =>
      refine ⟨fun e s => ?_, fun code s => ?_⟩
      · exact takes_tick.bind fun _ _ _ _ => Interpreter.takes_evalExpr ih hall e
      · exact takes_tick.bind fun _ _ _ _ => Interpreter.takes_execCode ih hall code

/-! ## The operations -/

/-- A statement holds of all operations but those on handlers: of the ones on objects, of calls, of iterations with a
block and of triggers. -/
structure Operations (Holds : ∀ {α : Type}, Run α → Prop) (I : Interpreter) : Prop where
  create : ∀ cls native keep, Holds (Lifetime.create cls native keep)
  construct : ∀ cls args, Holds (Construction.construct I.exec cls args)
  materialize : ∀ h operation, Holds (Lifetime.materialize I.exec h operation)
  dup : ∀ h, Holds (Lifetime.dup I.exec h)
  assign : ∀ target source, Holds (Lifetime.assign I.exec target source)
  equals : ∀ left right, Holds (Lifetime.equals I.exec left right)
  native : ∀ h type, Holds (Lifetime.native I.exec h type)
  modifyNative : ∀ h type f, Holds (Lifetime.modifyNative I.exec h type f)
  destroy : ∀ h, Holds (Lifetime.destroy h)
  manage : ∀ h, Holds (Lifetime.manage h)
  unmanage : ∀ h, Holds (Lifetime.unmanage h)
  reclaim : Holds Lifetime.reclaim
  upgrade : ∀ r, Holds (Lifetime.upgrade r)
  install : ∀ cls name next, Holds (Lifetime.install cls name next)
  occupant : ∀ cls name, Holds (Lifetime.occupant cls name)
  call : ∀ recv method args, Holds (Dispatch.call I.exec recv method args)
  callBase : ∀ recv method args, Holds (Dispatch.callBase I.exec recv method args)
  callStatic : ∀ cls method args, Holds (Dispatch.callStatic I.exec cls method args)
  each : ∀ recv method args code, Holds (Dispatch.each I.exec recv method args (I.runBlock code))
  trigger : ∀ h event args, Holds (Event.trigger I.exec h event args)

/-- What follows from a course that bodies take holds of every operation. -/
theorem operations_of_takes {Holds : ∀ {α : Type}, Run α → Prop} {I : Interpreter} (hexec : Run.TakesAll C I.exec)
    (hholds : ∀ {α : Type} {act : Run α}, Takes C act s → Holds act) : Operations Holds I where
  create cls native keep := hholds (Lifetime.takes_create cls native keep)
  construct cls args := hholds (Construction.takes_construct hexec cls args)
  materialize h operation := hholds (Lifetime.takes_materialize hexec h operation)
  dup h := hholds (Lifetime.takes_dup hexec h)
  assign target source := hholds (Lifetime.takes_assign hexec target source)
  equals left right := hholds (Lifetime.takes_equals hexec left right)
  native h type := hholds (Lifetime.takes_typedState hexec h type "native")
  modifyNative h type f := hholds (Lifetime.takes_modifyNative hexec h type f)
  destroy h := hholds (Lifetime.takes_destroy h)
  manage h := hholds (Lifetime.takes_manage h)
  unmanage h := hholds (Lifetime.takes_unmanage h)
  reclaim := hholds Lifetime.takes_reclaim
  upgrade r := hholds (Lifetime.takes_upgrade r)
  install cls name next := hholds (Lifetime.takes_install cls name next)
  occupant cls name := hholds (Lifetime.takes_occupant cls name)
  call recv method args := hholds (Dispatch.takes_call hexec recv method args)
  callBase recv method args := hholds (Dispatch.takes_callBase hexec recv method args)
  callStatic cls method args := hholds (Dispatch.takes_callStatic hexec cls method args)
  each recv method args code :=
    hholds (Dispatch.takes_each hexec recv method args fun item _ => Interpreter.takes_block hexec code item)
  trigger h event args := hholds (Event.takes_trigger hexec h event args)

/-! ## Orderly scripts, and what scripts do to handlers -/

namespace Interpreter

variable {P : Reference → String → Handlers.Change → Prop} {I : Interpreter}

/-- Evaluations and bodies are orderly, in any state. -/
structure OrderlyAll (I : Interpreter) : Prop where
  eval : ∀ e s, Orderly (I.eval e) s
  exec : Run.OrderlyAll I.exec

/-- Evaluations and bodies change handlers only in an allowed way, in any state. -/
structure PerformsAll (P : Reference → String → Handlers.Change → Prop) (I : Interpreter) : Prop where
  eval : ∀ e s, Performs P (I.eval e) s
  exec : Run.PerformsAll P I.exec

theorem OrderlyAll.takes (hI : I.OrderlyAll) : I.TakesAll .orderly :=
  ⟨fun e s => (hI.eval e s).takes, hI.exec.takes⟩

theorem PerformsAll.takes (hI : I.PerformsAll P) : I.TakesAll (.performing P) :=
  ⟨fun e s => (hI.eval e s).takes, hI.exec.takes⟩

end Interpreter

theorem interpreter_orderly (budget : Nat) : (interpreter budget).OrderlyAll := by
  have hI := interpreter_takes Course.allowsAll_orderly budget
  exact ⟨fun e s => (hI.eval e s).orderly, fun code s => (hI.exec code s).orderly⟩

theorem interpreter_performs {P : Reference → String → Handlers.Change → Prop} (hany : ∀ r event c, P r event c)
    (budget : Nat) : (interpreter budget).PerformsAll P := by
  have hI := interpreter_takes (Course.allowsAll_performing hany) budget
  exact ⟨fun e s => (hI.eval e s).performs, fun code s => (hI.exec code s).performs⟩

end Script

end ObjectBridge
