import ObjectBridge.Proofs.Call.Mirror
import ObjectBridge.Proofs.Script.Restricted

/-!
# Scripts that follow one another

A script follows the same script that is stopped at the requests that are refused, action by action.  Where a request is
not refused, what the mirror says about it is what the action needs.

* `Mirror.Leads` — one level of the restricted interpreter, and one of the interpreter that follows it.
* `Restricted.follows_perform` — every action.
* `leads_restricted` — all levels.
-/

namespace ObjectBridge

open Run Mirror

/-- Evaluations, bodies and constructions follow one another, in all states. -/
structure Mirror.Leads (M : Mirror) (I I' : Script.Interpreter) : Prop where
  eval : ∀ e s s', M.Follows (I.eval e) (I'.eval e) s s'
  makes : M.Makes I.exec I'.exec
  construct : ∀ cls args s s', M.refuses s (.construct cls args) = false →
    M.Follows (Construction.construct I.exec cls args) (Construction.construct I'.exec cls args) s s'

variable {M : Mirror} {s s' : State}

namespace Script

/-! ## Names -/

theorem follows_modifyActivation (f : Activation → Activation) :
    M.Follows (modifyActivation f) (modifyActivation f) s s' :=
  follows_modify (fun _ _ _ => rfl) (fun _ hfree => hfree) fun _ => rfl

theorem follows_setVariable (name : String) (v : Value) :
    M.Follows (setVariable name v) (setVariable name v) s s' := by
  unfold setVariable
  split
  · exact follows_modifyActivation _
  · exact follows_modify (fun _ _ _ => rfl) (fun _ hfree => hfree) fun _ => rfl

theorem follows_dropVariable (name : String) : M.Follows (dropVariable name) (dropVariable name) s s' := by
  unfold dropVariable
  dsimp only
  split
  · exact follows_modifyActivation _
  · exact follows_modify (fun _ _ _ => rfl) (fun _ hfree => hfree) fun _ => rfl

theorem follows_store (dest : Option String) (v : Value) : M.Follows (store dest v) (store dest v) s s' := by
  cases dest with
  | none => exact follows_pure _
  | some name => exact follows_setVariable name v

theorem follows_newCallable (name : String) (captured : List (String × Value)) (code : Code) :
    M.Follows (newCallable name captured code) (newCallable name captured code) s s' :=
  follows_modify (fun _ _ _ => rfl) (fun _ hfree => hfree) fun _ => rfl

theorem follows_readVariable (name : String) : M.Follows (readVariable name) (readVariable name) s s' := by
  refine follows_of_between fun hs => ?_
  obtain ⟨w, l, rfl⟩ := hs.exists_eq
  exact follows_get (follows_pure _)

theorem follows_callable (name : String) : M.Follows (callable name) (callable name) s s' := by
  refine follows_of_between fun hs => ?_
  obtain ⟨w, l, rfl⟩ := hs.exists_eq
  exact follows_get (follows_orFail _ rfl)

theorem follows_declaredEnum (key : String) : M.Follows (declaredEnum key) (declaredEnum key) s s' := by
  refine follows_of_between fun hs => ?_
  obtain ⟨w, l, rfl⟩ := hs.exists_eq
  exact follows_get (follows_orFail _ rfl)

theorem follows_hasEnded : M.Follows hasEnded hasEnded s s' := by
  refine follows_of_between fun hs => ?_
  obtain ⟨w, l, rfl⟩ := hs.exists_eq
  exact follows_get (follows_pure _)

theorem follows_argument (index : Nat) : M.Follows (argument index) (argument index) s s' := by
  refine follows_of_between fun hs => ?_
  obtain ⟨w, l, rfl⟩ := hs.exists_eq
  refine follows_get ?_
  dsimp only
  split
  · exact follows_pure _
  · split <;> exact follows_pure _

theorem follows_argumentAs (index : Nat) (type : NativeType) :
    M.Follows (argumentAs index type) (argumentAs index type) s s' := by
  refine (follows_argument index).bind fun v t t' _ _ => follows_of_between fun ht => ?_
  obtain ⟨w, l, rfl⟩ := ht.exists_eq
  refine follows_get ?_
  dsimp only
  split
  · exact follows_bind_same rfl fun _ _ => follows_pure _
  · exact follows_bind_same rfl fun _ _ => follows_pure _
  · exact follows_pure _

theorem follows_argumentCount : M.Follows argumentCount argumentCount s s' := by
  refine follows_of_between fun hs => ?_
  obtain ⟨w, l, rfl⟩ := hs.exists_eq
  refine follows_get ?_
  dsimp only
  split
  · exact follows_pure _
  · split <;> exact follows_pure _

theorem follows_receiver : M.Follows receiver receiver s s' := by
  refine follows_of_between fun hs => ?_
  obtain ⟨w, l, rfl⟩ := hs.exists_eq
  refine follows_get ?_
  dsimp only
  split
  · exact follows_fail _
  · split
    · exact follows_pure _
    · exact follows_fail _
    · exact follows_fail _

theorem follows_classId (cls : ClassRef) : M.Follows (classId cls) (classId cls) s s' := by
  cases cls with
  | numbered id => exact follows_pure id
  | named name => exact follows_of_between fun hs => follows_get (follows_ofExcept (hs.classes.require_eq name))

/-! ## Written classes -/

theorem follows_resolveType (type : TypeSpec) : M.Follows type.resolve type.resolve s s' := by
  induction type generalizing s s' with
  | enum key => exact (follows_declaredEnum key).map
  | flags key => exact (follows_declaredEnum key).map
  | list item ih => exact ih.map
  | map key value ihKey ihValue => exact ihKey.bind fun _ _ _ _ _ => ihValue.map
  | _ => exact follows_pure _

theorem follows_declaredEnums (keys : List String) : M.Follows (declaredEnums keys) (declaredEnums keys) s s' := by
  induction keys generalizing s s' with
  | nil => exact follows_pure _
  | cons key rest ih => exact (follows_declaredEnum key).bind fun _ _ _ _ _ => ih.map

theorem follows_resolveCallables (overrides : List (String × String)) :
    M.Follows (Interpreter.resolveCallables overrides) (Interpreter.resolveCallables overrides) s s' := by
  induction overrides generalizing s s' with
  | nil => exact follows_pure _
  | cons entry rest ih => exact (follows_callable entry.2).bind fun _ _ _ _ _ => ih.map

section Definition

variable {eval eval' : Expr → Run Value} (heval : ∀ e t t', M.Follows (eval e) (eval' e) t t')

include heval

theorem follows_resolveParams (params : List (ParamSpec Expr)) :
    M.Follows (resolveParams eval params) (resolveParams eval' params) s s' := by
  induction params generalizing s s' with
  | nil => exact follows_pure _
  | cons p rest ih =>
      have hparam : M.Follows (p.resolve eval) (p.resolve eval') s s' := by
        refine (follows_resolveType p.type).bind fun type t t' _ _ => ?_
        split
        · exact follows_pure _
        · exact (heval _ t t').map
      exact hparam.bind fun q t t' _ _ => ih.holding.map

theorem follows_resolveSignature (sig : SignatureSpec Expr) :
    M.Follows (sig.resolve eval) (sig.resolve eval') s s' := by
  refine (follows_resolveParams heval sig.params).bind fun params t t' _ _ => ?_
  split
  · exact follows_pure _
  · exact (follows_resolveType _).bind fun _ _ _ _ _ => follows_pure _

theorem follows_evalNamed (entries : List (String × Expr)) :
    M.Follows (evalNamed eval entries) (evalNamed eval' entries) s s' := by
  induction entries generalizing s s' with
  | nil => exact follows_pure _
  | cons entry rest ih => exact (heval entry.2 s s').bind fun v t t' _ _ => ih.holding.map

theorem follows_addTo (shape : Shape) (d : ClassDraft) (m : Member Expr Stmt) :
    M.Follows (m.addTo eval shape d) (m.addTo eval' shape d) s s' := by
  cases m with
  | «constructor» sig code => exact (follows_resolveSignature heval sig).map
  | lazy code => exact follows_pure _
  | method name sig code => exact (follows_resolveSignature heval sig).map
  | iterator name sig code failAt => exact (follows_resolveSignature heval sig).map
  | «attribute» name type => exact (follows_resolveType type).map
  | event name params => exact (follows_resolveParams heval params).map
  | constant name e => exact (heval e s s').map
  | enum key => exact (follows_declaredEnum key).map
  | mixin name constants enums =>
      exact (follows_evalNamed heval constants).bind fun named t t' _ _ => (follows_declaredEnums enums).map

theorem follows_resolveClass (spec : ClassSpec Expr Stmt) :
    M.Follows (spec.resolve eval) (spec.resolve eval') s s' := by
  have hmembers (members : List (Member Expr Stmt)) (d : ClassDraft) (t t' : State) :
      M.Follows (addMembers eval spec.shape d members) (addMembers eval' spec.shape d members) t t' := by
    induction members generalizing d t t' with
    | nil => exact follows_pure d
    | cons m rest ih => exact (follows_addTo heval spec.shape d m).holding.bind fun d' u u' _ _ => ih d' u u'
  exact hmembers spec.members _ s s'

end Definition

/-! ## New classes -/

/-- A class is added to both tables, unless its name is taken in both of them. -/
theorem follows_register {α : Type} {c : ClassInfo} {f f' : ClassId → Run α} (hid : c.id = s.classes.nextId)
    (hclasses : M.Between s s' → M.classes (s.classes.snoc c) (s'.classes.snoc c))
    (hf : ∀ id t t', M.Follows (f id) (f' id) t t') :
    M.Follows
      (do
        let (id, classes) ← ofExcept (s.classes.register c)
        modify fun s => { s with classes := classes }
        f id)
      (do
        let (id, classes) ← ofExcept (s'.classes.register c)
        modify fun s => { s with classes := classes }
        f' id) s s' := by
  refine follows_of_between fun hs => ?_
  rw [hs.classes.register_eq]
  cases hreg : s.classes.register c with
  | error e => exact follows_fail e
  | ok added =>
      obtain ⟨id, t⟩ := added
      obtain ⟨-, rfl⟩ := ClassTable.register_cases hreg
      have hadd : M.Follows (modify fun u => { u with classes := s.classes.snoc c } : Run PUnit)
          (modify fun u => { u with classes := s'.classes.snoc c }) s s' :=
        fun _ _ => ⟨rfl, hs.snoc hid (hclasses hs), rfl⟩
      have hwhole := hadd.bind fun _ t t' _ _ => hf id t t'
      exact hwhole

theorem follows_define {α : Type} {d : ClassDraft} (hgranted : M.refuses s (.define d) = false)
    (f f' : ClassId → Run α) (hf : ∀ id t t', M.Follows (f id) (f' id) t t') :
    M.Follows
      (do
        let (id, classes) ← ofExcept ((← get).classes.define d)
        modify fun s => { s with classes := classes }
        f id)
      (do
        let (id, classes) ← ofExcept ((← get).classes.define d)
        modify fun s => { s with classes := classes }
        f' id) s s' := by
  refine follows_of_between fun hs => follows_get ?_
  rw [ClassTable.define, ClassTable.define, hs.classes.build_eq]
  cases hbuild : s.classes.build d with
  | error e => exact follows_fail e
  | ok c =>
      exact follows_register (ClassTable.build_cases hbuild).1
        (fun hs => M.define hs.worlds.classes hgranted hbuild) hf

theorem follows_defineSubclass (name base : String) (overrides : List (String × String)) :
    M.Follows (Interpreter.defineSubclass name base overrides) (Interpreter.defineSubclass name base overrides)
      s s' := by
  refine (follows_resolveCallables overrides).bind fun callables t t' _ _ => ?_
  refine follows_of_between fun ht => follows_get ?_
  rw [ClassTable.defineSubclass_eq, ClassTable.defineSubclass_eq, ht.classes.describeSubclass_eq]
  cases hdescribe : t.classes.describeSubclass name base callables with
  | error e => exact follows_fail e
  | ok c =>
      exact follows_register (ClassTable.describeSubclass_cases hdescribe).1
        (fun ht => M.defineSubclass ht.worlds.classes hdescribe) fun _ _ _ => follows_pure _

namespace Interpreter

variable {I I' : Interpreter}

/-! ## Questions about classes -/

theorem follows_methodInfo (cls : ClassRef) (method : String) :
    M.Follows (I.perform (.methodInfo cls method)) (I'.perform (.methodInfo cls method)) s s' := by
  refine follows_of_between fun hs => follows_get ((follows_classId cls).bind fun id t t' _ _ => ?_)
  rw [hs.classes.methodSummary_eq, hs.cells_eq]
  exact follows_pure _

theorem follows_constant (cls : ClassRef) (name : String) :
    M.Follows (I.perform (.constant cls name)) (I'.perform (.constant cls name)) s s' := by
  refine (follows_classId cls).bind fun id t t' _ _ => follows_of_between fun ht => follows_get ?_
  dsimp only
  rw [ht.classes.nameOf_eq]
  exact follows_orFail _ (ht.classes.constant?_eq id name)

theorem follows_enumType (cls : ClassRef) (name : String) :
    M.Follows (I.perform (.enumType cls name)) (I'.perform (.enumType cls name)) s s' := by
  refine (follows_classId cls).bind fun id t t' _ _ => follows_of_between fun ht => follows_get ?_
  dsimp only
  rw [ht.classes.nameOf_eq]
  exact follows_bind_orFail_same (ht.classes.enumType?_eq id name) _ fun _ _ => follows_pure _

theorem follows_isSubclass (cls base : ClassRef) :
    M.Follows (I.perform (.isSubclass cls base)) (I'.perform (.isSubclass cls base)) s s' := by
  refine (follows_classId cls).bind fun id t t' _ _ => follows_of_between fun ht => follows_get ?_
  refine (follows_classId base).bind fun ancestor u u' _ _ => ?_
  rw [ht.classes.isSubclassOf_eq]
  exact follows_pure _

theorem follows_receiverIs (cls : String) :
    M.Follows (I.perform (.receiverIs cls)) (I'.perform (.receiverIs cls)) s s' := by
  refine follows_receiver.bind fun recv t t' _ _ => follows_of_between fun ht => follows_get ?_
  refine follows_bind_same (ht.classes.require_eq cls) fun id _ => ?_
  rw [ht.classes.isSubclassOf_eq]
  exact follows_pure _

theorem follows_performUpgrade (name : String) :
    M.Follows (I.perform (.upgrade name)) (I'.perform (.upgrade name)) s s' := by
  refine follows_of_between fun hs => follows_get ?_
  have hreferences : s'.references = s.references := hs.congr State.references fun _ _ _ => rfl
  rw [hreferences]
  split
  · exact (Lifetime.follows_upgrade _).map
  · exact follows_pure _

variable (hI : M.Leads I I')

include hI

theorem follows_evalOutside (e : Expr) : M.Follows (I.evalOutside e) (I'.evalOutside e) s s' :=
  Follows.within (hI.eval e _ _) (fun _ _ _ => rfl) (fun _ _ _ => rfl) (fun _ hfree => ⟨hfree, hfree⟩) id
    fun _ h => h

/-! ## Operands -/

theorem follows_evalAll (es : List Expr) : M.Follows (I.evalAll es) (I'.evalAll es) s s' := by
  induction es generalizing s s' with
  | nil => exact follows_pure _
  | cons e rest ih => exact (hI.eval e s s').bind fun v t t' _ _ => ih.holding.map

theorem follows_evalEntries (es : List (Expr × Expr)) : M.Follows (I.evalEntries es) (I'.evalEntries es) s s' := by
  induction es generalizing s s' with
  | nil => exact follows_pure _
  | cons entry rest ih =>
      refine (hI.eval entry.1 s s').bind fun k t t' _ _ => ?_
      exact (hI.eval entry.2 _ _).holding.bind fun v u u' _ _ => ih.holding.map

theorem follows_evalOperands (op : Primitive) (es : List Expr) :
    M.Follows (I.evalOperands op es) (I'.evalOperands op es) s s' := by
  induction es generalizing s s' with
  | nil => exact follows_pure _
  | cons e rest ih =>
      refine (hI.eval e s s').bind fun v t t' _ _ => follows_of_between fun ht => follows_get ?_
      have hkeep : op.keep t'.toWorld v = op.keep t.toWorld v := by
        cases op <;> simp only [Primitive.keep, ht.cells_eq]
      exact follows_bind_same hkeep fun kept _ => ih.holding.map

theorem follows_arguments (args : List Expr) (keywords : List (String × Expr)) :
    M.Follows (I.arguments args keywords) (I'.arguments args keywords) s s' :=
  (follows_evalAll hI args).bind fun _ _ _ _ _ => (follows_evalAll hI _).holding.map

theorem follows_withObject {α : Type} {e : Expr} {act act' : Handle → Run α}
    (hact : ∀ h t t', M.Follows (act h) (act' h) t t') :
    M.Follows (I.withObject e act) (I'.withObject e act') s s' := by
  refine (hI.eval e s s').bind fun v t t' _ _ => follows_bind_same rfl fun h _ => ?_
  exact (hact h _ _).holding

theorem follows_withObjects {α : Type} {left right : Expr} {act act' : Handle → Handle → Run α}
    (hact : ∀ h k t t', M.Follows (act h k) (act' h k) t t') :
    M.Follows (I.withObjects left right act) (I'.withObjects left right act') s s' :=
  follows_withObject hI fun h _ _ => follows_withObject hI fun k _ _ => hact h k _ _

theorem follows_onHandlers (object : Expr) (event operation name : String) (f : Handlers → Callable → Handlers) :
    M.Follows (I.onHandlers object event operation name f) (I'.onHandlers object event operation name f) s s' := by
  refine follows_withObject hI fun h t t' => (follows_callable name).bind fun g u u' _ _ => ?_
  exact (Event.follows_modifyHandlers hI.makes h event operation _).holding.map

/-- A block runs in a frame of host code for every item. -/
theorem follows_block (code : Code) (item : Value) :
    M.Follows (inHostFrame .host (I.runBlock code item)) (inHostFrame .host (I'.runBlock code item)) s s' :=
  Follows.inHostFrame fun _ _ => (Follows.activate (hI.makes.bodies code)).map

/-! ## Actions that nothing refuses -/

theorem follows_attempt (code : Code) : M.Follows (I.perform (.attempt code)) (I'.perform (.attempt code)) s s' := by
  refine (hI.makes.bodies code s s').attempt.bind fun result t t' _ _ => ?_
  split <;> exact follows_pure _

theorem follows_performInvoke (name : String) (args : List Expr) :
    M.Follows (I.perform (.invoke name args)) (I'.perform (.invoke name args)) s s' := by
  refine (follows_callable name).bind fun f t t' _ _ => ?_
  refine (follows_evalAll hI args).holding.bind fun values u u' _ _ => ?_
  exact (Mirror.follows_invoke hI.makes.bodies f none values).map

theorem follows_setState (type field : String) (e : Expr) :
    M.Follows (I.perform (.setState type field e)) (I'.perform (.setState type field e)) s s' := by
  refine (hI.eval e s s').bind fun v t t' _ _ => follows_receiver.bind fun recv u u' _ _ => ?_
  exact (Lifetime.follows_modifyNative hI.makes recv type _).holding.map

theorem follows_nativeSet (e : Expr) (type : String) (value : Expr) :
    M.Follows (I.perform (.nativeSet e type value)) (I'.perform (.nativeSet e type value)) s s' := by
  refine follows_withObject hI fun h t t' => (hI.eval value t t').bind fun v u u' _ _ => ?_
  split
  · exact follows_bind_same rfl fun n _ => (Lifetime.follows_modifyNative hI.makes h type _).map
  · exact follows_bind_same rfl fun fields _ => (Lifetime.follows_modifyNative hI.makes h type _).holding.map

theorem follows_boxSet (box value : Expr) :
    M.Follows (I.perform (.boxSet box value)) (I'.perform (.boxSet box value)) s s' := by
  refine (hI.eval box s s').bind fun u t t' _ _ => follows_bind_same rfl fun b _ => ?_
  refine (hI.eval value _ _).holding.bind fun v w w' _ _ => ?_
  refine Follows.map ?_
  exact fun hw _ => ⟨rfl, hw.setCells (congrArg (fun cells => cells.setIfInBounds b v) hw.cells_eq), rfl⟩

theorem follows_log (e : Expr) : M.Follows (I.perform (.log e)) (I'.perform (.log e)) s s' := by
  refine (hI.eval e s s').bind fun v t t' _ _ => Follows.map ?_
  exact fun ht _ => ⟨rfl, ht.logged v, rfl⟩

theorem follows_performCreate (cls : ClassRef) (shape : Shape) (state : Expr) (unmanaged : Bool) :
    M.Follows (I.perform (.create cls shape state unmanaged)) (I'.perform (.create cls shape state unmanaged))
      s s' := by
  refine (follows_classId cls).bind fun id t t' _ _ => (hI.eval state t t').bind fun v u u' _ _ => ?_
  exact follows_bind_same rfl fun fields _ => (Lifetime.follows_create id _ _).map

theorem follows_newObject (cls : String) (shape : Shape) (state : Expr) :
    M.Follows (I.perform (.newObject cls shape state)) (I'.perform (.newObject cls shape state)) s s' := by
  refine (hI.eval state s s').bind fun v t t' _ _ => follows_bind_same rfl fun fields _ => ?_
  refine follows_of_between fun ht => follows_get ?_
  exact follows_bind_same (ht.classes.require_eq cls) fun id _ => (Lifetime.follows_create id _ _).map

theorem follows_upgradePair (e : Expr) :
    M.Follows (I.perform (.upgradePair e)) (I'.perform (.upgradePair e)) s s' := by
  refine (hI.eval e s s').bind fun v t t' _ _ => ?_
  split
  · exact (Lifetime.follows_upgrade _).map
  · exact follows_pure _

/-- An action on an object that only looks at the state. -/
theorem follows_look {e : Expr} (look : State → Handle → Value)
    (hlook : ∀ h t t', M.Between t t' → look t' h = look t h) :
    M.Follows (I.withObject e fun h => do return look (← get) h) (I'.withObject e fun h => do return look (← get) h)
      s s' := by
  refine follows_withObject hI fun h t t' => follows_of_between fun ht => follows_get ?_
  rw [hlook h t t' ht]
  exact follows_pure _

theorem follows_methodCall {object : Expr} {method : String} {args : List Expr} {keywords : List (String × Expr)}
    {allowOverride : Bool} :
    M.Follows
      (I.withObject object fun h => do
        Dispatch.invoke I.exec h method (← I.arguments args keywords) allowOverride)
      (I'.withObject object fun h => do
        Dispatch.invoke I'.exec h method (← I'.arguments args keywords) allowOverride) s s' :=
  follows_withObject hI fun h _ _ => (follows_arguments hI args keywords).bind fun given _ _ _ _ =>
    Dispatch.follows_call hI.makes h method given allowOverride

end Interpreter

/-! ## Actions that may be refused -/

namespace Restricted

variable {I I' : Interpreter} (hI : M.Leads I I')

include hI

theorem follows_performCall (c : Call) : M.Follows (performCall M.refuses I c) (I'.performCall c) s s' := by
  cases c with
  | construct cls args keywords =>
      refine (follows_classId cls).bind fun id t t' _ _ => ?_
      refine (Interpreter.follows_arguments hI args keywords).bind fun given u u' _ _ => ?_
      exact follows_ask fun hgranted => (hI.construct id given u u' hgranted).map
  | method e method args keywords => exact Interpreter.follows_methodCall hI
  | static cls method args keywords =>
      refine (follows_classId cls).bind fun id t t' _ _ => ?_
      refine (Interpreter.follows_arguments hI args keywords).bind fun given u u' _ _ => ?_
      exact Dispatch.follows_callStatic hI.makes id method given

theorem follows_defineClass (spec : ClassSpec Expr Stmt) :
    M.Follows (defineClass M.refuses I spec) (I'.defineClass spec) s s' := by
  refine (follows_resolveClass (fun e _ _ => Interpreter.follows_evalOutside hI e) spec).bind fun d t t' _ _ => ?_
  refine follows_ask fun hgranted => ?_
  exact follows_define hgranted (fun id => pure (ClassTable.number id)) (fun id => pure (ClassTable.number id))
    fun _ _ _ => follows_pure _

omit hI in
theorem follows_registerAll (drafts : List ClassDraft) :
    M.Follows (registerAll M.refuses drafts) (Samples.registerAll drafts) s s' := by
  induction drafts generalizing s s' with
  | nil => exact follows_pure _
  | cons d rest ih =>
      have hsplit : registerAll M.refuses (d :: rest) = (ask M.refuses (.define d) >>= fun _ => do
          let (_, classes) ← ofExcept ((← get).classes.define d)
          modify fun s => { s with classes := classes }
          registerAll M.refuses rest) := by
        simp only [registerAll, Samples.registerAll, bind_assoc, pure_bind]
      rw [hsplit]
      refine follows_ask fun hgranted => ?_
      exact follows_define hgranted (fun _ => registerAll M.refuses rest) (fun _ => Samples.registerAll rest)
        fun _ _ _ => ih

omit hI in
theorem follows_samples : M.Follows (perform M.refuses I .samples) (I'.perform .samples) s s' := by
  have hrest : I'.perform .samples = (Samples.registerAll Samples.library >>= fun _ => do
      modify fun s => { s with
        enums := put "UEnum" Samples.unsignedEnum (put "Enum" Samples.signedEnum s.enums) }
      return .nil) := by
    simp only [Interpreter.perform, Samples.register, bind_assoc]
  rw [hrest]
  refine (follows_registerAll Samples.library).bind fun _ t t' _ _ => Follows.map ?_
  exact follows_modify (fun _ _ _ => rfl) (fun _ hfree => hfree) fun _ => rfl

omit hI in
/-- A class is described alike if it may be described. -/
theorem follows_classInfo (cls : ClassRef) :
    M.Follows (perform M.refuses I (.classInfo cls)) (I'.perform (.classInfo cls)) s s' := by
  -- A name is looked up first, so that it is asked for a number on both sides.
  have hsplit : I'.perform (.classInfo cls) = (classId cls >>= fun id => I'.perform (.classInfo (.numbered id))) := by
    refine eq_of_outcome_eq fun s => ?_
    cases cls with
    | numbered id => rfl
    | named name =>
        show (ofExcept (s.classes.require name) >>= fun id => do
            let c ← ofExcept (s.classes.descriptor id)
            return s.classes.summary s.cells c).outcome s =
          (ofExcept (s.classes.require name) >>= fun id => I'.perform (.classInfo (.numbered id))).outcome s
        cases s.classes.require name <;> rfl
  rw [hsplit]
  refine (follows_classId cls).bind fun id t t' _ _ => follows_ask fun hgranted => ?_
  refine follows_of_between fun ht => follows_get ?_
  refine follows_bind_ofExcept (Lifetime.descriptor_matched ht.classes id) fun c c' hc _ houtline => ?_
  obtain ⟨hlazy, hconstructors⟩ := M.describe ht.worlds.classes hgranted hc
  rw [ht.cells_eq, ht.classes.summary_eq t.cells houtline hlazy hconstructors]
  exact follows_pure _

omit hI in
theorem follows_count (cls : ClassRef) :
    M.Follows (perform M.refuses I (.count cls)) (I'.perform (.count cls)) s s' := by
  refine (follows_classId cls).bind fun id t t' _ _ => follows_ask fun hgranted => ?_
  refine follows_of_between fun ht => follows_get ?_
  obtain ⟨hself, hfamily⟩ := M.count hgranted
  have hall : Lifetime.familyCount t' id = Lifetime.familyCount t id := by
    rw [Lifetime.familyCount, Lifetime.familyCount, ht.classes.descendants_eq]
    exact ht.arena.foldl_instanceCount_eq hfamily 0
  rw [hall, ht.arena.count_eq id hself]
  exact follows_pure _

omit hI in
theorem follows_instanceCount (cls : ClassRef) :
    M.Follows (perform M.refuses I (.instanceCount cls)) (I'.perform (.instanceCount cls)) s s' := by
  refine (follows_classId cls).bind fun id t t' _ _ => follows_ask fun hgranted => ?_
  refine follows_of_between fun ht => follows_get ?_
  rw [ht.arena.count_eq id (M.instanceCount hgranted)]
  exact follows_pure _

theorem follows_performInstall (cls : ClassRef) (seat : String) (e : Expr) :
    M.Follows (perform M.refuses I (.install cls seat e)) (I'.perform (.install cls seat e)) s s' := by
  refine (follows_classId cls).bind fun id t t' _ _ => (hI.eval e t t').bind fun v u u' _ _ => ?_
  refine follows_bind_same rfl fun h _ => follows_ask fun hgranted => ?_
  exact (Lifetime.follows_install (M.install hgranted) id seat h).map

/-- Every action follows the same action that is not stopped. -/
theorem follows_perform (a : Action) : M.Follows (perform M.refuses I a) (I'.perform a) s s' := by
  cases a with
  | set e => exact hI.eval e s s'
  | drop name => exact (follows_dropVariable name).map
  | boxSet box value => exact Interpreter.follows_boxSet hI box value
  | boxGet box =>
      refine (hI.eval box s s').bind fun v t t' _ _ => follows_bind_same rfl fun b _ => ?_
      refine follows_of_between fun ht => follows_get ?_
      rw [ht.cells_eq]
      exact follows_pure _
  | log e => exact Interpreter.follows_log hI e
  | fail text native => exact follows_fail _
  | attempt code => exact Interpreter.follows_attempt hI code
  | callable name code => exact (follows_newCallable name [] code).map
  | closure name captures code =>
      exact (Interpreter.follows_evalAll hI _).bind fun values t t' _ _ => (follows_newCallable name _ code).map
  | sameCallable name other =>
      refine (follows_callable other).bind fun f t t' _ _ => Follows.map ?_
      exact follows_modify (fun _ _ _ => rfl) (fun _ hfree => hfree) fun _ => rfl
  | invoke name args => exact Interpreter.follows_performInvoke hI name args
  | setArg index e =>
      exact (hI.eval e s s').bind fun v t t' _ _ => (follows_modifyActivation _).map
  | setState type field e => exact Interpreter.follows_setState hI type field e
  | samples => exact follows_samples
  | defineClass spec => exact follows_defineClass hI spec
  | subclass name base overrides => exact follows_defineSubclass name base overrides
  | constant cls name => exact Interpreter.follows_constant (I := I) cls name
  | enumType cls name => exact Interpreter.follows_enumType (I := I) cls name
  | classInfo cls => exact follows_classInfo cls
  | methodInfo cls method => exact Interpreter.follows_methodInfo (I := I) cls method
  | classTable =>
      refine follows_of_between fun hs => follows_get ?_
      rw [hs.classes.tableSummary_eq]
      exact follows_pure _
  | isSubclass cls base => exact Interpreter.follows_isSubclass (I := I) cls base
  | receiverIs cls => exact Interpreter.follows_receiverIs (I := I) cls
  | count cls => exact follows_count cls
  | instanceCount cls => exact follows_instanceCount cls
  | openStreams =>
      refine follows_of_between fun hs => ?_
      obtain ⟨w, l, rfl⟩ := hs.exists_eq
      exact follows_get (follows_pure _)
  | reclaim =>
      exact follows_ask fun hgranted => (Lifetime.follows_reclaim (M.reclaim hgranted)).map
  | options =>
      refine follows_of_between fun hs => ?_
      obtain ⟨w, l, rfl⟩ := hs.exists_eq
      exact follows_get (follows_pure _)
  | create cls shape state unmanaged => exact Interpreter.follows_performCreate hI cls shape state unmanaged
  | newObject cls shape state => exact Interpreter.follows_newObject hI cls shape state
  | destroy e =>
      exact Interpreter.follows_withObject hI fun h _ _ => follows_ask fun hgranted =>
        (Lifetime.follows_destroy (M.destroy hgranted) h).map
  | isDestroyed e =>
      exact Interpreter.follows_look hI _ fun h t t' ht => congrArg Value.bool (ht.arena.isDestroyed_eq h)
  | manage e => exact Interpreter.follows_withObject hI fun h _ _ => (Lifetime.follows_manage h).map
  | unmanage e => exact Interpreter.follows_withObject hI fun h _ _ => (Lifetime.follows_unmanage h).map
  | handleState e =>
      exact Interpreter.follows_look hI _ fun h t t' ht =>
        congrArg (fun state : HandleState => Value.text state.name) (ht.arena.handleState_eq h)
  | inspect e =>
      refine Interpreter.follows_look hI
        (fun s h => .list [.text (Lifetime.inspect s.toWorld h), .text (Lifetime.handleText s.toWorld h)])
        fun h t t' ht => ?_
      rw [ht.twin.inspect_eq, ht.twin.handleText_eq]
  | dup e =>
      exact Interpreter.follows_withObject hI fun h _ _ => (Lifetime.follows_dup hI.makes h).map
  | assign target source =>
      exact Interpreter.follows_withObjects hI fun h k _ _ => (Lifetime.follows_assign hI.makes h k).map
  | equals left right =>
      exact Interpreter.follows_withObjects hI fun h k _ _ => (Lifetime.follows_equals hI.makes h k).map
  | same left right =>
      refine Interpreter.follows_withObjects hI fun h k t t' => follows_of_between fun ht => follows_get ?_
      have heqv : t'.eqv = t.eqv := ht.twin.eqv_eq
      rw [heqv]
      exact follows_pure _
  | native e type =>
      exact Interpreter.follows_withObject hI fun h _ _ =>
        (Lifetime.follows_typedState hI.makes h type "native").map
  | nativeSet e type value => exact Interpreter.follows_nativeSet hI e type value
  | remember e name =>
      refine Interpreter.follows_withObject hI fun h _ _ => Follows.map ?_
      exact follows_modify (fun _ _ _ => rfl) (fun _ hfree => hfree) fun _ => rfl
  | upgrade name => exact Interpreter.follows_performUpgrade (I := I) name
  | upgradePair e => exact Interpreter.follows_upgradePair hI e
  | install cls seat e => exact follows_performInstall hI cls seat e
  | occupant cls seat =>
      exact (follows_classId cls).bind fun id _ _ _ _ => (Lifetime.follows_occupant id seat).map
  | call c => exact (follows_performCall hI c).map
  | callBase e method args keywords =>
      refine Interpreter.follows_withObject hI fun h t t' =>
        (Interpreter.follows_arguments hI args keywords).bind fun given _ _ _ _ => ?_
      exact (Dispatch.follows_call hI.makes h method given false).map
  | each e method args keywords block =>
      refine Interpreter.follows_withObject hI fun h t t' =>
        (Interpreter.follows_arguments hI args keywords).bind fun given _ _ _ _ => ?_
      exact Dispatch.follows_each hI.makes h method given fun item _ _ => Interpreter.follows_block hI block item
  | eventSet e event name => exact (Interpreter.follows_onHandlers hI e event "event_set" name _).map
  | eventAdd e event name => exact (Interpreter.follows_onHandlers hI e event "event_add" name _).map
  | eventRemove e event name => exact (Interpreter.follows_onHandlers hI e event "event_remove" name _).map
  | eventClear e event =>
      exact Interpreter.follows_withObject hI fun h _ _ =>
        (Event.follows_modifyHandlers hI.makes h event "event_clear" _).map
  | eventCount e event =>
      exact Interpreter.follows_withObject hI fun h _ _ =>
        (Event.follows_modifyHandlers hI.makes h event "event_handler_count" _).map
  | trigger e event args =>
      refine Interpreter.follows_withObject hI fun h t t' =>
        (Interpreter.follows_evalAll hI args).bind fun given _ _ _ _ => ?_
      exact (Event.follows_trigger hI.makes h event given).map

/-! ## Expressions and statements -/

theorem follows_evalExpr (e : Expr) : M.Follows (evalExpr M.refuses I e) (I'.evalExpr e) s s' := by
  cases e with
  | lit l => exact follows_pure _
  | enumOf key payload => exact (follows_declaredEnum key).map
  | flagsOf key payload => exact (follows_declaredEnum key).map
  | list items => exact (Interpreter.follows_evalAll hI items).map
  | map entries =>
      refine (Interpreter.follows_evalEntries hI entries).bind fun values t t' _ _ => ?_
      refine follows_of_between fun ht => follows_get ?_
      have heqv : t'.eqv = t.eqv := ht.twin.eqv_eq
      rw [heqv]
      exact follows_pure _
  | box e => exact (hI.eval e s s').bind fun v _ _ _ _ => Delivery.follows_newBox v
  | var name => exact follows_readVariable name
  | constView e => exact (hI.eval e s s').bind fun v _ _ _ _ => follows_bind_same rfl fun _ _ => follows_pure _
  | arg index => exact follows_argument index
  | argAs index type => exact follows_argumentAs index type
  | argCount => exact follows_argumentCount.map
  | receiver => exact follows_receiver.map
  | state type field =>
      exact follows_receiver.bind fun h _ _ _ _ => (Lifetime.follows_typedState hI.makes h type "native").map
  | primitive op operands =>
      refine (Interpreter.follows_evalOperands hI op operands).bind fun values t t' _ _ => ?_
      refine follows_of_between fun ht => follows_get (follows_ofExcept ?_)
      have heqv : t'.toWorld.eqv = t.toWorld.eqv := ht.twin.eqv_eq
      cases op <;> simp only [Primitive.apply, heqv]
  | perform action dest =>
      exact (follows_perform hI action).bind fun v _ _ _ _ => (follows_store dest v).map
  | callOut c dest =>
      exact (follows_performCall hI c).bind fun left _ _ _ _ => (follows_store dest left.1).map

theorem follows_execStmt (stmt : Stmt) : M.Follows (execStmt M.refuses I stmt) (I'.execStmt stmt) s s' := by
  cases stmt with
  | perform action dest => exact (follows_perform hI action).bind fun v _ _ _ _ => follows_store dest v
  | ret e => exact (hI.eval e s s').bind fun _ _ _ _ _ => follows_modifyActivation _
  | brk e => exact (hI.eval e s s').bind fun _ _ _ _ _ => follows_modifyActivation _
  | branch condition yes no =>
      refine (hI.eval condition s s').bind fun v t t' _ _ => follows_bind_same rfl fun b _ => ?_
      split
      · exact hI.makes.bodies yes t t'
      · exact hI.makes.bodies no t t'

theorem follows_execCode (code : Code) : M.Follows (execCode M.refuses I code) (I'.execCode code) s s' := by
  induction code generalizing s s' with
  | nil => exact follows_pure _
  | cons stmt rest ih =>
      refine (follows_execStmt hI stmt).bind fun _ t t' _ _ => follows_hasEnded.bind fun ended u u' _ _ => ?_
      split
      · exact ih
      · exact follows_pure _

end Restricted

/-- Every level follows the level with the same number that is stopped, and some more levels may be below it.  The
lowest level stops at once, and every other one is made of the one below.  This is so for a family of mirrors that
refuse the same requests, each of which may rely on the others for the bodies below. -/
theorem leads_restricted {ι : Type} {M : ι → Mirror} {refuses : Refusals} (more : Nat)
    (hrefuses : ∀ x, (M x).refuses = refuses)
    (hmakes : ∀ budget,
      (∀ x, (M x).FollowsAll (restricted refuses budget).exec (interpreter (budget + more)).exec) →
        ∀ x, (M x).Makes (restricted refuses budget).exec (interpreter (budget + more)).exec)
    (hconstruct : ∀ budget x, (M x).Makes (restricted refuses budget).exec (interpreter (budget + more)).exec →
      ∀ cls args s s', refuses s (.construct cls args) = false →
        (M x).Follows (Construction.construct (restricted refuses budget).exec cls args)
          (Construction.construct (interpreter (budget + more)).exec cls args) s s') (budget : Nat) (x : ι) :
    (M x).Leads (restricted refuses budget) (interpreter (budget + more)) := by
  have hlevel : ∀ x, (∀ e s s', (M x).Follows ((restricted refuses budget).eval e)
      ((interpreter (budget + more)).eval e) s s') ∧
        (M x).FollowsAll (restricted refuses budget).exec (interpreter (budget + more)).exec := by
    induction budget with
    | zero => exact fun x => ⟨fun _ _ _ => follows_exhausted _, fun _ _ _ => follows_exhausted _⟩
    | succ budget ih =>
        intro x
        have hbelow := hmakes budget (fun x => (ih x).2) x
        have hI : (M x).Leads (restricted refuses budget) (interpreter (budget + more)) :=
          ⟨(ih x).1, hbelow, fun cls args s s' hgranted =>
            hconstruct budget x hbelow cls args s s' (by rwa [← hrefuses x])⟩
        rw [Nat.add_right_comm]
        have hexpr (e : Expr) (s s' : State) : (M x).Follows
            (Restricted.evalExpr (M x).refuses (restricted refuses budget) e)
            ((interpreter (budget + more)).evalExpr e) s s' := Restricted.follows_evalExpr hI e
        have hcode (code : Code) (s s' : State) : (M x).Follows
            (Restricted.execCode (M x).refuses (restricted refuses budget) code)
            ((interpreter (budget + more)).execCode code) s s' := Restricted.follows_execCode hI code
        rw [hrefuses x] at hexpr hcode
        refine ⟨fun e s s' => ?_, fun code s s' => ?_⟩
        · exact follows_tick.bind fun _ _ _ _ _ => hexpr e _ _
        · refine follows_tick.bind fun _ t t' _ _ => ?_
          have hleave (u u' : State) : (M x).Follows (ask refuses .leave) (pure ⟨⟩) u u' := by
            rw [← bind_pure (ask refuses .leave), ← hrefuses x]
            exact follows_ask fun _ => follows_pure _
          rw [← bind_pure ((interpreter (budget + more)).execCode code)]
          exact (hcode code _ _).bind fun _ u u' _ _ => hleave u u'
  have hall := hmakes budget (fun x => (hlevel x).2) x
  exact ⟨(hlevel x).1, hall, fun cls args s s' hgranted =>
    hconstruct budget x hall cls args s s' (by rwa [← hrefuses x])⟩

end Script

end ObjectBridge
