import ObjectBridge.Proofs.Call.Indistinguishable
import ObjectBridge.Proofs.Script.Modest

/-!
# Scripts that change arguments

A native body that sets arguments and an override that stores the same values in the boxes it received, as scripts.
The values are read from literals or from variables of the session, so they may be any values at all.

* `Script.Yields` — an expression that only reads a value.
* `Script.outcome_settingCode` and `outcome_storingCode` — what the two bodies do.
* `Script.interchangeable` — they make the same changes and return the same result.
-/

namespace ObjectBridge.Script

open Run Delivery

variable {I : Interpreter} {u : State} {a : Activation} {changes : List (Nat × Value)}
  {edits : List (Nat × Expr)} {e : Expr} {r w : Value}

/-- The state with a body that runs inside of the others. -/
def running (a : Activation) (u : State) : State :=
  { u with activations := a :: u.activations }

/-- An expression reads a value, in every state that has the variables of a session and no limit of steps. -/
def Yields (I : Interpreter) (globals : List (String × Value)) (e : Expr) (v : Value) : Prop :=
  ∀ s : State, s.globals = globals → s.stepsLeft = none → (I.eval e).outcome s = (.ok v, s)

theorem outcome_tick_of_unlimited {s : State} (h : s.stepsLeft = none) : tick.outcome s = (.ok (), s) := by
  rw [outcome_tick, h]

theorem outcome_exec_succ (budget : Nat) (code : Code) {s : State} (h : s.stepsLeft = none) :
    ((interpreter (budget + 1)).exec code).outcome s = ((interpreter budget).execCode code).outcome s :=
  outcome_bind_of_ok (outcome_tick_of_unlimited h) _

theorem outcome_eval_succ (budget : Nat) (e : Expr) {s : State} (h : s.stepsLeft = none) :
    ((interpreter (budget + 1)).eval e).outcome s = ((interpreter budget).evalExpr e).outcome s :=
  outcome_bind_of_ok (outcome_tick_of_unlimited h) _

theorem outcome_inNativeFrame_of_ok {α : Type} {act : Run α} {x : α} {s t : State}
    (h : act.outcome { s with frames := .native :: s.frames } = (.ok x, t)) :
    (inNativeFrame act).outcome s = (.ok x, { t with frames := t.frames.tail }) := by
  rw [inNativeFrame, outcome_within, h]

/-- A body is running until it comes to its end. -/
theorem outcome_activate {act : Run Unit} {ended : Activation} {s t : State}
    (h : act.outcome (running a s) = (.ok (), running ended t)) : (activate a act).outcome s = (.ok ended, t) := by
  have hbody : (do act; return (← get).activations.headD a : Run Activation).outcome (running a s) =
      (.ok ended, running ended t) := outcome_bind_of_ok h _
  exact outcome_within_of_ok (s := s) hbody

theorem yields_lit (budget : Nat) (globals : List (String × Value)) (l : Literal) :
    Yields (interpreter (budget + 1)) globals (.lit l) l.value := by
  intro s _ hsteps
  rw [outcome_eval_succ budget _ hsteps]
  rfl

/-- A variable of the session reads what it is set to. -/
theorem yields_var (budget : Nat) {globals : List (String × Value)} {name : String} {v : Value}
    (hname : isLocal name = false) (hv : globals.lookup name = some v) :
    Yields (interpreter (budget + 1)) globals (.var name) v := by
  intro s hglobals hsteps
  rw [outcome_eval_succ budget _ hsteps]
  show (readVariable name).outcome s = _
  rw [readVariable, outcome_get_bind, hname]
  simp only [Bool.false_eq_true, if_false, hglobals, hv]
  rfl

theorem outcome_arg (budget : Nat) {s : State} (hsteps : s.stepsLeft = none) (hmode : a.mode = .host) (i : Nat)
    (hs : s.activations.head? = some a) :
    ((interpreter (budget + 1)).eval (.arg i)).outcome s = (.ok (a.args.getD i .nil), s) := by
  rw [outcome_eval_succ budget _ hsteps]
  show (argument i).outcome s = _
  rw [argument, outcome_get_bind, hs]
  simp only [hmode]
  rfl

/-! ## The bodies -/

/-- Set arguments, one after the other, and return a result. -/
def settingCode (edits : List (Nat × Expr)) (e : Expr) : Code :=
  edits.map (fun edit => .perform (.setArg edit.1 edit.2) none) ++ [.ret e]

/-- Store values in the boxes that are arguments, one after the other, and return a result. -/
def storingCode (edits : List (Nat × Expr)) (e : Expr) : Code :=
  edits.map (fun edit => .perform (.boxSet (.arg edit.1) edit.2) none) ++ [.ret e]

/-- Expressions read the values that arguments are changed to. -/
def Edits (I : Interpreter) (globals : List (String × Value)) (edits : List (Nat × Expr))
    (changes : List (Nat × Value)) : Prop :=
  List.Forall₂ (fun edit c => edit.1 = c.1 ∧ Yields I globals edit.2 c.2) edits changes

/-- A body goes on after a statement that does not end it. -/
theorem outcome_execCode_cons {stmt : Stmt} {rest : Code} {s t : State}
    (hstmt : (I.execStmt stmt).outcome s = (.ok (), t))
    (hgoes : t.activations.head?.any (fun a => a.ended.isSome) = false) :
    (I.execCode (stmt :: rest)).outcome s = (I.execCode rest).outcome t := by
  have hended : hasEnded.outcome t = (.ok false, t) := by
    rw [hasEnded, outcome_get_bind, hgoes]
    rfl
  rw [Interpreter.execCode, outcome_bind_of_ok hstmt, outcome_bind_of_ok hended]
  rfl

/-- A body ends with what an expression yields there. -/
theorem outcome_execCode_ret_of_eval (he : (I.eval e).outcome (running a u) = (.ok r, running a u)) :
    (I.execCode [.ret e]).outcome (running a u) =
      (.ok (), running { a with ended := some (.value r) } u) := by
  have hstmt : (I.execStmt (.ret e)).outcome (running a u) =
      (.ok (), running { a with ended := some (.value r) } u) := outcome_bind_of_ok he _
  rw [Interpreter.execCode, outcome_bind_of_ok hstmt]
  rfl

/-- A body ends with a result. -/
theorem outcome_execCode_ret (he : Yields I u.globals e r) (hsteps : u.stepsLeft = none) (a : Activation) :
    (I.execCode [.ret e]).outcome (running a u) =
      (.ok (), running { a with ended := some (.value r) } u) :=
  outcome_execCode_ret_of_eval (he (running a u) rfl hsteps)

/-- What a native body does that sets arguments and returns a result. -/
theorem outcome_settingCode (hedits : Edits I u.globals edits changes) (he : Yields I u.globals e r)
    (hsteps : u.stepsLeft = none) (hmode : a.mode = .native) (hgoes : a.ended = none) :
    (I.execCode (settingCode edits e)).outcome (running a u) =
      (.ok (), running { a with args := setArgs changes a.args, ended := some (.value r) } u) := by
  induction hedits generalizing a with
  | nil => exact outcome_execCode_ret he hsteps a
  | cons hfirst hrest ih =>
      rename_i edit c edits changes
      obtain ⟨hposition, hreads⟩ := hfirst
      have hstmt : (I.execStmt (.perform (.setArg edit.1 edit.2) none)).outcome (running a u) =
          (.ok (), running { a with args := a.args.set c.1 c.2 } u) := by
        rw [hposition]
        have hset : (setArgument c.1 c.2).outcome (running a u) =
            (.ok (), running { a with args := a.args.set c.1 c.2 } u) := by
          obtain ⟨mode, receiver, args, locals, ended⟩ := a
          obtain rfl : mode = .native := hmode
          rfl
        have haction : (I.perform (.setArg c.1 edit.2)).outcome (running a u) =
            (.ok .nil, running { a with args := a.args.set c.1 c.2 } u) :=
          (outcome_bind_of_ok (hreads (running a u) rfl hsteps) _).trans (outcome_bind_of_ok hset _)
        exact outcome_bind_of_ok haction _
      refine (outcome_execCode_cons hstmt ?_).trans (ih hmode hgoes)
      simp [running, hgoes]

/-- What an override does that stores values in the boxes that it received and returns a result. -/
theorem outcome_storingCode (cells : Cells) (hedits : Edits I u.globals edits changes) (he : Yields I u.globals e r)
    (hsteps : u.stepsLeft = none) (hgoes : a.ended = none)
    (harg : ∀ c ∈ changes, ∃ b, a.args[c.1]? = some (.box b) ∧ ∀ s : State, s.stepsLeft = none →
      s.activations.head? = some a → (I.eval (.arg c.1)).outcome s = (.ok (.box b), s)) :
    (I.execCode (storingCode edits e)).outcome (running a { u with cells := cells }) =
      (.ok (), running { a with ended := some (.value r) }
        { u with cells := setBoxes a.args changes cells }) := by
  induction hedits generalizing cells with
  | nil => exact outcome_execCode_ret (u := { u with cells := cells }) he hsteps a
  | cons hfirst hrest ih =>
      rename_i edit c edits changes
      obtain ⟨hposition, hreads⟩ := hfirst
      obtain ⟨⟨b, hb, hbox⟩, hothers⟩ := List.forall_mem_cons.mp harg
      have hstored : setBox a.args cells c.1 c.2 = cells.setIfInBounds b c.2 := by
        rw [setBox, hb]
      let start : State := running a { u with cells := cells }
      have hstmt : (I.execStmt (.perform (.boxSet (.arg edit.1) edit.2) none)).outcome start =
          (.ok (), running a { u with cells := setBox a.args cells c.1 c.2 }) := by
        rw [hposition, hstored]
        have hvalue : (holding [.box b] (I.eval edit.2)).outcome start = (.ok c.2, start) :=
          outcome_holding_of_ok (hreads (withHeld start [.box b]) rfl hsteps)
        have haction : (I.perform (.boxSet (.arg c.1) edit.2)).outcome start =
            (.ok .nil, running a { u with cells := cells.setIfInBounds b c.2 }) :=
          (outcome_bind_of_ok (hbox start hsteps rfl) _).trans (outcome_bind_of_ok hvalue _)
        exact outcome_bind_of_ok haction _
      refine (outcome_execCode_cons hstmt ?_).trans (ih _ hothers)
      simp [running, hgoes]

/-- Scripts that set arguments, or store the same values in boxes, and return the same result. -/
theorem interchangeable {budget : Nat} {recv : Handle} {params : List Param} {values : List Value} {f : Callable}
    (hallowed : Allowed params changes) (hlength : ∀ c ∈ changes, c.1 < values.length)
    (hsteps : u.stepsLeft = none) (hedits : Edits (interpreter (budget + 1)) u.globals edits changes)
    (he : Yields (interpreter (budget + 1)) u.globals e r) (hf : f.code = storingCode edits e) :
    Dispatch.Interchangeable (interpreter (budget + 2)).exec u recv params values (settingCode edits e) f changes
      r where
  allowed := hallowed
  native := by
    -- The native frame sets its arguments in place.
    let a : Activation := { mode := .native, receiver := some recv, args := values }
    let ended : Activation := { a with args := setArgs changes values, ended := some (.value r) }
    let inside : State := { u with frames := .native :: u.frames }
    have hcode : ((interpreter (budget + 2)).exec (settingCode edits e)).outcome (running a inside) =
        (.ok (), running ended inside) := by
      rw [outcome_exec_succ (s := running a inside) _ _ hsteps]
      exact outcome_settingCode (u := inside) hedits he hsteps rfl rfl
    have hframe : (Lifetime.runNative (interpreter (budget + 2)).exec (some recv) values
        (settingCode edits e)).outcome u = (.ok ended, { inside with frames := inside.frames.tail }) :=
      outcome_inNativeFrame_of_ok (outcome_activate hcode)
    exact ⟨ended, hframe, rfl, rfl⟩
  override := by
    -- The override's frame gets the outputs in boxes, and sets these.
    let sent := sentFrom u.cells.size params values
    let a : Activation := { mode := .host, receiver := some recv, args := sent, locals := f.captured }
    let ended : Activation := { a with ended := some (.value r) }
    let inside : State := withHeld (Dispatch.entered recv params values u) f.values
    have harg : ∀ c ∈ changes, ∃ b, a.args[c.1]? = some (.box b) ∧ ∀ s : State, s.stepsLeft = none →
        s.activations.head? = some a →
          ((interpreter (budget + 1)).eval (.arg c.1)).outcome s = (.ok (.box b), s) := by
      intro c hc
      obtain ⟨p, hp, houtput⟩ := hallowed c hc
      have hbox : sent[c.1]? = some (.box (u.cells.size + rank params c.1)) :=
        getElem?_sentFrom hp houtput (hlength c hc)
      refine ⟨_, hbox, fun s hs hhead => ?_⟩
      rw [outcome_arg budget hs rfl c.1 hhead]
      show (Except.ok (sent.getD c.1 .nil), s) = _
      rw [List.getD_eq_getElem?_getD, hbox]
      rfl
    have hcode : ((interpreter (budget + 2)).exec f.code).outcome (running a inside) =
        (.ok (), running ended { inside with cells := setBoxes sent changes inside.cells }) := by
      rw [hf, outcome_exec_succ (s := running a inside) _ _ hsteps]
      exact outcome_storingCode (u := inside) inside.cells hedits he hsteps rfl harg
    exact ⟨ended, outcome_holding_of_ok (outcome_activate hcode), rfl⟩

/-! ## Methods that change their argument -/

/-- The argument becomes true. -/
def adjustments : List (Nat × Expr) :=
  [(0, .lit (.bool true))]

/-- The result is seven. -/
def seven : Expr :=
  .lit (.int 7)

/-- A virtual method with a truth value that comes back changed. -/
def adjustOverload : Overload where
  sig := {
    params := [{ name := "x", type := .bool, passing := .ref }]
    result := some (.int .int64, .value)
    isVirtual := true }
  body := .native (settingCode adjustments seven)

/-- The result is an object of the session. -/
def latecomer : Expr :=
  .var "late"

/-- A virtual method with a truth value that comes back changed, which returns a copy of an object. -/
def adoptOverload : Overload where
  sig := {
    params := [{ name := "x", type := .bool, passing := .ref }]
    result := some (.object "Late", .value)
    isVirtual := true }
  body := .native (settingCode adjustments latecomer)

/-- The overrides of the methods. -/
def adjustOverrides : Overrides :=
  [("adjust", .make 0 [] (storingCode adjustments seven)), ("adopt", .make 1 [] (storingCode adjustments latecomer))]

/-- A class that declares the methods. -/
def adjustClass : ClassInfo where
  id := 0
  name := "Node"
  base := none
  kind := .object
  mixins := []
  constants := []
  enums := []
  methods := [("adjust", [adjustOverload]), ("adopt", [adoptOverload])]
  constructors := []
  events := []
  lazyConstructor := none

/-- A constructor that yields a five. -/
def lateConstructor : LazyConstructor where
  code := [.ret (.map [(.lit (.text "value"), .lit (.int 5))])]
  shape := .script

/-- An object of a class that derives from it and overrides the methods. -/
def adjustObject : Handle := ⟨⟨0, ⟨0, ⟨0, 0⟩⟩, 1, "Sub"⟩, false⟩

/-- An object whose construction is deferred. -/
def lateObject : Handle := ⟨⟨1, ⟨1, ⟨1, 0⟩⟩, 2, "Late"⟩, false⟩

/-- A state with the two objects and a box that holds false. -/
def adjustState : State where
  classes := .ofClasses [
    adjustClass,
    { adjustClass with id := 1, name := "Sub", base := some 0, methods := [], overrides := some adjustOverrides },
    { adjustClass with id := 2, name := "Late", methods := [], lazyConstructor := some lateConstructor }]
  arena := {
    slots := #[
      { occupant := some {
        cls := 1, className := "Sub", kind := .object, native := some ⟨.script, []⟩, keep := .managed,
        anchor := adjustObject.proxy.anchor, proxy := adjustObject.proxy, overrides := some adjustOverrides } },
      { occupant := some {
        cls := 2, className := "Late", kind := .object, native := none, keep := .managed,
        anchor := lateObject.proxy.anchor, proxy := lateObject.proxy, overrides := none } }]
    live := 2
    nextAnchor := 2
    nextProxy := 2 }
  cells := #[.bool false]
  globals := [("late", .object lateObject)]

/-- The box as an argument. -/
def adjustArgs : CallArgs := ⟨[.box 0], []⟩

/-- What is selected, if it is one of the overloads. -/
def adjustSelected (overload : Overload) : Dispatch.Selected :=
  ⟨"Node", overload, ⟨0, [.bool false], [.positional 0]⟩⟩

/-- What a call has come to before its body. -/
theorem eq_of_ready {exec : Exec} {method : String} (overload : Overload) {chosen : Dispatch.Selected} {s₀ u : State}
    {values : List Value}
    (hready : Dispatch.Ready exec adjustState adjustObject method adjustArgs chosen s₀ values u)
    (hchoose : (holding adjustArgs.values (Dispatch.choose exec adjustObject method adjustArgs)).outcome adjustState =
      (.ok (adjustSelected overload), adjustState))
    (hprepare : (prepare exec overload.sig.params [.bool false]).outcome (withHeld adjustState adjustArgs.values) =
      (.ok [.bool false], withHeld adjustState adjustArgs.values)) :
    chosen = adjustSelected overload ∧ values = [.bool false] ∧ u = withHeld adjustState adjustArgs.values := by
  obtain ⟨hchosen, rfl⟩ := Prod.mk.inj (hchoose.symm.trans hready.choose)
  obtain rfl := Except.ok.inj hchosen
  obtain ⟨hvalues, rfl⟩ := Prod.mk.inj (hprepare.symm.trans hready.prepare)
  exact ⟨rfl, (Except.ok.inj hvalues).symm, rfl⟩

/-- The deferred constructor of the classes is modest. -/
theorem modest_findLazy {cls : ClassId} {c : LazyConstructor} (hc : adjustState.classes.findLazy cls = some c) :
    ModestCode c.code := by
  obtain ⟨info, hancestor, hdeclared⟩ := List.exists_of_findSome?_eq_some hc
  have hinfo : info ∈ adjustState.classes.classes := ClassTable.mem_classes_of_mem_ancestors hancestor
  have hlate : ∀ info ∈ adjustState.classes.classes, info.lazyConstructor = some c → c = lateConstructor := by
    intro info hinfo hdeclared
    rcases List.mem_cons.mp hinfo with rfl | hinfo
    · cases hdeclared
    · rcases List.mem_cons.mp hinfo with rfl | hinfo
      · cases hdeclared
      · obtain rfl := List.mem_singleton.mp hinfo
        exact (Option.some.inj hdeclared).symm
  rw [hlate info hinfo hdeclared]
  refine List.forall_mem_singleton.mpr (.ret (.map ?_ ?_))
  · exact List.forall_mem_singleton.mpr (.lit _)
  · exact List.forall_mem_singleton.mpr (.lit _)

/-- The native body and the override of either method make the argument true. -/
theorem interchangeable_adjustments {budget : Nat} {overload : Overload} {e : Expr} {r : Value} {f : Callable}
    (hparams : overload.sig.params = adjustOverload.sig.params)
    (he : Yields (interpreter (budget + 1)) adjustState.globals e r) (hf : f.code = storingCode adjustments e) :
    Dispatch.Interchangeable (interpreter (budget + 2)).exec (withHeld adjustState adjustArgs.values) adjustObject
      overload.sig.params [.bool false] (settingCode adjustments e) f [(0, .bool true)] r := by
  have hallowed : Allowed overload.sig.params [(0, .bool true)] := by
    rw [hparams]
    exact List.forall_mem_singleton.mpr ⟨_, rfl, rfl⟩
  exact interchangeable hallowed (by decide) rfl (.cons ⟨rfl, yields_lit budget _ (.bool true)⟩ .nil) he hf

/-- The calls make the content of the box true, and they cannot be told from the calls of the native bodies, also where
the result is a copy of an object that has to be constructed before. -/
theorem adjust_indistinguishable :
    (Dispatch.Indistinguishable (fun _ => True) adjustArgs
        ((Dispatch.callBase (interpreter 2).exec adjustObject "adjust" adjustArgs).outcome adjustState)
        ((Dispatch.call (interpreter 2).exec adjustObject "adjust" adjustArgs).outcome adjustState) ∧
      ((Dispatch.call (interpreter 2).exec adjustObject "adjust" adjustArgs).outcome adjustState).2.cells.content 0 =
        .bool true) ∧
      Dispatch.Indistinguishable ModestCode adjustArgs
        ((Dispatch.callBase (interpreter 3).exec adjustObject "adopt" adjustArgs).outcome adjustState)
        ((Dispatch.call (interpreter 3).exec adjustObject "adopt" adjustArgs).outcome adjustState) ∧
      ((Dispatch.call (interpreter 3).exec adjustObject "adopt" adjustArgs).outcome adjustState).2.arena.instanceCount
        2 = 2 := by
  refine ⟨⟨Dispatch.call_indistinguishable fun chosen s₀ values u hready _ _ => ?_, rfl⟩,
    Dispatch.call_indistinguishable fun chosen s₀ values u hready _ _ => ?_, by decide +kernel⟩
  · obtain ⟨rfl, rfl, rfl⟩ := eq_of_ready adjustOverload hready rfl rfl
    refine ⟨by decide, fun type hresult htype => ?_, fun _ _ _ => trivial, ?_⟩
    · cases hresult
      exact htype.elim
    · refine ⟨_, _, _, [(0, .bool true)], .int 7, rfl, rfl, rfl, ⟨?_, ?_⟩, ?_⟩
      · exact Cells.closed_iff.mpr (by decide)
      · decide
      · exact interchangeable_adjustments rfl (yields_lit 0 _ (.int 7)) rfl
  · -- The copy runs the deferred constructor, which is modest.
    obtain ⟨rfl, rfl, rfl⟩ := eq_of_ready adoptOverload hready rfl rfl
    refine ⟨by decide, fun _ _ _ => blind_modest 3, fun _ _ hc => modest_findLazy hc, ?_⟩
    refine ⟨_, _, _, [(0, .bool true)], .object lateObject, rfl, rfl, rfl, ⟨?_, ?_⟩, ?_⟩
    · exact Cells.closed_iff.mpr (by decide)
    · decide
    · exact interchangeable_adjustments rfl (yields_var 1 (by decide +kernel) rfl) rfl

end ObjectBridge.Script
