import ObjectBridge.Proofs.Call.Spare
import ObjectBridge.Script.Interpreter

/-!
# Scripts that work on values alone

A script may compute values, log them and keep them in variables, and neither make boxes nor ask anything of the
runtime.  Such a script does the same whether or not there are spare cells.  The scripts here are those of deferred
constructors, which have neither a receiver nor arguments.

* `Expr.Modest`, `Action.Modest` and `Stmt.Modest` — the scripts in question.
* `Primitive.apply_renumber` — operations on values.
* `Interpreter.Overlooks` — a level of the interpreter that runs them so.
* `Script.overlooks_interpreter` — every level does.
* `Script.blind_modest` — deferred constructors that are modest cannot tell whether there are spare cells.
-/

namespace ObjectBridge

/-! ## Variables -/

variable {f : BoxId → BoxId}

theorem lookup_renumberNamed (name : String) (es : List (String × Value)) :
    (es.map (renumberNamed f)).lookup name = (es.lookup name).map (Value.renumber f) := by
  induction es with
  | nil => rfl
  | cons e rest ih =>
      obtain ⟨key, v⟩ := e
      rw [List.map_cons, renumberNamed, List.lookup_cons, List.lookup_cons, ih]
      cases name == key <;> rfl

theorem put_renumberNamed (name : String) (v : Value) (es : List (String × Value)) :
    put name (v.renumber f) (es.map (renumberNamed f)) = (put name v es).map (renumberNamed f) := by
  induction es with
  | nil => rfl
  | cons e rest ih =>
      obtain ⟨key, u⟩ := e
      rw [List.map_cons, renumberNamed, put, put, ih]
      split <;> rfl

theorem filter_renumberNamed (name : String) (es : List (String × Value)) :
    (es.map (renumberNamed f)).filter (fun e => e.1 != name) =
      (es.filter fun e => e.1 != name).map (renumberNamed f) :=
  List.filter_map

theorem mem_values_put {name : String} {v u : Value} {es : List (String × Value)}
    (hu : u ∈ (put name v es).map Prod.snd) : u = v ∨ u ∈ es.map Prod.snd := by
  obtain ⟨e, he, rfl⟩ := List.mem_map.mp hu
  exact (mem_put he).imp_right List.mem_map_of_mem

namespace Script

open Run

/-! ## The scripts in question -/

/-- Operations that display nothing. -/
def Primitive.Modest : Primitive → Prop
  | .concat | .joined _ => False
  | _ => True

mutual

/-- Expressions that work on values alone. -/
inductive Expr.Modest : Expr → Prop
  | lit (l : Literal) : Expr.Modest (.lit l)
  | enumOf (key : String) (payload : Int64) : Expr.Modest (.enumOf key payload)
  | flagsOf (key : String) (payload : Int64) : Expr.Modest (.flagsOf key payload)
  | list {items : List Expr} (hitems : ∀ e ∈ items, Expr.Modest e) : Expr.Modest (.list items)
  | map {entries : List (Expr × Expr)} (hkeys : ∀ e ∈ entries, Expr.Modest e.1)
      (hvalues : ∀ e ∈ entries, Expr.Modest e.2) : Expr.Modest (.map entries)
  | var (name : String) : Expr.Modest (.var name)
  | constView {e : Expr} (he : Expr.Modest e) : Expr.Modest (.constView e)
  | primitive {op : Primitive} {operands : List Expr} (hop : op.Modest) (hoperands : ∀ e ∈ operands, Expr.Modest e) :
      Expr.Modest (.primitive op operands)
  | perform {action : Action} (haction : Action.Modest action) (dest : Option String) :
      Expr.Modest (.perform action dest)

/-- Actions that work on values alone. -/
inductive Action.Modest : Action → Prop
  | set {e : Expr} (he : Expr.Modest e) : Action.Modest (.set e)
  | drop (name : String) : Action.Modest (.drop name)
  | log {e : Expr} (he : Expr.Modest e) : Action.Modest (.log e)
  | fail (text : String) (native : Bool) : Action.Modest (.fail text native)
  | attempt {code : List Stmt} (hcode : ∀ stmt ∈ code, Stmt.Modest stmt) : Action.Modest (.attempt code)

/-- Statements that work on values alone. -/
inductive Stmt.Modest : Stmt → Prop
  | perform {action : Action} (haction : Action.Modest action) (dest : Option String) :
      Stmt.Modest (.perform action dest)
  | ret {e : Expr} (he : Expr.Modest e) : Stmt.Modest (.ret e)
  | brk {e : Expr} (he : Expr.Modest e) : Stmt.Modest (.brk e)
  | branch {condition : Expr} {yes no : List Stmt} (hcondition : Expr.Modest condition)
      (hyes : ∀ stmt ∈ yes, Stmt.Modest stmt) (hno : ∀ stmt ∈ no, Stmt.Modest stmt) :
      Stmt.Modest (.branch condition yes no)

end

/-- Code that works on values alone. -/
def ModestCode (code : Code) : Prop :=
  ∀ stmt ∈ code, stmt.Modest

variable {n k : Nat} {deferred : Code → Prop} {s t : State}

/-! ## Operations on values -/

namespace Primitive

theorem asInt64_renumber (v : Value) : (v.renumber f).asInt64 = v.asInt64 := by
  cases v <;> rfl

theorem asDouble_renumber (v : Value) : (v.renumber f).asDouble = v.asDouble := by
  cases v <;> rfl

theorem asFlags_renumber (v : Value) : asFlags (v.renumber f) = asFlags v := by
  cases v <;> rfl

theorem isNil_renumber (v : Value) : (v.renumber f).isNil = v.isNil := by
  cases v <;> rfl

theorem asBool_renumber (v : Value) : (v.renumber f).asBool = v.asBool := by
  cases v <;> rfl

theorem asHandle_renumber (v : Value) : (v.renumber f).asHandle = v.asHandle := by
  cases v <;> rfl

theorem asMap_renumber (v : Value) : (v.renumber f).asMap = v.asMap.map (List.map (Value.renumberEntry f)) := by
  cases v with
  | map entries => rw [Value.renumber_map]; rfl
  | _ => rfl

theorem asList_list (items : List Value) : (Value.list items).asList = .ok items := by
  have hall : List.Forall₂ (fun v u : Value => Except.ok (ε := Error) v = .ok u) items items := by
    simp only [Except.ok.injEq, List.forall₂_eq_eq_eq]
  exact NativeType.decodeAll_eq_ok_iff.mpr hall

theorem asList_renumber (v : Value) : (v.renumber f).asList = v.asList.map (List.map (Value.renumber f)) := by
  cases v with
  | list items =>
      rw [Value.renumber_list, asList_list, asList_list]
      rfl
  | _ => rfl

theorem length_renumber (v : Value) : length (v.renumber f) = length v := by
  cases v with
  | list items =>
      rw [Value.renumber_list]
      simp only [length, asList_list, Except.map, List.length_map]
  | _ => rfl

/-- Operations that display nothing keep the operands as they are. -/
theorem keep_eq {op : Primitive} (hop : op.Modest) (w : World) (v : Value) : keep w op v = .ok v := by
  cases op <;> first | rfl | exact hop.elim

/-- A value is put under a key in the same way. -/
theorem insert_renumber (hs : State.Spare n k deferred s t) {key : Value} (v : Value) {m : ValueMap}
    (hkey : key.Below s.cells.size) (hm : (Value.map m).Below s.cells.size) :
    ValueMap.insert t.toWorld.eqv (key.renumber (Cells.skip n k)) (v.renumber (Cells.skip n k))
        (m.map (Value.renumberEntry (Cells.skip n k))) =
      (ValueMap.insert s.toWorld.eqv key v m).map (Value.renumberEntry (Cells.skip n k)) :=
  ValueMap.insert_renumber v fun e he => hs.cells.eqv_eq
    ((Conversion.carried_below hs.cells.closed).map_iff.mp hm e he).1 hkey

/-- Operations that display nothing give the same result, with any number of operands. -/
theorem apply_renumber (hs : State.Spare n k deferred s t) {op : Primitive} (hop : op.Modest) {vs : List Value}
    (hvs : ∀ v ∈ vs, v.Below s.cells.size) :
    apply t.toWorld op (vs.map (Value.renumber (Cells.skip n k))) =
      (apply s.toWorld op vs).map (Value.renumber (Cells.skip n k)) := by
  rcases vs with _ | ⟨a, _ | ⟨b, _ | ⟨c, _ | ⟨d, rest⟩⟩⟩⟩
  · cases op <;> rfl
  · cases op with
    | concat | joined => exact hop.elim
    | present => exact congrArg (fun x => Except.ok (Value.bool !x)) (isNil_renumber a)
    | count =>
        simp only [apply, List.map, length_renumber]
        cases length a <;> rfl
    | complement =>
        simp only [apply, List.map, asFlags_renumber]
        cases asFlags a <;> rfl
    | reference =>
        simp only [apply, List.map, isNil_renumber, asHandle_renumber]
        split
        · rfl
        · cases a.asHandle <;> rfl
    | _ => rfl
  · cases op with
    | concat | joined => exact hop.elim
    | add =>
        simp only [apply, List.map, asInt64_renumber]
        cases a.asInt64 <;> cases b.asInt64 <;> rfl
    | addFloat =>
        simp only [apply, List.map, asDouble_renumber]
        cases a.asDouble <;> cases b.asDouble <;> rfl
    | equal => exact congrArg (fun x => Except.ok (Value.bool x)) (hs.cells.eqv_eq (hvs a (by simp)) (hvs b (by simp)))
    | append =>
        simp only [apply, List.map, asList_renumber]
        cases a.asList with
        | error e => rfl
        | ok items =>
            refine congrArg Except.ok ?_
            rw [Value.renumber_list, List.map_append]
            rfl
    | union =>
        simp only [apply, List.map, asFlags_renumber]
        cases asFlags a <;> cases asFlags b <;> rfl
    | _ => rfl
  · cases op with
    | concat | joined => exact hop.elim
    | put =>
        simp only [apply, List.map, asMap_renumber]
        cases hentries : a.asMap with
        | error e => rfl
        | ok entries =>
            obtain rfl := Value.eq_map_of_asMap hentries
            refine congrArg Except.ok ?_
            rw [Value.renumber_map, ← insert_renumber hs c (hvs b (by simp)) (hvs _ List.mem_cons_self)]
    | _ => rfl
  · cases op <;> first | rfl | exact hop.elim

end Primitive

/-! ## Names and the running body -/

theorem alike_readVariable (hs : State.Spare n k deferred s t) (name : String) :
    Alike n k deferred (readVariable name) (readVariable name) s t := by
  let entries (s : State) := if isLocal name then s.activations.head?.elim [] Activation.locals else s.globals
  have hentries : entries t = (entries s).map (renumberNamed (Cells.skip n k)) := by
    refine (congrArg entries hs.eq_renumber).trans ?_
    by_cases hlocal : isLocal name = true
    · simp only [entries, if_pos hlocal, State.renumber, List.head?_map]
      cases s.activations.head? <;> rfl
    · simp only [entries, if_neg hlocal, State.renumber]
  have hvalue : ((entries t).lookup name).getD .nil =
      (((entries s).lookup name).getD .nil).renumber (Cells.skip n k) := by
    rw [hentries, lookup_renumberNamed]
    cases (entries s).lookup name <;> rfl
  refine alike_get ?_
  show Alike n k deferred (pure (((entries s).lookup name).getD .nil)) (pure (((entries t).lookup name).getD .nil)) s t
  rw [hvalue]
  refine alike_pure hs ?_
  cases hfound : (entries s).lookup name with
  | none => exact Value.below_nil _
  | some v =>
      have hv : v ∈ (entries s).map Prod.snd := List.mem_map_of_mem (f := Prod.snd) (mem_of_lookup hfound)
      refine hs.below_roots (State.mem_roots_iff.mpr ?_)
      by_cases hlocal : isLocal name = true
      · simp only [entries, if_pos hlocal] at hv
        cases hhead : s.activations.head? with
        | none =>
            rw [hhead] at hv
            cases hv
        | some a =>
            rw [hhead] at hv
            refine Or.inr (Or.inr (Or.inr (List.mem_flatMap.mpr ⟨a, List.mem_of_mem_head? hhead, ?_⟩)))
            exact List.mem_append_left _ (List.mem_append_right _ hv)
      · simp only [entries, if_neg hlocal] at hv
        exact Or.inl hv

/-- The variables of the running body are changed in the same way. -/
theorem alike_modifyLocals (hs : State.Spare n k deferred s t)
    {g g' : List (String × Value) → List (String × Value)}
    (hg : ∀ es, g' (es.map (renumberNamed (Cells.skip n k))) = (g es).map (renumberNamed (Cells.skip n k)))
    (hbelow : ∀ es, ∀ v ∈ (g es).map Prod.snd, v ∈ es.map Prod.snd ∨ v.Below s.cells.size) :
    Alike n k deferred (modifyActivation fun a => { a with locals := g a.locals })
      (modifyActivation fun a => { a with locals := g' a.locals }) s t := by
  refine alike_modifyActivation hs (fun a => ?_) fun a _ v hv => ?_
  · exact congrArg (fun locals => { a.renumber (Cells.skip n k) with locals := locals }) (hg a.locals)
  · simp only [Activation.values, List.mem_append] at hv ⊢
    have hlocal := hbelow a.locals v
    tauto

/-- The variables of the session are changed in the same way. -/
theorem alike_modifyGlobals (hs : State.Spare n k deferred s t)
    {g g' : List (String × Value) → List (String × Value)}
    (hg : ∀ es, g' (es.map (renumberNamed (Cells.skip n k))) = (g es).map (renumberNamed (Cells.skip n k)))
    (hbelow : ∀ es, ∀ v ∈ (g es).map Prod.snd, v ∈ es.map Prod.snd ∨ v.Below s.cells.size) :
    Alike n k deferred (modify fun s : State => { s with globals := g s.globals })
      (modify fun s : State => { s with globals := g' s.globals }) s t := by
  refine alike_modify hs rfl (fun v hv => ?_) ?_
  · simp only [State.mem_roots_iff] at hv ⊢
    have hglobal := hbelow s.globals v
    tauto
  · refine (congrArg (fun t : State => { t with globals := g' t.globals }) hs.eq_renumber).trans ?_
    simp only [State.renumber, hg]

theorem alike_setVariable (hs : State.Spare n k deferred s t) (name : String) {v : Value}
    (hv : v.Below s.cells.size) :
    Alike n k deferred (setVariable name v) (setVariable name (v.renumber (Cells.skip n k))) s t := by
  have hbelow (es : List (String × Value)) (u : Value) (hu : u ∈ (put name v es).map Prod.snd) :
      u ∈ es.map Prod.snd ∨ u.Below s.cells.size :=
    (mem_values_put hu).symm.imp_right fun heq : u = v => heq ▸ hv
  rw [setVariable, setVariable]
  split
  · exact alike_modifyLocals hs (put_renumberNamed name v) hbelow
  · exact alike_modifyGlobals hs (put_renumberNamed name v) hbelow

theorem alike_dropVariable (hs : State.Spare n k deferred s t) (name : String) :
    Alike n k deferred (dropVariable name) (dropVariable name) s t := by
  have hbelow (es : List (String × Value)) (v : Value)
      (hv : v ∈ (es.filter fun e => e.1 != name).map Prod.snd) : v ∈ es.map Prod.snd ∨ v.Below s.cells.size := by
    obtain ⟨e, he, rfl⟩ := List.mem_map.mp hv
    exact Or.inl (List.mem_map_of_mem (List.mem_of_mem_filter he))
  rw [dropVariable]
  split
  · exact alike_modifyLocals hs (filter_renumberNamed name) hbelow
  · exact alike_modifyGlobals hs (filter_renumberNamed name) hbelow

theorem alike_store (hs : State.Spare n k deferred s t) (dest : Option String) {v : Value}
    (hv : v.Below s.cells.size) :
    Alike n k deferred (store dest v) (store dest (v.renumber (Cells.skip n k))) s t := by
  cases dest with
  | none => exact alike_pure (x := PUnit.unit) hs trivial
  | some name => exact alike_setVariable hs name hv

/-- A body ends in the same way. -/
theorem alike_finish (hs : State.Spare n k deferred s t) (ending : Ending)
    (hending : ending.content.Below s.cells.size) :
    Alike n k deferred (finish ending) (finish (ending.renumber (Cells.skip n k))) s t := by
  refine alike_modifyActivation hs (fun _ => rfl) fun a _ v hv => ?_
  simp only [Activation.values, List.mem_append, Option.map_some, Option.toList_some, List.mem_singleton] at hv ⊢
  rcases hv with hv | rfl
  · exact Or.inl (Or.inl hv)
  · exact Or.inr hending

theorem alike_bind_hasEnded {α : Type} [MentionsBoxes α] (hs : State.Spare n k deferred s t) {g g' : Bool → Run α}
    (hg : ∀ ended, Alike n k deferred (g ended) (g' ended) s t) :
    Alike n k deferred (hasEnded >>= g) (hasEnded >>= g') s t := by
  have hsame : (t.activations.head?.any fun a => a.ended.isSome) =
      s.activations.head?.any fun a => a.ended.isSome := by
    refine (congrArg (fun t : State => t.activations.head?.any fun a => a.ended.isSome) hs.eq_renumber).trans ?_
    simp only [State.renumber, List.head?_map, Option.any_map]
    refine congrArg (s.activations.head?.any ·) (funext fun a => ?_)
    exact Option.isSome_map
  refine alike_bind_of_outcome (x := s.activations.head?.any fun a => a.ended.isSome) rfl ?_ (hg _)
  exact congrArg (fun ended => (Except.ok ended, t)) hsame

theorem alike_bind_declaredEnum {α : Type} [MentionsBoxes α] (hs : State.Spare n k deferred s t) (key : String)
    {g g' : EnumType → Run α} (hg : ∀ type, Alike n k deferred (g type) (g' type) s t) :
    Alike n k deferred (declaredEnum key >>= g) (declaredEnum key >>= g') s t := by
  have hassoc (g : EnumType → Run α) : (declaredEnum key >>= g) =
      (get >>= fun s => orFail (.host ("Unknown enumeration " ++ key)) (s.enums.lookup key) >>= g) := by
    rw [declaredEnum, bind_assoc]
  have henums : t.enums.lookup key = (s.enums.lookup key).map id :=
    (congrArg (fun t : State => t.enums.lookup key) hs.eq_renumber).trans (congrFun Option.map_id _).symm
  rw [hassoc, hassoc]
  exact alike_get (alike_bind_orFail hs henums fun type _ => hg type)

/-! ## One level of the interpreter -/

namespace Interpreter

/-- Modest scripts are run alike where there are spare cells. -/
structure Overlooks (I : Interpreter) (n k : Nat) (deferred : Code → Prop) : Prop where
  eval : ∀ {e s t}, e.Modest → State.Spare n k deferred s t → Alike n k deferred (I.eval e) (I.eval e) s t
  exec : ∀ {code s t}, ModestCode code → State.Spare n k deferred s t →
    Alike n k deferred (I.exec code) (I.exec code) s t

variable {I : Interpreter} (hI : I.Overlooks n k deferred)

include hI

theorem alike_evalAll {es : List Expr} (hes : ∀ e ∈ es, e.Modest) (hs : State.Spare n k deferred s t) :
    Alike n k deferred (I.evalAll es) (I.evalAll es) s t := by
  induction es generalizing s t with
  | nil => exact alike_pure (x := ([] : List Value)) hs fun _ hx => by cases hx
  | cons e rest ih =>
      obtain ⟨he, hrest⟩ := List.forall_mem_cons.mp hes
      refine (hI.eval he hs).bind fun v u u' _ hspare _ hv => ?_
      exact Alike.cons hv (ih hrest (hspare.withHeld (List.forall_mem_singleton.mpr hv)))

theorem alike_evalEntries {entries : List (Expr × Expr)} (hkeys : ∀ e ∈ entries, e.1.Modest)
    (hvalues : ∀ e ∈ entries, e.2.Modest) (hs : State.Spare n k deferred s t) :
    Alike n k deferred (I.evalEntries entries) (I.evalEntries entries) s t := by
  induction entries generalizing s t with
  | nil => exact alike_pure (x := ([] : List (Value × Value))) hs fun _ hx => by cases hx
  | cons e rest ih =>
      obtain ⟨hkey, hkeys⟩ := List.forall_mem_cons.mp hkeys
      obtain ⟨hvalue, hvalues⟩ := List.forall_mem_cons.mp hvalues
      refine (hI.eval hkey hs).bind fun key u u' _ hspare _ hk => ?_
      have hnext : Alike n k deferred (I.eval e.2) (I.eval e.2) (withHeld u [key])
          (withHeld u' ([key].map (Value.renumber (Cells.skip n k)))) :=
        hI.eval hvalue (hspare.withHeld (List.forall_mem_singleton.mpr hk))
      refine hnext.holding.bind fun v w w' _ hspare' hsize hv => ?_
      have hboth : ∀ x ∈ [key, v], x.Below w.cells.size :=
        List.forall_mem_cons.mpr ⟨hk.mono hsize, List.forall_mem_singleton.mpr hv⟩
      have hmore : Alike n k deferred (I.evalEntries rest) (I.evalEntries rest) (withHeld w [key, v])
          (withHeld w' ([key, v].map (Value.renumber (Cells.skip n k)))) :=
        ih hkeys hvalues (hspare'.withHeld hboth)
      refine hmore.holding.bind fun others x x' _ hspare'' hsize' hothers => ?_
      refine alike_pure (x := (key, v) :: others) hspare'' (List.forall_mem_cons.mpr ⟨⟨?_, ?_⟩, hothers⟩)
      · exact (hk.mono hsize).mono hsize'
      · exact hv.mono hsize'

theorem alike_evalOperands {op : Primitive} (hop : op.Modest) {es : List Expr} (hes : ∀ e ∈ es, e.Modest)
    (hs : State.Spare n k deferred s t) :
    Alike n k deferred (I.evalOperands op es) (I.evalOperands op es) s t := by
  induction es generalizing s t with
  | nil => exact alike_pure (x := ([] : List Value)) hs fun _ hx => by cases hx
  | cons e rest ih =>
      obtain ⟨he, hrest⟩ := List.forall_mem_cons.mp hes
      refine (hI.eval he hs).bind fun v u u' _ hspare _ hv => alike_get ?_
      have hkeep : op.keep u'.toWorld (v.renumber (Cells.skip n k)) =
          (op.keep u.toWorld v).map (Value.renumber (Cells.skip n k)) := by
        rw [Primitive.keep_eq hop, Primitive.keep_eq hop]
        rfl
      refine alike_bind_ofExcept hspare hkeep fun kept hkept => ?_
      rw [Primitive.keep_eq hop] at hkept
      obtain rfl := Except.ok.inj hkept
      exact Alike.cons hv (ih hrest (hspare.withHeld (List.forall_mem_singleton.mpr hv)))

theorem alike_perform {action : Action} (haction : action.Modest) (hs : State.Spare n k deferred s t) :
    Alike n k deferred (I.perform action) (I.perform action) s t := by
  cases haction with
  | set he => exact hI.eval he hs
  | drop name =>
      refine (alike_dropVariable hs name).bind fun _ u u' _ hspare _ _ => ?_
      exact alike_pure (x := Value.nil) hspare (Value.below_nil _)
  | log he =>
      refine (hI.eval he hs).bind fun v u u' _ hspare _ _ => ?_
      have hlogged : Alike n k deferred
          (modify fun s : State => { s with log := (s.toWorld, v) :: s.log } : Run PUnit)
          (modify fun s : State => { s with log := (s.toWorld, v.renumber (Cells.skip n k)) :: s.log }) u u' :=
        alike_modify hspare rfl (fun v hv => Or.inl hv)
          (congrArg (fun t : State => { t with log := (u'.toWorld, v.renumber (Cells.skip n k)) :: u'.log })
            hspare.eq_renumber)
      refine hlogged.bind fun _ w w' _ hspare' _ _ => ?_
      exact alike_pure (x := Value.nil) hspare' (Value.below_nil _)
  | fail text native => exact alike_fail hs _
  | attempt hcode =>
      refine (hI.exec hcode hs).attempt.bind fun result u u' _ hspare _ _ => ?_
      cases result with
      | ok _ => exact alike_pure (x := Value.text "ok") hspare fun _ hb => by cases hb
      | error e =>
          exact alike_pure (x := Value.list [.text e.kind, .text e.message]) hspare fun _ hb => by cases hb

theorem alike_evalExpr {e : Expr} (he : e.Modest) (hs : State.Spare n k deferred s t) :
    Alike n k deferred (I.evalExpr e) (I.evalExpr e) s t := by
  cases he with
  | lit l =>
      have hplain := Value.isPlain_literal l
      have hself : l.value.renumber (Cells.skip n k) = l.value := Value.renumber_of_isPlain hplain
      have hpure := alike_pure (x := l.value) hs fun b hb => by rw [hplain.2] at hb; cases hb
      rwa [show MentionsBoxes.renumber (Cells.skip n k) l.value = l.value from hself] at hpure
  | enumOf key payload =>
      refine alike_bind_declaredEnum hs key fun type => ?_
      exact alike_pure (x := Value.enum (.ofPayload type payload)) hs fun _ hb => by cases hb
  | flagsOf key payload =>
      refine alike_bind_declaredEnum hs key fun type => ?_
      exact alike_pure (x := Value.flags (.ofBits type payload)) hs fun _ hb => by cases hb
  | list hitems =>
      refine (alike_evalAll hI hitems hs).bind fun vs u u' _ hspare _ hvs => ?_
      have hlist := alike_pure (x := Value.list vs) hspare
        ((Conversion.carried_below hspare.cells.closed).list_iff.mpr hvs)
      rwa [show MentionsBoxes.renumber (Cells.skip n k) (Value.list vs) = _ from Value.renumber_list vs] at hlist
  | map hkeys hvalues =>
      refine (alike_evalEntries hI hkeys hvalues hs).bind fun entries u u' _ hspare _ hentries => ?_
      refine alike_get ?_
      have hmap : ValueMap.ofEntries u'.toWorld.eqv (entries.map (Value.renumberEntry (Cells.skip n k))) =
          (ValueMap.ofEntries u.toWorld.eqv entries).map (Value.renumberEntry (Cells.skip n k)) :=
        ValueMap.ofEntries_renumber (fun v u => hspare.cells.eqv_eq) fun e he => (hentries e he).1
      have hbelow : (Value.map (ValueMap.ofEntries u.toWorld.eqv entries)).Below u.cells.size :=
        (Conversion.carried_below hspare.cells.closed).map_iff.mpr (ValueMap.forall_ofEntries hentries)
      have hpure := alike_pure (x := Value.map (ValueMap.ofEntries u.toWorld.eqv entries)) hspare hbelow
      rw [show MentionsBoxes.renumber (Cells.skip n k) (Value.map (ValueMap.ofEntries u.toWorld.eqv entries)) = _
        from Value.renumber_map _, ← hmap] at hpure
      exact hpure
  | var name => exact alike_readVariable hs name
  | constView he =>
      refine (hI.eval he hs).bind fun v u u' _ hspare _ _ => ?_
      have hhandle : (v.renumber (Cells.skip n k)).asHandle = v.asHandle.map id :=
        (Primitive.asHandle_renumber v).trans (congrFun Except.map_id _).symm
      refine alike_bind_ofExcept hspare hhandle fun h _ => ?_
      exact alike_pure (x := Value.object h.asConst) hspare (Value.below_object _ _)
  | primitive hop hoperands =>
      refine (alike_evalOperands hI hop hoperands hs).bind fun vs u u' _ hspare _ hvs => alike_get ?_
      have happly := alike_bind_ofExcept hspare (Primitive.apply_renumber hspare hop hvs) fun x hx =>
        alike_pure (x := x) hspare ((Conversion.carried_below hspare.cells.closed).apply hx hvs)
      rw [bind_pure, bind_pure] at happly
      exact happly
  | perform haction dest =>
      refine (alike_perform hI haction hs).bind fun v u u' _ hspare _ hv => ?_
      refine (alike_store hspare dest hv).bind fun _ w w' _ hspare' hsize _ => ?_
      exact alike_pure (x := v) hspare' (hv.mono hsize)

theorem alike_execStmt {stmt : Stmt} (hstmt : stmt.Modest) (hs : State.Spare n k deferred s t) :
    Alike n k deferred (I.execStmt stmt) (I.execStmt stmt) s t := by
  cases hstmt with
  | perform haction dest =>
      exact (alike_perform hI haction hs).bind fun v u u' _ hspare _ hv => alike_store hspare dest hv
  | ret he => exact (hI.eval he hs).bind fun v u u' _ hspare _ hv => alike_finish hspare (.value v) hv
  | brk he => exact (hI.eval he hs).bind fun v u u' _ hspare _ hv => alike_finish hspare (.stop v) hv
  | branch hcondition hyes hno =>
      refine (hI.eval hcondition hs).bind fun v u u' _ hspare _ _ => ?_
      have hbool : (v.renumber (Cells.skip n k)).asBool = v.asBool.map id :=
        (Primitive.asBool_renumber v).trans (congrFun Except.map_id _).symm
      refine alike_bind_ofExcept hspare hbool fun b _ => ?_
      cases b with
      | true => exact hI.exec hyes hspare
      | false => exact hI.exec hno hspare

theorem alike_execCode {code : Code} (hcode : ModestCode code) (hs : State.Spare n k deferred s t) :
    Alike n k deferred (I.execCode code) (I.execCode code) s t := by
  induction code generalizing s t with
  | nil => exact alike_pure (x := PUnit.unit) hs trivial
  | cons stmt rest ih =>
      obtain ⟨hstmt, hrest⟩ := List.forall_mem_cons.mp hcode
      refine (alike_execStmt hI hstmt hs).bind fun _ u u' _ hspare _ _ => ?_
      refine alike_bind_hasEnded hspare fun ended => ?_
      cases ended with
      | true => exact alike_pure (x := PUnit.unit) hspare trivial
      | false => exact ih hrest hspare

end Interpreter

/-! ## The whole interpreter -/

/-- Every level runs modest scripts alike. -/
theorem overlooks_interpreter (n k : Nat) (deferred : Code → Prop) (budget : Nat) :
    (interpreter budget).Overlooks n k deferred := by
  induction budget with
  | zero =>
      exact ⟨fun _ hs => ⟨_, _, _, rfl, rfl, hs, Nat.le_refl _, fun _ hx => by cases hx⟩,
        fun _ hs => ⟨_, _, _, rfl, rfl, hs, Nat.le_refl _, fun _ hx => by cases hx⟩⟩
  | succ budget ih =>
      exact ⟨fun he hs => (alike_tick hs).bind fun _ _ _ _ hspare _ _ => Interpreter.alike_evalExpr ih he hspare,
        fun hcode hs => (alike_tick hs).bind fun _ _ _ _ hspare _ _ => Interpreter.alike_execCode ih hcode hspare⟩

/-- Deferred constructors that are modest cannot tell whether there are spare cells. -/
theorem blind_modest (budget : Nat) : Blind (interpreter budget).exec ModestCode := by
  intro n k s t code hcode hs
  have hframe : State.Spare n k ModestCode { s with frames := .native :: s.frames }
      { t with frames := .native :: t.frames } :=
    hs.outside rfl (fun v hv => Or.inl hv)
      (congrArg (fun t : State => { t with frames := .native :: t.frames }) hs.eq_renumber)
  have hbody : State.Spare n k ModestCode
      { s with frames := .native :: s.frames, activations := { mode := .native } :: s.activations }
      { t with frames := .native :: t.frames, activations := { mode := .native } :: t.activations } :=
    hframe.outside rfl (fun v hv => Or.inl hv)
      (congrArg (fun t : State => { t with activations := { mode := .native } :: t.activations }) hframe.eq_renumber)
  exact Alike.inNativeFrame (Alike.activate { mode := .native }
    ((overlooks_interpreter n k ModestCode budget).exec hcode hbody) fun v hv => by cases hv)

end Script

end ObjectBridge
