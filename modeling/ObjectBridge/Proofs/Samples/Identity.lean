import ObjectBridge.Proofs.Call.Choice
import ObjectBridge.Proofs.Call.Overriding
import ObjectBridge.Proofs.Class.Order
import ObjectBridge.Proofs.Class.Outline
import ObjectBridge.Proofs.Script.Bodies
import ObjectBridge.Proofs.Value.WellTyped

/-!
# What is read of the objects of a sample class

The class `A` has methods that read the fields of its state.  They look at the class of the receiver first, because an
object of `AChild` has a state of another type.

* `Samples.Loaded` — the sample classes are registered.
* `Identity.readers` and `Identity.IsState` — the methods that read, and the states that they read.
* `Identity.ReadsLike` — the classes whose objects read like those of `A`, among them the ones that host code derives.
* `Identity.answers_of_isState` — an object of such a class answers with its fields.
-/

namespace ObjectBridge

open Run

namespace Delivery

/-- A result of a type without parts is delivered as it is. -/
theorem outcome_give_of_ofScalar (exec : Exec) {type : Ty} {v : Value} (hscalar : Conversion.isScalar type = true)
    (hof : Conversion.OfScalar type v) (owner method : String) (s : State) :
    (give exec owner method type .value v).outcome s = (.ok v, s) := by
  have hconverted : (give.converted type v).outcome s = (.ok v, s) := by
    have htyped : Conversion.WellTyped s.toWorld type .value v :=
      (Conversion.wellTyped_scalar_iff hscalar).mpr (Or.inr hof)
    rw [give.converted, outcome_get_bind, Conversion.convert_of_wellTyped htyped]
    rfl
  rw [← hconverted]
  cases type with
  | any | object cls | list item | map key value => cases hscalar
  | _ =>
      rw [give]
      all_goals simp

end Delivery

namespace Samples

/-! ## The registered classes -/

/-- A class is in the table as a draft describes it. -/
structure Registered (t : ClassTable) (d : ClassDraft) (c : ClassInfo) : Prop where
  get?_eq : t.get? c.id = some c
  name_eq : c.name = d.name
  base_eq : d.base = none → c.base = none
  methods_eq : ClassTable.groupMethods d.name [] d.methods = .ok c.methods
  overrides_eq : c.overrides = none

/-- The sample classes were registered at some time. -/
def Loaded (t : ClassTable) : Prop :=
  ∃ s u, register.outcome s = (.ok (), u) ∧ u.classes.Extends t

variable {s u : State} {t t' : ClassTable} {d : ClassDraft} {id : ClassId} {c : ClassInfo}

theorem Registered.extends (h : Registered t d c) (hextends : t.Extends t') : Registered t' d c :=
  { h with get?_eq := hextends.get? h.get?_eq }

theorem exists_registered_of_define (h : t.define d = .ok (id, t')) : t.Extends t' ∧ ∃ c, Registered t' d c := by
  obtain ⟨c, hbuild, hregister⟩ := bind_eq_ok_iff.mp h
  obtain ⟨rfl, rfl⟩ := ClassTable.register_cases hregister
  refine ⟨ClassTable.extends_snoc _ c, c, ?_⟩
  obtain ⟨base, hbase, hbuild⟩ := bind_eq_ok_iff.mp hbuild
  obtain ⟨methods, hmethods, hbuild⟩ := bind_eq_ok_iff.mp hbuild
  obtain rfl := Except.ok.inj hbuild
  refine ⟨(ClassTable.get?_snoc _ _ _).trans (if_pos rfl), rfl, fun hnone => ?_, hmethods, rfl⟩
  rw [hnone] at hbase
  exact (Except.ok.inj hbase).symm

/-- All the drafts are registered, one after the other. -/
theorem exists_registered_of_registerAll {drafts : List ClassDraft}
    (hrun : (registerAll drafts).outcome s = (.ok (), u)) :
    s.classes.Extends u.classes ∧ ∀ d ∈ drafts, ∃ c, Registered u.classes d c := by
  -- A class that was registered stays in the table while the others follow.
  induction drafts generalizing s with
  | nil =>
      obtain ⟨-, rfl⟩ := eq_of_outcome_pure hrun
      exact ⟨.refl _, fun d hd => absurd hd List.not_mem_nil⟩
  | cons d rest ih =>
      rw [registerAll, outcome_get_bind] at hrun
      obtain ⟨⟨id, classes⟩, s₁, hadd, hrun⟩ := exists_of_outcome_bind hrun
      obtain ⟨hdefine, rfl⟩ := eq_of_outcome_ofExcept hadd
      obtain ⟨_, s₂, hmodify, hrun⟩ := exists_of_outcome_bind hrun
      obtain rfl := (Prod.mk.inj hmodify).2
      obtain ⟨hlater, hrest⟩ := ih hrun
      obtain ⟨hfirst, c, hc⟩ := exists_registered_of_define hdefine
      exact ⟨hfirst.trans hlater, List.forall_mem_cons.mpr ⟨⟨c, hc.extends hlater⟩, hrest⟩⟩

/-- A class that the drafts have brought up defers its construction as one of them says. -/
theorem exists_draft_of_registerAll {drafts : List ClassDraft} {l : LazyConstructor}
    (hrun : (registerAll drafts).outcome s = (.ok (), u)) (hc : c ∈ u.classes.classes)
    (hl : c.lazyConstructor = some l) : c ∈ s.classes.classes ∨ ∃ d ∈ drafts, d.lazyConstructor = some l := by
  induction drafts generalizing s with
  | nil =>
      obtain ⟨-, rfl⟩ := eq_of_outcome_pure hrun
      exact Or.inl hc
  | cons d rest ih =>
      rw [registerAll, outcome_get_bind] at hrun
      obtain ⟨⟨id, classes⟩, s₁, hadd, hrun⟩ := exists_of_outcome_bind hrun
      obtain ⟨hdefine, rfl⟩ := eq_of_outcome_ofExcept hadd
      obtain ⟨_, s₂, hmodify, hrun⟩ := exists_of_outcome_bind hrun
      obtain rfl := (Prod.mk.inj hmodify).2
      obtain ⟨added, hbuild, hregister⟩ := bind_eq_ok_iff.mp hdefine
      obtain ⟨rfl, rfl⟩ := ClassTable.register_cases hregister
      rcases ih hrun with hbefore | ⟨d', hd', hsame⟩
      · rcases List.mem_append.mp hbefore with hbefore | hlast
        · exact Or.inl hbefore
        · obtain rfl := List.mem_singleton.mp hlast
          exact Or.inr ⟨d, List.mem_cons_self, (ClassTable.constructors_of_build hbuild).2 ▸ hl⟩
      · exact Or.inr ⟨d', List.mem_cons_of_mem d hd', hsame⟩

theorem Loaded.exists_registered (ht : Loaded t) (hd : d ∈ library) : ∃ c, Registered t d c := by
  obtain ⟨s, u, hrun, hextends⟩ := ht
  rw [register] at hrun
  obtain ⟨_, v, hall, hmodify⟩ := exists_of_outcome_bind hrun
  obtain rfl := (Prod.mk.inj hmodify).2
  obtain ⟨c, hc⟩ := (exists_registered_of_registerAll hall).2 d hd
  exact ⟨c, hc.extends hextends⟩

/-- A class that is registered is found by its name. -/
theorem Registered.require_eq {ds : List Definition} (hds : Defines ds t) (h : Registered t d c) :
    t.require d.name = .ok c.id := by
  have hfound : t.lookup? d.name = some c.id := by
    rw [hds.ordered.lookup?_iff]
    exact ⟨ClassTable.lt_nextId_of_get? h.get?_eq, (ClassTable.nameOf_eq h.get?_eq).trans h.name_eq⟩
  rw [ClassTable.require, hfound]

namespace Identity

/-! ## Methods that read -/

/-- A method that reads a field of `A`, and the type of its result. -/
structure Reader where
  method : String
  field : String
  type : Ty

/-- The methods that read the fields of `A`. -/
def readers : List Reader :=
  [⟨"a1", "n", intTy⟩, ⟨"flag", "flag", .bool⟩, ⟨"get_u16", "u", .int .uint16⟩]

/-- The overload of a method that reads. -/
def Reader.overload (r : Reader) : Overload where
  sig := { result := some (r.type, .value), isConst := true }
  body := .native (getter r.field)

/-- The native states of `A`: a number, a flag and a small number.  Host code could also make an object of `A` with a
state of another type. -/
structure IsState (x : NativeState) : Prop where
  shape_eq : x.shape = shape
  ofScalar : ∀ r ∈ readers, Conversion.OfScalar r.type (x.field r.field)

/-- Whether a native state is one of `A`. -/
def checkState (x : NativeState) : Bool :=
  x.shape == shape &&
    match x.field "n", x.field "flag", x.field "u" with
    | .int n, .bool _, .uint u => -2 ^ 31 ≤ n.toInt && n.toInt < 2 ^ 31 && u.toNat < 2 ^ 16
    | _, _, _ => false

theorem isState_of_checkState {x : NativeState} (h : checkState x = true) : IsState x := by
  obtain ⟨hshape, hfields⟩ := Bool.and_eq_true_iff.mp h
  split at hfields
  · rename_i n b u hn hb hu
    simp only [Bool.and_eq_true, decide_eq_true_eq] at hfields
    obtain ⟨⟨hlower, hupper⟩, hsmall⟩ := hfields
    refine ⟨eq_of_beq hshape, fun r hr => ?_⟩
    simp only [readers, List.mem_cons, List.not_mem_nil, or_false] at hr
    rcases hr with rfl | rfl | rfl
    · rw [hn]
      exact ⟨rfl, hlower, hupper⟩
    · exact ⟨b, hb⟩
    · rw [hu]
      exact ⟨rfl, hsmall⟩
  · cases hfields

variable {ds : List Definition} {a : ClassId} {r : Reader}

/-- The methods are declared once each. -/
theorem lookup_overload (hr : r ∈ readers) :
    (ClassTable.groupMethods draft.name [] draft.methods).map (fun methods => methods.lookup r.method) =
      .ok (some [r.overload]) := by
  simp only [readers, List.mem_cons, List.not_mem_nil, or_false] at hr
  rcases hr with rfl | rfl | rfl <;> rfl

theorem ancestors_eq (hds : Defines ds t) (hc : Registered t draft c) : t.ancestors c.id = [c] := by
  rw [hds.numbered.ancestors_eq hc.get?_eq, hc.base_eq rfl]
  rfl

theorem isScalar_type (hr : r ∈ readers) : Conversion.isScalar r.type = true := by
  simp only [readers, List.mem_cons, List.not_mem_nil, or_false] at hr
  rcases hr with rfl | rfl | rfl <;> rfl

/-- `A` has one overload of a method that reads. -/
theorem findMethod_overload (hds : Defines ds t) (hc : Registered t draft c) (hr : r ∈ readers) :
    t.findMethod c.id r.method = some ⟨"A", [r.overload]⟩ := by
  have hmethod : c.method? r.method = some [r.overload] := by
    have hlookup := lookup_overload hr
    rw [hc.methods_eq] at hlookup
    exact Except.ok.inj hlookup
  have hname : c.name = "A" := hc.name_eq
  rw [ClassTable.findMethod, ancestors_eq hds hc]
  simp [hmethod, hname]

/-- The classes that host code derives from `A` do not derive from `AChild`. -/
theorem isSubclassOf_child (hds : Defines ds t) (hc : Registered t draft c) {child : ClassInfo}
    (hchild : Registered t childDraft child) {id : ClassId} (hid : t.HostDerived id c.id) :
    t.isSubclassOf id child.id = false := by
  have hother : c.id ≠ child.id := by
    -- One class would have both names.
    intro hsame
    have hget := hc.get?_eq
    rw [hsame, hchild.get?_eq] at hget
    obtain rfl := Option.some.inj hget
    exact absurd (hc.name_eq.symm.trans hchild.name_eq) (by decide)
  rw [hds.isSubclassOf_eq hid hchild.get?_eq hchild.overrides_eq, ClassTable.isSubclassOf,
    ancestors_eq hds hc]
  simp [hother]

/-- A class has for a method what `A` has, and does not derive from `AChild`. -/
structure ReadsLike (t : ClassTable) (id : ClassId) (method : String) : Prop where
  findMethod_eq : ∀ a, t.require "A" = .ok a → t.findMethod id method = t.findMethod a method
  isSubclassOf_eq : ∀ child, t.require "AChild" = .ok child → t.isSubclassOf id child = false

/-- The classes that host code derives from `A` read like `A`. -/
theorem readsLike_of_hostDerived (hds : Defines ds t) (ht : Loaded t) (ha : t.require "A" = .ok a) {id : ClassId}
    (hid : t.HostDerived id a) (method : String) : ReadsLike t id method := by
  obtain ⟨c, hc⟩ := ht.exists_registered (d := draft) (by simp [library])
  obtain ⟨child, hchild⟩ := ht.exists_registered (d := childDraft) (by simp [library])
  obtain rfl : c.id = a := Except.ok.inj ((hc.require_eq hds).symm.trans ha)
  refine ⟨fun a ha' => ?_, fun b hb => ?_⟩
  · obtain rfl : c.id = a := Except.ok.inj (ha.symm.trans ha')
    exact hds.findMethod_eq hid method
  · obtain rfl : child.id = b := Except.ok.inj ((hchild.require_eq hds).symm.trans hb)
    exact isSubclassOf_child hds hc hchild hid

/-! ## What is read -/

section Reading

open Script

variable {h : Handle} {i : Instance} {x : NativeState} {b : Activation}

/-- A state of the type asked for is read, and nothing changes. -/
theorem outcome_native (exec : Exec) (hi : u.arena.get? h.target = some i) (hx : i.native = some x)
    (hname : x.shape.name = "A") : (Lifetime.native exec h "A").outcome u = (.ok x, u) := by
  have hkept : i.native.filter (fun state => state.shape.name == "A") = some x := by
    rw [hx, Option.filter_some, hname]
    rfl
  rw [Lifetime.native, Lifetime.typedState, outcome_bind_of_ok (Lifetime.outcome_materialize_of_native _ hi hx _),
    outcome_bind_of_ok (Lifetime.outcome_resolve_of_some hi _), hkept]
  rfl

theorem outcome_receiver (hrecv : b.receiver = some h) :
    receiver.outcome (running b u) = (.ok h, running b u) := by
  obtain ⟨mode, recv, args, locals, ended⟩ := b
  obtain rfl : recv = some h := hrecv
  rfl

/-- The receiver does not derive from `AChild`. -/
theorem outcome_receiverIs (budget : Nat) (hrecv : b.receiver = some h) {child : ClassId}
    (hchild : u.classes.require "AChild" = .ok child) (hnot : u.classes.isSubclassOf h.cls child = false)
    (hsteps : (running b u).stepsLeft = none) :
    ((interpreter (budget + 1)).eval (result (.receiverIs "AChild"))).outcome (running b u) =
      (.ok (.bool false), running b u) := by
  have hclass : ((interpreter budget).perform (.receiverIs "AChild")).outcome (running b u) =
      (.ok (.bool false), running b u) := by
    rw [Interpreter.perform, outcome_bind_of_ok (outcome_receiver hrecv), outcome_get_bind]
    show (do return Value.bool (u.classes.isSubclassOf h.cls (← ofExcept (u.classes.require "AChild"))) :
      Run Value).outcome (running b u) = _
    rw [hchild, ← hnot]
    rfl
  rw [outcome_eval_succ _ _ hsteps, result, Interpreter.evalExpr, outcome_bind_of_ok hclass]
  rfl

/-- A field of the receiver's state is read. -/
theorem outcome_state (budget : Nat) (hrecv : b.receiver = some h) (hi : u.arena.get? h.target = some i)
    (hx : i.native = some x) (hname : x.shape.name = "A") (hsteps : (running b u).stepsLeft = none)
    (field : String) :
    ((interpreter (budget + 1)).eval (.state "A" field)).outcome (running b u) =
      (.ok (x.field field), running b u) := by
  have hnative : (Lifetime.native (interpreter budget).exec h "A").outcome (running b u) =
      (.ok x, running b u) := outcome_native (u := running b u) _ hi hx hname
  rw [outcome_eval_succ _ _ hsteps, Interpreter.evalExpr, outcome_bind_of_ok (outcome_receiver hrecv),
    outcome_bind_of_ok hnative]
  rfl

/-- The code of a method that reads yields the field, for a receiver that does not derive from `AChild`. -/
theorem outcome_getter (budget : Nat) (hrecv : b.receiver = some h) {child : ClassId}
    (hchild : u.classes.require "AChild" = .ok child) (hnot : u.classes.isSubclassOf h.cls child = false)
    (hi : u.arena.get? h.target = some i) (hx : i.native = some x) (hname : x.shape.name = "A")
    (hsteps : (running b u).stepsLeft = none) (field : String) :
    ((interpreter (budget + 3)).exec (getter field)).outcome (running b u) =
      (.ok (), running { b with ended := some (.value (x.field field)) } u) := by
  have hread : ((interpreter (budget + 2)).exec [.ret (.state "A" field)]).outcome (running b u) =
      (.ok (), running { b with ended := some (.value (x.field field)) } u) := by
    rw [outcome_exec_succ (budget + 1) _ hsteps]
    exact outcome_execCode_ret_of_eval (outcome_state budget hrecv hi hx hname hsteps field)
  have hbranch : ((interpreter (budget + 2)).execStmt (.branch (result (.receiverIs "AChild"))
      [.ret (.state "AChild" field)] [.ret (.state "A" field)])).outcome (running b u) =
      (.ok (), running { b with ended := some (.value (x.field field)) } u) := by
    rw [Interpreter.execStmt, outcome_bind_of_ok (outcome_receiverIs (budget + 1) hrecv hchild hnot hsteps)]
    exact hread
  rw [outcome_exec_succ (budget + 2) _ hsteps, getter, onState, Interpreter.execCode, outcome_bind_of_ok hbranch]
  rfl

/-- The body of a method that reads leaves the field. -/
theorem outcome_runPlain_getter (budget : Nat) {child : ClassId} (hchild : u.classes.require "AChild" = .ok child)
    (hnot : u.classes.isSubclassOf h.cls child = false) (hi : u.arena.get? h.target = some i)
    (hx : i.native = some x) (hname : x.shape.name = "A") (hsteps : u.stepsLeft = none) (field : String) :
    (Dispatch.runPlain (interpreter (budget + 3)).exec h [] (getter field)).outcome u =
      (.ok (x.field field, []), u) := by
  have hcode : ((interpreter (budget + 3)).exec (getter field)).outcome (Lifetime.nativeStart u (some h) []) =
      (.ok (), running { mode := .native, receiver := some h, ended := some (.value (x.field field)) }
        { u with frames := .native :: u.frames }) :=
    outcome_getter (b := { mode := .native, receiver := some h }) (u := { u with frames := .native :: u.frames })
      budget rfl hchild hnot hi hx hname hsteps field
  have hrun : (Lifetime.runNative (interpreter (budget + 3)).exec (some h) [] (getter field)).outcome u =
      (.ok { mode := .native, receiver := some h, ended := some (.value (x.field field)) }, u) := by
    rw [Lifetime.outcome_runNative, hcode]
    rfl
  rw [Dispatch.runPlain, outcome_bind_of_ok hrun]
  rfl

/-- A call without arguments answers a value, and leaves everything as it is. -/
def Answers (exec : Exec) (s : State) (h : Handle) (method : String) (v : Value) : Prop :=
  (Dispatch.call exec h method {}).outcome s = (.ok (v, {}), s)

/-- A method without parameters takes no arguments. -/
theorem pick_overload (w : World) (owner : String) (r : Reader) :
    Selection.pick w owner r.method [r.overload] {} = .ok (r.overload, ⟨0, [], []⟩) := by
  have hselect : Selection.select w owner r.method [r.overload.sig] {} = .ok ⟨0, [], []⟩ := rfl
  rw [Selection.pick, List.map_cons, List.map_nil, hselect]
  rfl

/-- A call selects the overload, through a const handle too. -/
theorem outcome_choose (exec : Exec) (hfound : u.classes.findMethod h.cls r.method = some ⟨"A", [r.overload]⟩)
    (hi : u.arena.get? h.target = some i) (hx : i.native = some x) :
    (Dispatch.choose exec h r.method {}).outcome u = (.ok ⟨"A", r.overload, ⟨0, [], []⟩⟩, u) := by
  have heligible : Dispatch.eligible u h [r.overload] = [r.overload] := by
    rw [Dispatch.eligible]
    split <;> rfl
  have hresolves : Dispatch.Resolves u h r.method {} ⟨"A", r.overload, ⟨0, [], []⟩⟩ := by
    refine ⟨[r.overload], hfound, ?_⟩
    rw [heligible]
    exact pick_overload _ _ r
  exact Dispatch.outcome_choose_of_resolves (Lifetime.outcome_materialize_of_native exec hi hx _) hresolves

/-- An object of a class that reads like `A` answers with a field of its state. -/
theorem answers_of_isState (hds : Defines ds u.classes) (hu : Loaded u.classes)
    (hlike : ReadsLike u.classes h.cls r.method) (hi : u.arena.get? h.target = some i) (hx : i.native = some x)
    (hstate : IsState x) (hsteps : u.stepsLeft = none) (hr : r ∈ readers) (budget : Nat) :
    Answers (interpreter (budget + 3)).exec u h r.method (x.field r.field) := by
  obtain ⟨c, hc⟩ := hu.exists_registered (d := draft) (by simp [library])
  obtain ⟨child, hchild⟩ := hu.exists_registered (d := childDraft) (by simp [library])
  have hrequire := hchild.require_eq hds
  have hfound := (hlike.findMethod_eq c.id (hc.require_eq hds)).trans (findMethod_overload hds hc hr)
  have hname : x.shape.name = "A" := by rw [hstate.shape_eq]; rfl
  have hchoose := outcome_choose (u := withHeld u []) (interpreter (budget + 3)).exec hfound hi hx
  have hbody := outcome_runPlain_getter (u := withHeld u []) budget hrequire
    (hlike.isSubclassOf_eq child.id hrequire) hi hx hname hsteps r.field
  have hgive := Delivery.outcome_give_of_ofScalar (interpreter (budget + 3)).exec (isScalar_type hr)
    (hstate.ofScalar r hr) "A" r.method (withHeld u [])
  rw [Answers, Dispatch.call, (Dispatch.ready_of_choose (outcome_holding_of_ok hchoose) rfl).outcome_invoke rfl,
    outcome_bind_of_ok (Dispatch.outcome_overrideFor_of_not rfl)]
  refine (congrArg (Dispatch.afterBody _ _ _ _) hbody).trans ?_
  -- There is nothing to write back.
  exact outcome_bind_of_ok (outcome_holding_of_ok hgive) _

end Reading

end Identity

end Samples

end ObjectBridge
