import ObjectBridge.Class.Table
import ObjectBridge.Proofs.Value.Renumber

/-!
# Classes with other numbers for boxes

Classes mention boxes in constants and defaults, and in what the overrides of host code captured.  Other numbers for
these boxes change nothing about the names of classes, where they derive from and how their construction is deferred.

* `ClassTable.renumber` — the table with other numbers for its boxes.
* `ClassTable.ancestors_renumber` — the chain of a class, and with it all that is looked up along the chain.
* `ClassTable.renumber_eq_self` — a table whose boxes keep their numbers.
-/

namespace ObjectBridge

variable {f : BoxId → BoxId}

/-- A named value with other numbers for its boxes. -/
def renumberNamed (f : BoxId → BoxId) (e : String × Value) : String × Value :=
  (e.1, e.2.renumber f)

theorem map_snd_renumberNamed (f : BoxId → BoxId) (es : List (String × Value)) :
    (es.map (renumberNamed f)).map Prod.snd = (es.map Prod.snd).map (Value.renumber f) := by
  simp [renumberNamed]

theorem map_renumberNamed_eq_self {es : List (String × Value)} (h : ∀ v ∈ es.map Prod.snd, v.renumber f = v) :
    es.map (renumberNamed f) = es :=
  Value.map_eq_self fun e he => Prod.ext rfl (h e.2 (List.mem_map_of_mem he))

namespace Callable

/-- Host code with other numbers for the boxes that it captured. -/
def renumber (f : BoxId → BoxId) (g : Callable) : Callable where
  serial := g.serial
  pieces := g.pieces.map fun
    | .captured name v => .captured name (v.renumber f)
    | .statement stmt => .statement stmt

theorem values_renumber (f : BoxId → BoxId) (g : Callable) :
    (g.renumber f).values = g.values.map (Value.renumber f) := by
  obtain ⟨serial, pieces⟩ := g
  simp only [renumber, values, captured]
  induction pieces with
  | nil => rfl
  | cons piece rest ih =>
      cases piece with
      | captured name v => simpa using ih
      | statement stmt => simpa using ih

theorem renumber_eq_self {g : Callable} (h : ∀ v ∈ g.values, v.renumber f = v) : g.renumber f = g := by
  obtain ⟨serial, pieces⟩ := g
  refine congrArg (Callable.mk serial) (Value.map_eq_self fun piece hpiece => ?_)
  cases piece with
  | captured name v =>
      refine congrArg (Piece.captured name) (h v (List.mem_map.mpr ⟨(name, v), ?_, rfl⟩))
      exact List.mem_filterMap.mpr ⟨_, hpiece, rfl⟩
  | statement stmt => rfl

end Callable

namespace Overrides

/-- Overrides with other numbers for the boxes that they captured. -/
def renumber (f : BoxId → BoxId) (o : Overrides) : Overrides :=
  o.map fun e => (e.1, e.2.renumber f)

theorem values_renumber (f : BoxId → BoxId) (o : Overrides) :
    values (o.renumber f) = o.values.map (Value.renumber f) := by
  simp [renumber, values, List.flatMap_map, List.map_flatMap, Callable.values_renumber]

theorem renumber_eq_self {o : Overrides} (h : ∀ v ∈ o.values, v.renumber f = v) : o.renumber f = o := by
  refine Value.map_eq_self fun e he => Prod.ext rfl (Callable.renumber_eq_self fun v hv => h v ?_)
  exact List.mem_flatMap.mpr ⟨e, he, hv⟩

end Overrides

/-! ## Declarations -/

/-- A parameter with other numbers for the boxes of its default. -/
def Param.renumber (f : BoxId → BoxId) (p : Param) : Param :=
  { p with default? := p.default?.map (Value.renumber f) }

/-- The defaults of parameters. -/
theorem filterMap_default?_renumber (f : BoxId → BoxId) (ps : List Param) :
    (ps.map (Param.renumber f)).filterMap Param.default? =
      (ps.filterMap Param.default?).map (Value.renumber f) := by
  rw [List.filterMap_map, List.map_filterMap]
  rfl

theorem map_param_renumber_eq_self {ps : List Param} (h : ∀ v ∈ ps.filterMap Param.default?, v.renumber f = v) :
    ps.map (Param.renumber f) = ps := by
  refine Value.map_eq_self fun p hp => ?_
  have hdefault : p.default?.map (Value.renumber f) = p.default? := by
    cases hp' : p.default? with
    | none => rfl
    | some v => exact congrArg some (h v (List.mem_filterMap.mpr ⟨p, hp, hp'⟩))
  rw [Param.renumber, hdefault]

/-- An overload with other numbers for the boxes of its defaults. -/
def Overload.renumber (f : BoxId → BoxId) (o : Overload) : Overload :=
  { o with sig := { o.sig with params := o.sig.params.map (Param.renumber f) } }

theorem Overload.defaults_renumber (f : BoxId → BoxId) (o : Overload) :
    (o.renumber f).defaults = o.defaults.map (Value.renumber f) :=
  filterMap_default?_renumber f o.sig.params

theorem Overload.renumber_eq_self {o : Overload} (h : ∀ v ∈ o.defaults, v.renumber f = v) : o.renumber f = o := by
  rw [renumber, map_param_renumber_eq_self h]

/-- A mixin with other numbers for the boxes of its constants. -/
def Mixin.renumber (f : BoxId → BoxId) (m : Mixin) : Mixin :=
  { m with constants := m.constants.map (renumberNamed f) }

/-- An event with other numbers for the boxes of its defaults. -/
def EventInfo.renumber (f : BoxId → BoxId) (e : EventInfo) : EventInfo :=
  { e with params := e.params.map (Param.renumber f) }

theorem EventInfo.defaults_renumber (f : BoxId → BoxId) (e : EventInfo) :
    (e.renumber f).defaults = e.defaults.map (Value.renumber f) :=
  filterMap_default?_renumber f e.params

namespace ClassInfo

/-- A class with other numbers for its boxes. -/
def renumber (f : BoxId → BoxId) (c : ClassInfo) : ClassInfo :=
  { c with
    mixins := c.mixins.map (Mixin.renumber f)
    constants := c.constants.map (renumberNamed f)
    methods := c.methods.map fun e => (e.1, e.2.map (Overload.renumber f))
    constructors := c.constructors.map (Overload.renumber f)
    events := c.events.map (EventInfo.renumber f)
    overrides := c.overrides.map (Overrides.renumber f) }

theorem heldValues_renumber (f : BoxId → BoxId) (c : ClassInfo) :
    (c.renumber f).heldValues = c.heldValues.map (Value.renumber f) := by
  have hoverrides : ((c.overrides.map (Overrides.renumber f)).map Overrides.values).getD [] =
      ((c.overrides.map Overrides.values).getD []).map (Value.renumber f) := by
    cases c.overrides with
    | none => rfl
    | some o => exact Overrides.values_renumber f o
  simp only [renumber, heldValues, List.map_append, hoverrides, map_snd_renumberNamed, List.flatMap_map,
    List.map_flatMap, Mixin.renumber, Overload.defaults_renumber, EventInfo.defaults_renumber]

theorem renumber_eq_self {c : ClassInfo} (h : ∀ v ∈ c.heldValues, v.renumber f = v) : c.renumber f = c := by
  simp only [heldValues, List.mem_append, or_imp, forall_and] at h
  obtain ⟨⟨⟨⟨⟨hconstants, hmixins⟩, hmethods⟩, hconstructors⟩, hevents⟩, hoverrides⟩ := h
  have hmixins' : c.mixins.map (Mixin.renumber f) = c.mixins := by
    refine Value.map_eq_self fun m hm => ?_
    rw [Mixin.renumber, map_renumberNamed_eq_self fun v hv => hmixins v (List.mem_flatMap.mpr ⟨m, hm, hv⟩)]
  have hmethods' : (c.methods.map fun e => (e.1, e.2.map (Overload.renumber f))) = c.methods := by
    refine Value.map_eq_self fun e he => Prod.ext rfl (Value.map_eq_self fun o ho => ?_)
    refine Overload.renumber_eq_self fun v hv => hmethods v (List.mem_flatMap.mpr ⟨e, he, ?_⟩)
    exact List.mem_flatMap.mpr ⟨o, ho, hv⟩
  have hconstructors' : c.constructors.map (Overload.renumber f) = c.constructors := by
    refine Value.map_eq_self fun o ho => Overload.renumber_eq_self fun v hv => hconstructors v ?_
    exact List.mem_flatMap.mpr ⟨o, ho, hv⟩
  have hevents' : c.events.map (EventInfo.renumber f) = c.events := by
    refine Value.map_eq_self fun e he => ?_
    rw [EventInfo.renumber, map_param_renumber_eq_self fun v hv => hevents v (List.mem_flatMap.mpr ⟨e, he, hv⟩)]
  have hoverrides' : c.overrides.map (Overrides.renumber f) = c.overrides := by
    cases hfound : c.overrides with
    | none => rfl
    | some o => exact congrArg some (Overrides.renumber_eq_self fun v hv => hoverrides v (by simpa [hfound] using hv))
  rw [renumber, hmixins', map_renumberNamed_eq_self hconstants, hmethods', hconstructors', hevents', hoverrides']

end ClassInfo

namespace ClassTable

/-- The table with other numbers for its boxes. -/
def renumber (f : BoxId → BoxId) (t : ClassTable) : ClassTable :=
  ofClasses (t.classes.map (ClassInfo.renumber f))

theorem renumber_eq_self {t : ClassTable} (h : ∀ v ∈ t.classes.flatMap ClassInfo.heldValues, v.renumber f = v) :
    t.renumber f = t := by
  refine ext_classes (Value.map_eq_self fun c hc => ClassInfo.renumber_eq_self fun v hv => h v ?_)
  exact List.mem_flatMap.mpr ⟨c, hc, hv⟩

theorem heldValues_renumber (f : BoxId → BoxId) (t : ClassTable) :
    (t.renumber f).classes.flatMap ClassInfo.heldValues =
      (t.classes.flatMap ClassInfo.heldValues).map (Value.renumber f) := by
  simp [renumber, ofClasses, List.flatMap_map, List.map_flatMap, ClassInfo.heldValues_renumber]

/-! ## Look-ups -/

variable {t : ClassTable}

theorem get?_renumber (id : ClassId) : (t.renumber f).get? id = (t.get? id).map (ClassInfo.renumber f) :=
  List.getElem?_map

theorem descriptor_renumber (id : ClassId) :
    (t.renumber f).descriptor id = (t.descriptor id).map (ClassInfo.renumber f) := by
  rw [descriptor, descriptor, get?_renumber]
  cases t.get? id <;> rfl

theorem lookup?_renumber (name : String) : (t.renumber f).lookup? name = t.lookup? name := by
  rw [lookup?_eq_find?, lookup?_eq_find?, renumber, ofClasses, List.find?_map]
  simp [Function.comp_def, ClassInfo.renumber]

theorem require_renumber (name : String) : (t.renumber f).require name = t.require name := by
  rw [require, require, lookup?_renumber]

theorem chainFrom_renumber (fuel : Nat) (c : Option ClassInfo) :
    (t.renumber f).chainFrom fuel (c.map (ClassInfo.renumber f)) = (t.chainFrom fuel c).map (ClassInfo.renumber f) := by
  induction fuel generalizing c with
  | zero => rfl
  | succ fuel ih =>
      cases c with
      | none => rfl
      | some c =>
          have hbase : (c.renumber f).base.bind (t.renumber f).get? =
              (c.base.bind t.get?).map (ClassInfo.renumber f) := by
            show c.base.bind (t.renumber f).get? = _
            rw [Option.map_bind]
            exact congrArg _ (funext get?_renumber)
          rw [Option.map_some, chainFrom, chainFrom, hbase, ih, List.map_cons]

/-- The chain of a class is made of the same classes. -/
theorem ancestors_renumber (id : ClassId) :
    (t.renumber f).ancestors id = (t.ancestors id).map (ClassInfo.renumber f) := by
  rw [ancestors, ancestors, get?_renumber, renumber, ofClasses, List.length_map]
  exact chainFrom_renumber _ _

theorem isSubclassOf_renumber (id ancestor : ClassId) :
    (t.renumber f).isSubclassOf id ancestor = t.isSubclassOf id ancestor := by
  rw [isSubclassOf, isSubclassOf, ancestors_renumber, List.any_map]
  rfl

theorem findLazy_renumber (id : ClassId) : (t.renumber f).findLazy id = t.findLazy id := by
  rw [findLazy, findLazy, ancestors_renumber, List.findSome?_map]
  rfl

end ClassTable

end ObjectBridge
