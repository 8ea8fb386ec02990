import ObjectBridge.Call.Event
import ObjectBridge.Call.Selection
import ObjectBridge.Proofs.Arena.Twin
import ObjectBridge.Proofs.Class.Outline
import ObjectBridge.Proofs.Value.Coverage
import ObjectBridge.State

/-!
# Worlds that differ in native states and constructors

Two worlds with the same boxes, with classes that differ in their constructors alone, and with objects that differ in
their native states alone.  Values are converted and overloads are selected alike in both, and the same handles are in
use.

* `World.Twin` — the worlds.
* `Twin.convert_eq`, `Twin.bind_eq` and `Twin.pick_eq` — conversions, bindings and selections.
* `Twin.sameProxies` — the handles in use.
-/

namespace ObjectBridge

/-- What a value mentions is mentioned by other values too: the handles, up to const views, and the boxes. -/
structure Value.MentionedBy (vs : List Value) (v : Value) : Prop where
  handles : ∀ h ∈ v.handles, ∃ u ∈ vs, ∃ k ∈ u.handles, k.proxy = h.proxy
  boxes : ∀ b ∈ v.boxes, ∃ u ∈ vs, b ∈ u.boxes

theorem Value.MentionedBy.covers {vs values : List Value} {v : Value} (h : v.MentionedBy vs) (cells : Cells)
    (hsub : ∀ u ∈ vs, u ∈ values) : cells.Covers values v := by
  constructor
  · intro k hk
    obtain ⟨u, hu, g, hg, hsame⟩ := h.handles k hk
    exact hsame ▸ (Cells.covers_of_mem (hsub u hu)).handles g hg
  · intro b hb
    obtain ⟨u, hu, hbu⟩ := h.boxes b hb
    exact (Cells.covers_of_mem (hsub u hu)).boxes b hbu

/-- Native states that differ mention nothing of their own. -/
def NativeRel.Transparent (N : NativeRel) (vs : List Value) : Prop :=
  ∀ c x y state, N c x y → x ≠ y → x = some state ∨ y = some state → (Value.map state.fields).MentionedBy vs

namespace World

variable {N : NativeRel} {w w' : World}

/-- The same boxes, and classes and objects that differ in constructors and native states alone. -/
structure Twin (N : NativeRel) (w w' : World) : Prop where
  cells_eq : w'.cells = w.cells
  classes : w.classes.Alike w'.classes
  arena : w.arena.Twin N w'.arena

theorem Twin.eqv_eq (h : w.Twin N w') : w'.eqv = w.eqv := by
  funext v u
  rw [eqv, eqv, h.cells_eq]

theorem Twin.isConst_eq (h : w.Twin N w') (g : Handle) : w'.isConst g = w.isConst g :=
  h.arena.isConst_eq g

theorem Twin.inspect_eq (h : w.Twin N w') (g : Handle) : Lifetime.inspect w' g = Lifetime.inspect w g := by
  rw [Lifetime.inspect, Lifetime.inspect, h.isConst_eq, h.arena.isDestroyed_eq]

theorem Twin.handleText_eq (h : w.Twin N w') (g : Handle) : Lifetime.handleText w' g = Lifetime.handleText w g := by
  -- With `rw` the equation of the definition would be proved first, which takes long for a text.
  delta Lifetime.handleText
  rw [h.isConst_eq]

/-! ## Conversions -/

theorem Twin.toObject_eq (h : w.Twin N w') (cls : String) (passing : Passing) (g : Handle) :
    Conversion.toObject w' cls passing g = Conversion.toObject w cls passing g := by
  simp only [Conversion.toObject, h.arena.isDestroyed_eq, h.classes.lookup?_eq, h.classes.isSubclassOf_eq,
    h.isConst_eq]

theorem Twin.throughBoxes_eq (h : w.Twin N w') : Conversion.throughBoxes w' = Conversion.throughBoxes w := by
  funext type passing v exact'
  rw [Conversion.throughBoxes, Conversion.throughBoxes, h.cells_eq]

/-- Values are converted alike. -/
theorem Twin.convert_eq (h : w.Twin N w') (type : Ty) : Conversion.convert w' type = Conversion.convert w type := by
  induction type with
  | any => rfl
  | list item ih =>
      funext passing v
      rw [Conversion.convert, Conversion.convert, h.throughBoxes_eq, ih]
  | map key value ihKey ihValue =>
      funext passing v
      rw [Conversion.convert, Conversion.convert, h.throughBoxes_eq, ihKey, ihValue, h.eqv_eq]
  | object cls =>
      funext passing v
      simp only [Conversion.convert, h.throughBoxes_eq, h.toObject_eq]
  | _ =>
      funext passing v
      simp only [Conversion.convert, h.throughBoxes_eq]

theorem Twin.bind_eq (h : w.Twin N w') (args : CallArgs) (params : List Param) :
    args.bind w' params = args.bind w params := by
  have hall (position : Nat) (placed : List (Param × Source)) :
      args.convertAll w' position placed = args.convertAll w position placed := by
    induction placed generalizing position with
    | nil => rfl
    | cons entry rest ih => simp only [CallArgs.convertAll, h.convert_eq, ih]
  rw [CallArgs.bind, CallArgs.bind]
  simp only [hall]

theorem Twin.select_eq (h : w.Twin N w') (owner method : String) (signatures : List Signature) (args : CallArgs) :
    Selection.select w' owner method signatures args = Selection.select w owner method signatures args := by
  have hfailure (rejected : List (Nat × Rejection)) :
      Selection.failure w' owner method signatures rejected = Selection.failure w owner method signatures rejected := by
    simp only [Selection.failure, Selection.listing, h.cells_eq]
  have hsearch (i : Nat) (first? : Option Binding) (rejected : List (Nat × Rejection)) (rest : List Signature) :
      Selection.search w' owner method signatures args i first? rejected rest =
        Selection.search w owner method signatures args i first? rejected rest := by
    induction rest generalizing i first? rejected with
    | nil => cases first? <;> simp only [Selection.search, hfailure]
    | cons sig rest ih => simp only [Selection.search, h.bind_eq, ih]
  exact hsearch 0 none [] signatures

/-- Overloads are selected alike. -/
theorem Twin.pick_eq (h : w.Twin N w') (owner method : String) (overloads : List Overload) (args : CallArgs) :
    Selection.pick w' owner method overloads args = Selection.pick w owner method overloads args := by
  rw [Selection.pick, Selection.pick, h.select_eq]

theorem Twin.convertArgs_eq (h : w.Twin N w') (cls event : String) (position : Nat) (given : List (Param × Value)) :
    Event.convertArgs w' cls event position given = Event.convertArgs w cls event position given := by
  induction given generalizing position with
  | nil => rfl
  | cons entry rest ih => simp only [Event.convertArgs, h.convert_eq, ih]

/-! ## Handles in use -/

theorem Twin.symm (h : w.Twin N w') : w'.Twin (fun c x y => N c y x) w where
  cells_eq := h.cells_eq.symm
  classes := h.classes.symm
  arena := h.arena.symm

/-- What the second world holds adds nothing to what the first one holds. -/
theorem Twin.covers (h : w.Twin N w') (hN : N.Transparent w.classes.heldValues) (roots : List Value) {v : Value}
    (hv : v ∈ roots ++ w'.heldValues) : w.cells.Covers (roots ++ w.heldValues) v := by
  have hclasses : w'.classes.heldValues = w.classes.heldValues := h.classes.heldValues_eq
  have hclass {u : Value} (hu : u ∈ w.classes.heldValues) : u ∈ roots ++ w.heldValues :=
    List.mem_append_right _ (List.mem_append_left _ hu)
  rcases List.mem_append.mp hv with hv | hv
  · exact Cells.covers_of_mem (List.mem_append_left _ hv)
  · rcases List.mem_append.mp hv with hv | hv
    · exact Cells.covers_of_mem (hclass (hclasses ▸ hv))
    · rcases h.arena.mem_heldValues hv with hv | ⟨cls, x, state, hxy, hne, rfl⟩
      · exact Cells.covers_of_mem (List.mem_append_right _ (List.mem_append_right _ hv))
      · exact (hN cls x _ state hxy hne (Or.inr rfl)).covers _ fun u hu => hclass hu

/-- The handles in use are the same, up to const views. -/
theorem Twin.sameProxies (h : w.Twin N w') (hN : N.Transparent w.classes.heldValues) (roots : List Value) :
    Arena.SameProxies (w.heldHandles roots) (w'.heldHandles roots) := by
  have hback : NativeRel.Transparent (fun c x y => N c y x) w'.classes.heldValues := by
    intro c x y state hxy hne hstate
    rw [show w'.classes.heldValues = w.classes.heldValues from h.classes.heldValues_eq]
    exact hN c y x state hxy hne.symm hstate.symm
  have hto := Cells.within_of_covers fun v hv => h.covers hN roots (v := v) hv
  have hfrom := Cells.within_of_covers fun v hv => h.symm.covers hback roots (v := v) hv
  intro p
  constructor
  · intro hp
    rw [World.heldHandles, h.cells_eq] at hp
    exact hto.reaches hp
  · intro hp
    rw [World.heldHandles, ← h.cells_eq] at hp
    exact hfrom.reaches hp

end World

end ObjectBridge
