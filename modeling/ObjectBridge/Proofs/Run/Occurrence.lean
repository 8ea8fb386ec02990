import ObjectBridge.Proofs.Arena.Contents
import ObjectBridge.Proofs.Run.Conserves
import ObjectBridge.Proofs.Value.Coverage

/-!
# Where handles exist

`State.Occurs` says in so many words where a value can exist: in a variable, in a callable, in an operation
or body that has not ended, in a class or in an object, and inside of another value that exists.

A box keeps its content for as long as it is referred to.  A box that is referred to by itself alone, or by
others of which the same holds, is never let go of; so a box keeps its content if it is one of a set of
boxes that are each referred to by a value in use or by a box of the set.

* `State.occurs_object_iff` — the handles that exist are the handles in use.
-/

namespace ObjectBridge.State

/-- A value exists in a state. -/
inductive Occurs (s : State) : Value → Prop
  /-- A variable of the session has the value. -/
  | variable {name : String} {v : Value} (hv : (name, v) ∈ s.globals) : s.Occurs v
  /-- A named callable captured it. -/
  | captured {name : String} {f : Callable} {v : Value} (hf : (name, f) ∈ s.callables)
      (hv : v ∈ f.values) : s.Occurs v
  /-- An operation that has not ended has it. -/
  | pending {vs : List Value} {v : Value} (hvs : vs ∈ s.held) (hv : v ∈ vs) : s.Occurs v
  /-- A running body has it: as receiver, as an argument, in a variable or as a result. -/
  | running {a : Activation} {v : Value} (ha : a ∈ s.activations) (hv : v ∈ a.values) : s.Occurs v
  /-- A class has it: as a constant, as a default, or captured by an override. -/
  | ofClass {c : ClassInfo} {v : Value} (hc : c ∈ s.classes.classes) (hv : v ∈ c.heldValues) :
      s.Occurs v
  /-- An object has it: in its native state, or captured by an override or by a handler. -/
  | ofObject {r : Reference} {i : Instance} {v : Value} (hi : s.arena.get? r = some i)
      (hv : v ∈ i.heldValues) : s.Occurs v
  | item {items : List Value} {v : Value} (hitems : s.Occurs (.list items)) (hv : v ∈ items) :
      s.Occurs v
  | key {entries : List (Value × Value)} {e : Value × Value} (hentries : s.Occurs (.map entries))
      (he : e ∈ entries) : s.Occurs e.1
  | value {entries : List (Value × Value)} {e : Value × Value}
      (hentries : s.Occurs (.map entries)) (he : e ∈ entries) : s.Occurs e.2
  /-- A box that was not let go of has it. -/
  | content {set : BoxId → Prop} {b : BoxId} (hset : s.cells.Supported (s.inUse []) set)
      (hb : set b) : s.Occurs (s.cells.content b)

variable {s : State}

theorem handles_eq (s : State) : s.handles = s.cells.handlesInUse (s.inUse []) := rfl

/-- A handle that is kept is in use. -/
theorem exists_mem_handles_of_pinned {p : Proxy} (hp : p ∈ s.pinned) :
    ∃ k ∈ s.handles, k.proxy = p := by
  obtain ⟨v, hv, h, hh, rfl⟩ := hp
  refine ⟨h, ?_, rfl⟩
  rw [handles_eq, Cells.mem_handlesInUse_iff]
  exact Or.inl ⟨v, mem_inUse_of_mem_roots (mem_roots_of_mem_kept hv) [], hh⟩

theorem closed_occurs (s : State) : Value.Closed s.Occurs :=
  ⟨fun _ hitems _ hv => .item hitems hv, fun _ hentries _ he => ⟨.key hentries he, .value hentries he⟩⟩

/-- The values in use exist. -/
theorem occurs_of_mem_inUse {v : Value} (hv : v ∈ s.inUse []) : s.Occurs v := by
  simp only [mem_inUse_iff, List.not_mem_nil, false_or, mem_roots_iff, World.heldValues,
    List.mem_append, List.mem_flatMap] at hv
  rcases hv with (hv | ⟨⟨name, f⟩, hf, hv⟩ | hv | ⟨a, ha, hv⟩) | ⟨c, hc, hv⟩ | hv
  · obtain ⟨⟨name, u⟩, hu, rfl⟩ := List.mem_map.mp hv
    exact .variable hu
  · exact .captured hf hv
  · obtain ⟨vs, hvs, hv⟩ := List.mem_flatten.mp hv
    exact .pending hvs hv
  · exact .running ha hv
  · exact .ofClass hc hv
  · obtain ⟨r, i, hi, hv⟩ := Arena.exists_get?_of_mem_heldValues hv
    exact .ofObject hi hv

/-- What exists mentions handles in use alone. -/
theorem Occurs.mem_handles {v : Value} (hv : s.Occurs v) {h : Handle} (hh : h ∈ v.handles) :
    h ∈ s.handles := by
  have hvalue {u : Value} (hu : u ∈ s.roots ∨ u ∈ s.heldValues) (hh : h ∈ u.handles) :
      h ∈ s.handles := by
    rw [handles_eq, Cells.mem_handlesInUse_iff]
    exact Or.inl ⟨u, mem_inUse_iff.mpr (Or.inr hu), hh⟩
  induction hv with
  | «variable» hv =>
      exact hvalue (Or.inl (mem_roots_iff.mpr (Or.inl (List.mem_map_of_mem (f := Prod.snd) hv)))) hh
  | captured hf hv =>
      exact hvalue (Or.inl (mem_roots_iff.mpr
        (Or.inr (Or.inl (List.mem_flatMap.mpr ⟨_, hf, hv⟩))))) hh
  | pending hvs hv => exact hvalue (Or.inl (mem_roots_of_mem_held hvs hv)) hh
  | running ha hv => exact hvalue (Or.inl (mem_roots_of_mem_activation ha hv)) hh
  | ofClass hc hv =>
      exact hvalue (Or.inr (List.mem_append_left _ (List.mem_flatMap.mpr ⟨_, hc, hv⟩))) hh
  | ofObject hi hv =>
      exact hvalue (Or.inr (List.mem_append_right _ (Arena.mem_heldValues_of_get? hi hv))) hh
  | item _ hv ih =>
      refine ih ?_
      rw [Value.handles_list, Value.mem_listHandles]
      exact ⟨_, hv, hh⟩
  | key _ he ih => exact ih (Value.mem_handles_map.mpr ⟨_, he, Or.inl hh⟩)
  | value _ he ih => exact ih (Value.mem_handles_map.mpr ⟨_, he, Or.inr hh⟩)
  | content hset hb =>
      rw [handles_eq, Cells.mem_handlesInUse_iff]
      exact Or.inr ⟨_, hset.mem_live hb, hh⟩

/-- The handles that exist are the handles in use. -/
theorem occurs_object_iff {h : Handle} : s.Occurs (.object h) ↔ h ∈ s.handles := by
  constructor
  · exact fun hoccurs => hoccurs.mem_handles (by simp)
  · intro hh
    rw [handles_eq, Cells.mem_handlesInUse_iff] at hh
    rcases hh with ⟨v, hv, hh⟩ | ⟨b, hb, hh⟩
    · exact (closed_occurs s).object (occurs_of_mem_inUse hv) hh
    · have hset : s.cells.Supported (s.inUse []) fun b => b ∈ s.cells.live (s.inUse []) :=
        fun c hc => Cells.mem_live_iff.mp hc
      exact (closed_occurs s).object (.content hset hb) hh

end ObjectBridge.State
