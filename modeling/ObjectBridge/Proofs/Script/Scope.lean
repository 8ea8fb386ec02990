import ObjectBridge.Proofs.Run.Frames
import ObjectBridge.Proofs.Value.Parts
import ObjectBridge.Script.Scope

/-!
# Names and the handles that exist

Reading a name takes a value in hand that is in use, and setting a name puts one from hand in use.

* `conserves_readVariable`, `conserves_argument` and `conserves_argumentAs` — what is read.
* `conserves_setVariable`, `conserves_setArgument` and `conserves_newCallable` — what is set.
* `conserves_bind_receiver` and `conserves_bind_callable` — what stays in use after it was read.
-/

namespace ObjectBridge

/-- A callable keeps what it was made with. -/
@[simp] theorem Callable.captured_make (serial : Nat) (captured : List (String × Value))
    (code : Code) : (make serial captured code).captured = captured := by
  simp [Callable.captured, make, List.filterMap_append, List.filterMap_map]

theorem Callable.values_make (serial : Nat) (captured : List (String × Value)) (code : Code) :
    (make serial captured code).values = captured.map Prod.snd := by
  rw [values, captured_make]

namespace Script

open Run

variable {α : Type} {s : State} {hand : List Value}

/-! ## Tables of the session -/

theorem reads_declaredEnum (key : String) : Reads (declaredEnum key) :=
  reads_get.bind fun _ => reads_orFail _ _

theorem reads_classId (cls : ClassRef) : Reads (classId cls) := by
  cases cls with
  | named name => exact reads_get.bind fun _ => reads_ofExcept _
  | numbered id => exact reads_pure id

theorem reads_receiver : Reads receiver := by
  refine reads_get.bind ?_
  intro s
  split
  · exact reads_fail _
  · split
    · exact reads_pure _
    · exact reads_fail _
    · exact reads_fail _

theorem reads_argumentCount : Reads argumentCount := by
  refine reads_get.bind ?_
  intro s
  split
  · exact reads_pure _
  · split <;> exact reads_pure _

theorem reads_hasEnded : Reads hasEnded :=
  reads_get.bind fun _ => reads_pure _

/-- What a named callable captured is in use. -/
theorem conserves_bind_callable {name : String} {k : Callable → Run α} {out : α → List Value}
    (hk : ∀ f, (∀ v ∈ f.values, v ∈ s.roots) → Conserves (k f) s hand out) :
    Conserves (callable name >>= k) s hand out := by
  rw [callable, bind_assoc]
  refine conserves_get (conserves_bind_orFail ?_)
  intro f hf
  refine hk f ?_
  intro v hv
  rw [State.mem_roots_iff]
  exact Or.inr (Or.inl (List.mem_flatMap.mpr ⟨(name, f), mem_of_lookup hf, hv⟩))

/-- The receiver of the running body stays in use. -/
theorem conserves_bind_receiver {k : Handle → Run α} {out : α → List Value}
    (hk : ∀ h, .object h ∈ s.kept → Conserves (k h) s hand out) :
    Conserves (receiver >>= k) s hand out := by
  rw [receiver, bind_assoc]
  refine conserves_get ?_
  split
  · exact conserves_bind_fail
  · rename_i a ha
    split
    · rename_i h hrecv
      refine conserves_bind_pure (hk h ?_)
      simp [State.kept, ha, hrecv]
    · exact conserves_bind_fail
    · exact conserves_bind_fail

/-- A named callable brings nothing along that is not covered. -/
theorem within_putCallable {name : String} {f : Callable} {next : Nat}
    (hf : ∀ v ∈ f.values, s.Covers hand v) :
    s.cells.Within (s.inUse hand) s.cells
      (({ s with callables := put name f s.callables, nextCallable := next } : State).inUse
        []) := by
  refine Cells.within_of_covers ?_
  intro v hv
  have hroots (hv : v ∈ s.roots) : s.Covers hand v := State.covers_of_mem_roots hv hand
  simp only [State.mem_inUse_iff, List.not_mem_nil, false_or, State.mem_roots_iff] at hv hroots
  rcases hv with (hv | hv | hv | hv) | hv
  · exact hroots (Or.inl hv)
  · obtain ⟨entry, hentry, hv⟩ := List.mem_flatMap.mp hv
    rcases mem_put hentry with hnew | hentry
    · rw [hnew] at hv
      exact hf v hv
    · exact hroots (Or.inr (Or.inl (List.mem_flatMap.mpr ⟨entry, hentry, hv⟩)))
  · exact hroots (by tauto)
  · exact hroots (by tauto)
  · exact State.covers_of_mem_heldValues (s := s) hv hand

/-- New host code keeps what it captured. -/
theorem conserves_newCallable {name : String} {captured : List (String × Value)} {code : Code}
    (hcaptured : ∀ v ∈ captured.map Prod.snd, s.Covers hand v) :
    Conserves (newCallable name captured code) s hand fun _ => [] := by
  refine conserves_modify ⟨rfl, rfl, rfl, id, Set.Subset.rfl⟩ rfl (within_putCallable ?_)
  rwa [Callable.values_make]

/-- A callable gets a second name. -/
theorem conserves_nameCallable {name : String} {f : Callable} (hf : ∀ v ∈ f.values, v ∈ s.roots) :
    Conserves (modify fun s => { s with callables := put name f s.callables } : Run PUnit) s []
      fun _ => [] :=
  conserves_modify ⟨rfl, rfl, rfl, id, Set.Subset.rfl⟩ rfl
    (within_putCallable fun v hv => State.covers_of_mem_roots (hf v hv) [])

/-! ## Variables -/

/-- The variables that a name may belong to are in use. -/
theorem mem_roots_of_mem_locals {a : Activation} (ha : a ∈ s.activations) {v : Value}
    (hv : v ∈ a.locals.map Prod.snd) : v ∈ s.roots := by
  refine State.mem_roots_of_mem_activation ha ?_
  simp only [Activation.values, List.mem_append]
  tauto

theorem conserves_readVariable (name : String) :
    Conserves (readVariable name) s [] fun v => [v] := by
  refine conserves_get (conserves_pure ?_)
  intro v hv
  obtain rfl := List.mem_singleton.mp hv
  cases hfound : (if isLocal name then s.activations.head?.elim [] Activation.locals
      else s.globals).lookup name with
  | none => exact Cells.covers_of_isPlain Value.isPlain_nil
  | some v =>
      rw [Option.getD_some]
      refine State.covers_of_mem_roots ?_ []
      have hv := List.mem_map_of_mem (f := Prod.snd) (mem_of_lookup hfound)
      split at hv
      · cases hacts : s.activations with
        | nil => simp [hacts] at hv
        | cons a rest =>
            rw [hacts] at hv
            exact mem_roots_of_mem_locals (a := a) (by simp [hacts]) hv
      · exact State.mem_roots_iff.mpr (Or.inl hv)

/-- The session's variables change, with what is in hand. -/
theorem conserves_setGlobals {f : List (String × Value) → List (String × Value)}
    (hf : ∀ entry ∈ f s.globals, entry.2 ∈ hand ∨ entry ∈ s.globals) :
    Conserves (modify fun s => { s with globals := f s.globals } : Run PUnit) s hand
      fun _ => hand := by
  refine conserves_modify ⟨rfl, rfl, rfl, id, Set.Subset.rfl⟩ rfl (Cells.within_of_covers ?_)
  intro v hv
  have hroots (hv : v ∈ s.roots) : s.Covers hand v := State.covers_of_mem_roots hv hand
  simp only [State.mem_inUse_iff, State.mem_roots_iff] at hv hroots
  rcases hv with hv | (hv | hv) | hv
  · exact State.covers_of_mem_hand hv
  · obtain ⟨entry, hentry, rfl⟩ := List.mem_map.mp hv
    rcases hf entry hentry with hentry | hentry
    · exact State.covers_of_mem_hand hentry
    · exact hroots (Or.inl (List.mem_map_of_mem hentry))
  · exact hroots (by tauto)
  · exact State.covers_of_mem_heldValues (s := s) hv hand

/-- The variables of the running body change, with what is in hand. -/
theorem conserves_setLocals {f : List (String × Value) → List (String × Value)}
    (hf : ∀ entries, ∀ entry ∈ f entries, entry.2 ∈ hand ∨ entry ∈ entries) :
    Conserves (modifyActivation fun a => { a with locals := f a.locals }) s hand fun _ => hand := by
  refine conserves_modifyActivation (fun v hv => hv) (fun _ => rfl) ?_
  intro a _ v hv
  simp only [Activation.values, List.mem_append] at hv ⊢
  rcases hv with (hv | hv) | hv
  · tauto
  · obtain ⟨entry, hentry, rfl⟩ := List.mem_map.mp hv
    rcases hf a.locals entry hentry with hentry | hentry
    · exact Or.inl hentry
    · exact Or.inr (Or.inl (Or.inr (List.mem_map_of_mem hentry)))
  · tauto

/-- A value from hand is put into a variable. -/
theorem conserves_setVariable {name : String} {v : Value} (hv : v ∈ hand) :
    Conserves (setVariable name v) s hand fun _ => hand := by
  have hput (entries : List (String × Value)) :
      ∀ entry ∈ put name v entries, entry.2 ∈ hand ∨ entry ∈ entries := by
    intro entry hentry
    rcases mem_put hentry with hnew | hentry
    · rw [hnew]
      exact Or.inl hv
    · exact Or.inr hentry
  unfold setVariable
  split
  · exact conserves_setLocals hput
  · exact conserves_setGlobals (hput s.globals)

theorem conserves_dropVariable (name : String) :
    Conserves (dropVariable name) s hand fun _ => hand := by
  have hfilter (entries : List (String × Value)) :
      ∀ entry ∈ entries.filter fun entry => entry.1 != name, entry.2 ∈ hand ∨ entry ∈ entries :=
    fun entry hentry => Or.inr (List.mem_of_mem_filter hentry)
  unfold dropVariable
  split
  · exact conserves_setLocals hfilter
  · exact conserves_setGlobals (hfilter s.globals)

theorem conserves_store {dest : Option String} {v : Value} (hv : v ∈ hand) :
    Conserves (store dest v) s hand fun _ => hand := by
  cases dest with
  | none => exact conserves_pure fun u hu => State.covers_of_mem_hand hu
  | some name => exact conserves_setVariable hv

/-! ## The running body -/

/-- The arguments of the running body are in use. -/
theorem covers_argument {a : Activation} (ha : s.activations.head? = some a) (index : Nat) :
    s.Covers hand (a.args.getD index .nil) := by
  rw [List.getD_eq_getElem?_getD]
  cases harg : a.args[index]? with
  | none => exact Cells.covers_of_isPlain Value.isPlain_nil
  | some v =>
      rw [Option.getD_some]
      refine State.covers_of_mem_roots
        (State.mem_roots_of_mem_activation (List.mem_of_mem_head? ha) ?_) hand
      have hv := List.mem_of_getElem? harg
      simp only [Activation.values, List.mem_append]
      tauto

theorem conserves_argument (index : Nat) : Conserves (argument index) s [] fun v => [v] := by
  refine conserves_get ?_
  split
  · exact conserves_pure fun v hv => by
      obtain rfl := List.mem_singleton.mp hv
      exact Cells.covers_of_isPlain Value.isPlain_nil
  · rename_i a ha
    split
    · refine conserves_pure ?_
      intro v hv
      obtain rfl := List.mem_singleton.mp hv
      have hitem : a.args.headD .nil = a.args.getD 0 .nil := by cases a.args <;> rfl
      rw [hitem]
      exact covers_argument ha 0
    · refine conserves_pure ?_
      intro v hv
      obtain rfl := List.mem_singleton.mp hv
      exact covers_argument ha index

theorem conserves_argumentAs (index : Nat) (type : NativeType) :
    Conserves (argumentAs index type) s [] fun v => [v] := by
  refine (conserves_argument index).bind ?_
  intro v t _ _
  have hdecoded : Conserves
      (Run.ofExcept (type.decode v) >>= fun x => pure (type.encode x)) t [v] fun u => [u] := by
    refine conserves_bind_ofExcept ?_
    intro x hx
    refine conserves_pure ?_
    intro u hu
    obtain rfl := List.mem_singleton.mp hu
    exact Cells.covers_encode_of_decode hx (State.covers_of_mem_hand (by simp))
  refine conserves_get ?_
  split
  · exact hdecoded
  · exact hdecoded
  · exact conserves_pure fun u hu => State.covers_of_mem_hand hu

theorem conserves_setArgument {index : Nat} {v : Value} (hv : v ∈ hand) :
    Conserves (setArgument index v) s hand fun _ => hand := by
  refine conserves_modifyActivation (fun u hu => hu) ?_ ?_
  · intro a
    split <;> rfl
  · intro a _ u hu
    split at hu
    · simp only [Activation.values, List.mem_append] at hu ⊢
      rcases hu with ((hu | hu) | hu) | hu
      · tauto
      · rcases List.mem_or_eq_of_mem_set hu with hu | rfl
        · tauto
        · exact Or.inl hv
      · tauto
      · tauto
    · exact Or.inr hu

/-- A body ends with a value from hand. -/
theorem conserves_finish {ending : Ending} (hv : ending.content ∈ hand) :
    Conserves (finish ending) s hand fun _ => [] := by
  refine conserves_modifyActivation (by simp) (fun _ => rfl) ?_
  intro a _ u hu
  simp only [Activation.values, Option.map_some, Option.toList_some, List.mem_append,
    List.mem_singleton] at hu ⊢
  rcases hu with hu | rfl
  · tauto
  · exact Or.inl hv

end Script

end ObjectBridge
