import ObjectBridge.Proofs.Script.Scope
import ObjectBridge.Script.Definition

/-!
# Written classes and the handles that exist

While a written class is read, the draft made of its members so far stays in use, and what is evaluated
for the next member is in hand until it is part of the draft.

* `conserves_resolveParams` and `conserves_evalNamed` — defaults and named values.
* `conserves_addMembers` and `conserves_resolveClass` — the draft of a class.
-/

namespace ObjectBridge

namespace ClassDraft

variable {d : ClassDraft} {v : Value}

theorem mem_heldValues_addConstructor {sig : Signature} {code : Code} {shape : Shape}
    (hv : v ∈ (d.addConstructor sig code shape).heldValues) :
    v ∈ sig.params.filterMap Param.default? ∨ v ∈ d.heldValues := by
  simp only [heldValues, addConstructor, List.flatMap_append, List.flatMap_cons, List.flatMap_nil,
    List.append_nil, Overload.defaults, List.mem_append] at hv ⊢
  tauto

theorem mem_heldValues_addMethod {name : String} {sig : Signature} {code : Code}
    (hv : v ∈ (d.addMethod name sig code).heldValues) :
    v ∈ sig.params.filterMap Param.default? ∨ v ∈ d.heldValues := by
  simp only [heldValues, addMethod, List.flatMap_append, List.flatMap_cons, List.flatMap_nil,
    List.append_nil, Overload.defaults, List.mem_append] at hv ⊢
  tauto

theorem mem_heldValues_addIterator {name : String} {sig : Signature} {code : Code}
    {source : ItemSource} (hv : v ∈ (d.addIterator name sig code source).heldValues) :
    v ∈ sig.params.filterMap Param.default? ∨ v ∈ d.heldValues := by
  simp only [heldValues, addIterator, List.flatMap_append, List.flatMap_cons, List.flatMap_nil,
    List.append_nil, Overload.defaults, List.mem_append] at hv ⊢
  tauto

/-- An attribute has no defaults. -/
theorem mem_heldValues_addAttribute {name : String} {type : Ty} {getter setter : Code}
    (hv : v ∈ (d.addAttribute name type getter setter).heldValues) : v ∈ d.heldValues := by
  have hboth : v ∈ ((d.addMethod name { result := some (type, .value), isConst := true }
      getter).addMethod (name ++ "=") { params := [{ name := "value", type := type }] }
        setter).heldValues → v ∈ d.heldValues := by
    intro hv
    rcases mem_heldValues_addMethod hv with hv | hv
    · simp at hv
    · rcases mem_heldValues_addMethod hv with hv | hv
      · simp at hv
      · exact hv
  rw [addAttribute] at hv
  split at hv
  · rcases mem_heldValues_addMethod hv with hv | hv
    · simp at hv
    · exact hboth hv
  · exact hboth hv

theorem mem_heldValues_addConstant {name : String} {u : Value}
    (hv : v ∈ (d.addConstant name u).heldValues) : v = u ∨ v ∈ d.heldValues := by
  simp only [heldValues, addConstant, List.map_append, List.map_cons, List.map_nil,
    List.mem_append, List.mem_singleton] at hv ⊢
  tauto

theorem mem_heldValues_addMixin {m : Mixin} (hv : v ∈ (d.addMixin m).heldValues) :
    v ∈ m.constants.map Prod.snd ∨ v ∈ d.heldValues := by
  simp only [heldValues, addMixin, List.flatMap_append, List.flatMap_cons, List.flatMap_nil,
    List.append_nil, List.mem_append] at hv ⊢
  tauto

theorem mem_heldValues_addEvent {name : String} {params : List Param}
    (hv : v ∈ (d.addEvent name params).heldValues) :
    v ∈ params.filterMap Param.default? ∨ v ∈ d.heldValues := by
  simp only [heldValues, addEvent, List.flatMap_append, List.flatMap_cons, List.flatMap_nil,
    List.append_nil, EventInfo.defaults, List.mem_append] at hv ⊢
  tauto

end ClassDraft

namespace Script

open Run

variable {s : State}

theorem reads_resolveType (type : TypeSpec) : Reads type.resolve := by
  induction type with
  | enum key => exact (reads_declaredEnum key).bind fun _ => reads_pure _
  | flags key => exact (reads_declaredEnum key).bind fun _ => reads_pure _
  | list item ih => exact ih.bind fun _ => reads_pure _
  | map key value ihkey ihvalue => exact ihkey.bind fun _ => ihvalue.bind fun _ => reads_pure _
  | _ => exact reads_pure _

theorem reads_declaredEnums (keys : List String) : Reads (declaredEnums keys) := by
  induction keys with
  | nil => exact reads_pure _
  | cons key rest ih => exact (reads_declaredEnum key).bind fun _ => ih.bind fun _ => reads_pure _

variable {eval : Expr → Run Value} (heval : ∀ e s, Conserves (eval e) s [] fun v => [v])

include heval

theorem conserves_resolveParam (p : ParamSpec Expr) :
    Conserves (p.resolve eval) s [] fun q => q.default?.toList := by
  refine conserves_bind_of_reads (reads_resolveType p.type) fun type _ => ?_
  split
  · exact conserves_pure (by simp)
  · exact conserves_map (g := fun v => (⟨p.name, type, p.passing, some v⟩ : Param)) (heval _ s)

theorem conserves_resolveParams (params : List (ParamSpec Expr)) :
    Conserves (resolveParams eval params) s [] fun qs => qs.filterMap Param.default? := by
  induction params generalizing s with
  | nil => exact conserves_pure (by simp)
  | cons p rest ih =>
      refine (conserves_resolveParam heval p).bind ?_
      intro q t _ _
      refine conserves_map (Conserves.of_out_subset (Conserves.holding_nil ih) ?_)
      intro qs v hv
      cases hq : q.default? <;> simpa [hq] using hv

theorem conserves_resolveSignature (sig : SignatureSpec Expr) :
    Conserves (sig.resolve eval) s [] fun resolved =>
      resolved.params.filterMap Param.default? := by
  refine (conserves_resolveParams heval sig.params).bind ?_
  intro params t _ _
  split
  · exact conserves_bind_pure (conserves_pure fun v hv => State.covers_of_mem_hand hv)
  · rename_i type passing _
    refine conserves_bind_of_reads (reads_resolveType type) fun result _ => ?_
    exact conserves_bind_pure (conserves_pure fun v hv => State.covers_of_mem_hand hv)

theorem conserves_evalNamed (entries : List (String × Expr)) :
    Conserves (evalNamed eval entries) s [] fun named => named.map Prod.snd := by
  induction entries generalizing s with
  | nil => exact conserves_pure (by simp)
  | cons entry rest ih =>
      obtain ⟨name, e⟩ := entry
      refine (heval e s).bind ?_
      intro v t _ _
      exact conserves_map (Conserves.holding_nil ih)

omit heval in
/-- What a member adds comes with the values that it was made of. -/
theorem conserves_added {β : Type} {act : Run β} {g : β → ClassDraft} {values : β → List Value}
    {d : ClassDraft} (hd : ∀ v ∈ d.heldValues, v ∈ s.kept) (hact : Conserves act s [] values)
    (hg : ∀ x, ∀ v ∈ (g x).heldValues, v ∈ values x ∨ v ∈ d.heldValues) :
    Conserves (act >>= fun x => pure (g x)) s [] ClassDraft.heldValues := by
  refine hact.bind fun x t _ hlevel => conserves_pure ?_
  intro v hv
  rcases hg x v hv with hv | hv
  · exact State.covers_of_mem_hand hv
  · refine State.covers_of_mem_kept ?_ _
    rw [hlevel.kept_eq]
    exact hd v hv

/-- A member is added to a draft that is in use. -/
theorem conserves_addTo {shape : Shape} {d : ClassDraft} (m : Member Expr Stmt)
    (hd : ∀ v ∈ d.heldValues, v ∈ s.kept) :
    Conserves (m.addTo eval shape d) s [] ClassDraft.heldValues := by
  cases m with
  | «constructor» sig code =>
      exact conserves_added hd (conserves_resolveSignature heval sig)
        fun _ _ hv => ClassDraft.mem_heldValues_addConstructor hv
  | lazy code => exact conserves_pure fun v hv => State.covers_of_mem_kept (hd v hv) []
  | method name sig code =>
      exact conserves_added hd (conserves_resolveSignature heval sig)
        fun _ _ hv => ClassDraft.mem_heldValues_addMethod hv
  | iterator name sig code failAt =>
      exact conserves_added hd (conserves_resolveSignature heval sig)
        fun _ _ hv => ClassDraft.mem_heldValues_addIterator hv
  | «attribute» name type =>
      exact conserves_added hd (conserves_of_reads (reads_resolveType type))
        fun _ _ hv => Or.inr (ClassDraft.mem_heldValues_addAttribute hv)
  | event name params =>
      exact conserves_added hd (conserves_resolveParams heval params)
        fun _ _ hv => ClassDraft.mem_heldValues_addEvent hv
  | constant name e =>
      refine conserves_added hd (heval e s) fun _ v hv => ?_
      rw [List.mem_singleton]
      exact ClassDraft.mem_heldValues_addConstant hv
  | enum key =>
      exact conserves_added hd (conserves_of_reads (reads_declaredEnum key))
        fun _ _ hv => Or.inr hv
  | mixin name constants enums =>
      refine (conserves_evalNamed heval constants).bind fun named t _ hlevel => ?_
      refine conserves_bind_of_reads (reads_declaredEnums enums) fun types _ => conserves_pure ?_
      intro v hv
      rcases ClassDraft.mem_heldValues_addMixin hv with hv | hv
      · exact State.covers_of_mem_hand hv
      · refine State.covers_of_mem_kept ?_ _
        rw [hlevel.kept_eq]
        exact hd v hv

/-- Members are added one after the other. -/
theorem conserves_addMembers {shape : Shape} (members : List (Member Expr Stmt))
    (d : ClassDraft) :
    Conserves (addMembers eval shape d members) s d.heldValues ClassDraft.heldValues := by
  induction members generalizing d s with
  | nil => exact conserves_pure fun v hv => State.covers_of_mem_hand hv
  | cons m rest ih =>
      have hadded : Conserves (holding d.heldValues (m.addTo eval shape d)) s d.heldValues
          ClassDraft.heldValues := by
        refine Conserves.of_out_subset (Conserves.holding_nil (conserves_addTo heval m ?_)) ?_
        · intro v hv
          rw [State.kept_cons_held]
          exact List.mem_append_left _ hv
        · exact fun d' v hv => List.mem_append_right _ hv
      exact hadded.bind fun d' t _ _ => ih d'

/-- The draft that a written class stands for. -/
theorem conserves_resolveClass (spec : ClassSpec Expr Stmt) :
    Conserves (spec.resolve eval) s [] ClassDraft.heldValues :=
  conserves_addMembers heval spec.members _

end Script

end ObjectBridge
