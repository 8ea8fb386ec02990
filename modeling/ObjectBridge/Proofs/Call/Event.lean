import ObjectBridge.Call.Event
import ObjectBridge.Proofs.Lifetime.Natives
import ObjectBridge.Proofs.Value.Conversion

/-!
# Events and the handles that exist

Handlers that are connected take their captured values to the object, and handlers that run have theirs in
use for as long as any of them runs.

* `conserves_modifyHandlers` — a change of handlers.
* `conserves_trigger` — an event.
-/

namespace ObjectBridge

namespace Handlers

theorem mem_values_add {hs : Handlers} {f : Callable} {v : Value} (hv : v ∈ (hs.add f).values) :
    v ∈ hs.values ∨ v ∈ f.values := by
  rw [add] at hv
  split at hv
  · exact Or.inl hv
  · simpa [values] using hv

theorem mem_values_remove {hs : Handlers} {f : Callable} {v : Value}
    (hv : v ∈ (hs.remove f).values) : v ∈ hs.values := by
  induction hs with
  | nil => exact hv
  | cons h rest ih =>
      rw [remove] at hv
      split at hv
      · exact List.mem_append_right _ hv
      · rw [values, List.flatMap_cons, List.mem_append] at hv ⊢
        exact hv.imp_right ih

end Handlers

namespace Event

open Run

variable {s : State} {hand : List Value} {exec : Exec}

theorem outcome_declaration_of_some {h : Handle} {event : String} {info : EventInfo}
    (hdeclared : s.classes.findEvent h.cls event = some info) :
    (declaration h event).outcome s = (.ok info, s) := by
  have hfound : (declaration h event).outcome s =
      (Run.orFail (.noSuchEvent h.className event) (s.classes.findEvent h.cls event)).outcome s := rfl
  rw [hfound, hdeclared]
  rfl

theorem outcome_declaration_of_none {h : Handle} {event : String}
    (hnone : s.classes.findEvent h.cls event = none) :
    (declaration h event).outcome s = (.error (.raised (.noSuchEvent h.className event)), s) := by
  have hmissing : (declaration h event).outcome s =
      (Run.orFail (.noSuchEvent h.className event) (s.classes.findEvent h.cls event)).outcome s := rfl
  rw [hmissing, hnone]
  rfl

theorem conserves_bind_declaration {α : Type} {h : Handle} {event : String}
    {f : EventInfo → Run α} {out : α → List Value}
    (hf : ∀ info, Conserves (f info) s hand out) :
    Conserves (declaration h event >>= f) s hand out := by
  have hassoc : (declaration h event >>= f) =
      (MonadState.get >>= fun s : State =>
        Run.orFail (.noSuchEvent h.className event) (s.classes.findEvent h.cls event) >>= f) := by
    rw [declaration, bind_assoc]
  rw [hassoc]
  exact conserves_get (conserves_bind_orFail fun info _ => hf info)

/-- Converted arguments are covered with the arguments. -/
theorem covers_convertArgs {cls event : String} {position : Nat} {args : List (Param × Value)}
    {values : List Value}
    (h : convertArgs s.toWorld cls event position args = .ok values)
    (hargs : ∀ e ∈ args, s.Covers hand e.2) : ∀ v ∈ values, s.Covers hand v := by
  induction args generalizing position values with
  | nil =>
      obtain rfl := Except.ok.inj h
      exact fun v hv => absurd hv List.not_mem_nil
  | cons e rest ih =>
      obtain ⟨p, u⟩ := e
      rw [convertArgs] at h
      split at h
      · cases h
      · rename_i w cost hconv
        obtain ⟨vs, hrest, rfl⟩ := map_eq_ok_iff.mp h
        intro v hv
        rcases List.mem_cons.mp hv with rfl | hv
        · exact Cells.covers_convert rfl hconv (hargs (p, u) (by simp))
        · exact ih hrest (fun e he => hargs e (by simp [he])) v hv

section Bodies

variable (hexec : ConservesAll exec)

include hexec

/-- Handlers are made of the connected ones and of what is in use. -/
theorem conserves_modifyHandlers {h : Handle} {event operation : String}
    {f : Handlers → Handlers} (hf : ∀ hs, ∀ v ∈ (f hs).values, v ∈ hs.values ∨ v ∈ s.kept) :
    Conserves (modifyHandlers exec h event operation f) s [] fun _ => [] := by
  refine (Lifetime.conserves_materialize hexec h operation).bind ?_
  intro _ t _ hlevel
  refine conserves_bind_declaration fun _ => Lifetime.conserves_bind_resolve ?_
  intro i hi
  refine conserves_get ?_
  have hset : Conserves
      (setArena (t.arena.modify h.target fun j =>
        j.setHandlers event (f ((i.handlers? event).getD [])))) t [] fun _ => [] := by
    refine conserves_setArena_of_step
      (.move (Arena.outline_modify fun j _ => Arena.outline_setHandlers j event _)
        Set.Subset.rfl Set.Subset.rfl) ?_
    intro v hv
    rcases Arena.mem_heldValues_modify hv with ⟨j, hj, hv⟩ | hv
    · rcases Instance.mem_heldValues_setHandlers hv with hv | hv
      · rcases hf _ v hv with hv | hv
        · cases hold : i.handlers? event with
          | none => simp [hold, Handlers.values] at hv
          | some hs =>
              rw [hold, Option.getD_some] at hv
              exact Lifetime.covers_handlers hi hold hv
        · rw [← hlevel.kept_eq] at hv
          exact State.covers_of_mem_kept hv []
      · exact covers_of_mem_arena (Arena.mem_heldValues_of_get? hj hv)
    · exact covers_of_mem_arena hv
  exact conserves_map (g := fun _ => f ((i.handlers? event).getD [])) hset

/-- A handler runs with what it captured in hand, while the object and the arguments are in use. -/
theorem conserves_handler {h : Handle} {values : List Value} {f : Callable}
    (hh : .object h ∈ s.kept) (hvalues : ∀ v ∈ values, v ∈ s.kept) :
    Conserves (inHostFrame .host (Run.invoke exec f (some h) values)) s f.values Activation.values := by
  refine (Conserves.inHostFrame (conserves_invoke hexec f (some h) values)).of_hand ?_
  intro v hv
  simp only [Option.map_some, Option.toList_some, List.mem_append, List.mem_singleton] at hv
  rcases hv with hv | rfl | hv
  · exact State.covers_of_mem_hand hv
  · exact State.covers_of_mem_kept hh f.values
  · exact State.covers_of_mem_kept (hvalues v hv) f.values

/-- A handler has its turn with what it captured in hand, and what the later ones captured is in use until then. -/
theorem conserves_next {h : Handle} {values : List Value} (f : Callable) (rest : Handlers)
    (hh : .object h ∈ s.kept) (hvalues : ∀ v ∈ values, v ∈ s.kept) :
    Conserves (holding (Handlers.values rest) (inHostFrame .host (Run.invoke exec f (some h) values))) s
      (Handlers.values (f :: rest)) fun _ => Handlers.values rest := by
  refine ((conserves_handler hexec (f := f) ?_ ?_).holding.of_hand ?_).of_out_subset
    fun _ v hv => List.mem_append_left _ hv
  · simp [hh]
  · exact fun v hv => by simp [hvalues v hv]
  · intro v hv
    refine State.covers_of_mem_hand ?_
    simpa [Handlers.values, or_comm] using hv

/-- Handlers run one after the other, each with what the later ones captured still in use. -/
theorem conserves_runHandlers {h : Handle} {values : List Value} {handlers : Handlers}
    (hh : .object h ∈ s.kept) (hvalues : ∀ v ∈ values, v ∈ s.kept) :
    Conserves (runHandlers exec h values handlers) s handlers.values fun _ => [] := by
  induction handlers generalizing s with
  | nil => exact conserves_pure (by simp)
  | cons f rest ih =>
      refine (conserves_next hexec f rest hh hvalues).bind ?_
      intro _ t _ hlevel
      rw [← hlevel.kept_eq] at hh hvalues
      exact ih hh hvalues

/-- An event starts with its arguments in hand. -/
theorem conserves_trigger {h : Handle} {event : String} {args : List Value}
    (hh : .object h ∈ s.kept) :
    Conserves (trigger exec h event args) s args fun _ => [] := by
  have hmat : Conserves (holding args (Lifetime.materialize exec h event)) s args fun _ => args :=
    (Conserves.holding_nil (Lifetime.conserves_materialize hexec h event)).of_out_subset
      fun _ v hv => List.mem_append_left _ hv
  refine hmat.bind ?_
  intro _ t _ hlevel
  rw [← hlevel.kept_eq] at hh
  refine conserves_bind_declaration fun info => conserves_unless fun _ => conserves_get ?_
  refine conserves_bind_ofExcept ?_
  intro values hvalues
  have hcovered : ∀ v ∈ values, t.Covers args v :=
    covers_convertArgs hvalues fun e he => State.covers_of_mem_hand (List.of_mem_zip he).2
  refine Lifetime.conserves_bind_resolve ?_
  intro i hi
  -- The handlers are read before the first of them runs, and each is let go of when it is done.
  have hrun : Conserves
      (holding (.object h :: args ++ values) (runHandlers exec h values ((i.handlers? event).getD []))) t
      ((.object h :: args ++ values) ++ ((i.handlers? event).getD []).values)
      fun _ => (.object h :: args ++ values) ++ [] :=
    (conserves_runHandlers hexec (by simp) fun v hv => by simp [hv]).holding
  refine (hrun.of_hand ?_).of_out_subset fun _ v hv => absurd hv List.not_mem_nil
  intro v hv
  simp only [List.cons_append, List.mem_cons, List.mem_append] at hv
  rcases hv with rfl | (hv | hv) | hv
  · exact State.covers_of_mem_kept hh args
  · exact State.covers_of_mem_hand hv
  · exact hcovered v hv
  · cases hold : i.handlers? event with
    | none => simp [hold, Handlers.values] at hv
    | some hs =>
        rw [hold, Option.getD_some] at hv
        exact Lifetime.covers_handlers hi hold hv

end Bodies

end Event

end ObjectBridge
