import ObjectBridge.Call.Delivery
import ObjectBridge.Proofs.Lifetime.Natives
import ObjectBridge.Proofs.Run.Occurrence
import ObjectBridge.Proofs.Value.Conversion

/-!
# Delivery and the handles that exist

What a body receives is made of the bound values, and what it leaves goes to boxes, lists and maps that
the caller has, so no delivery brings a handle up that was not issued for it.

* `conserves_settle`, `conserves_newBox` and `conserves_outward` — the changes of boxes.
* `conserves_prepare` — the arguments of a body.
* `conserves_giveBack` — the result of a body.
-/

namespace ObjectBridge

namespace Cells

theorem content_setIfInBounds (cells : Cells) (b c : BoxId) (v : Value) (hc : c < cells.size) :
    Cells.content (cells.setIfInBounds b v) c = if b = c then v else cells.content c := by
  simp only [content, Array.getD_eq_getD_getElem?, Array.getElem?_setIfInBounds]
  by_cases hbc : b = c
  · subst hbc
    simp [hc]
  · simp [hbc]

theorem content_push (cells : Cells) (v : Value) (c : BoxId) :
    Cells.content (cells.push v) c = if c = cells.size then v else cells.content c := by
  simp only [content, Array.getD_eq_getD_getElem?, Array.getElem?_push]
  split <;> simp

/-- The contents of cells are the old ones or covered. -/
def Updated (cells : Cells) (values : List Value) (cells' : Cells) : Prop :=
  cells'.size = cells.size ∧
    ∀ b < cells.size, cells'.content b = cells.content b ∨ cells.Covers values (cells'.content b)

theorem Updated.within {cells cells' : Cells} {values values' : List Value}
    (h : cells.Updated values cells') (hvalues : ∀ v ∈ values', cells.Covers values v) :
    cells.Within values cells' values' := by
  refine ⟨h.1.ge, ?_, hvalues⟩
  intro b hb
  rw [h.1] at hb
  rcases h.2 b hb with hsame | hcov
  · exact Or.inl ⟨hb, hsame⟩
  · exact Or.inr hcov

theorem updated_refl (cells : Cells) (values : List Value) : cells.Updated values cells :=
  ⟨rfl, fun _ _ => Or.inl rfl⟩

/-- A cell gets a content that is covered. -/
theorem Updated.setIfInBounds {cells cells' : Cells} {values : List Value}
    (h : cells.Updated values cells') (b : BoxId) {v : Value} (hv : cells.Covers values v) :
    cells.Updated values (cells'.setIfInBounds b v) := by
  refine ⟨by rw [Array.size_setIfInBounds, h.1], ?_⟩
  intro c hc
  rw [content_setIfInBounds cells' b c v (by rw [h.1]; exact hc)]
  split
  · exact Or.inr hv
  · exact h.2 c hc

end Cells

namespace CallArgs

theorem mem_values_replace {args : CallArgs} {source : Source} {u v : Value}
    (hv : v ∈ (args.replace u source).values) : v = u ∨ v ∈ args.values := by
  cases source with
  | positional i =>
      simp only [replace, values, List.mem_append] at hv ⊢
      rcases hv with hv | hv
      · rcases List.mem_or_eq_of_mem_set hv with hv | rfl
        · exact Or.inr (Or.inl hv)
        · exact Or.inl rfl
      · exact Or.inr (Or.inr hv)
  | keyword i =>
      simp only [replace, values, List.mem_append] at hv ⊢
      rcases hv with hv | hv
      · exact Or.inr (Or.inl hv)
      · obtain ⟨entry, hentry, rfl⟩ := List.mem_map.mp hv
        obtain ⟨k, hk⟩ := List.mem_iff_getElem?.mp hentry
        rw [List.getElem?_modify] at hk
        obtain ⟨old, hold, heq⟩ := Option.map_eq_some_iff.mp hk
        split at heq
        · rw [← heq]
          exact Or.inl rfl
        · rw [← heq]
          exact Or.inr (Or.inr (List.mem_map_of_mem (List.mem_of_getElem? hold)))
  | default => exact Or.inr hv

end CallArgs

namespace Delivery

open Run

variable {s : State} {hand : List Value}

/-! ## Boxes -/

/-- Writing back changes boxes and arguments to values that a body left. -/
theorem writeBack_spec {cells cells' : Cells} {values : List Value}
    {entries : List (Param × Source × Value)} {args : CallArgs}
    (hcells : cells.Updated values cells') (hargs : ∀ v ∈ args.values, cells.Covers values v)
    (hentries : ∀ e ∈ entries, cells.Covers values e.2.2) :
    cells.Updated values (writeBack cells' args entries).1 ∧
      ∀ v ∈ (writeBack cells' args entries).2.values, cells.Covers values v := by
  induction entries generalizing cells' args with
  | nil => exact ⟨hcells, hargs⟩
  | cons e rest ih =>
      obtain ⟨p, source, v⟩ := e
      have hv := hentries (p, source, v) (by simp)
      have hrest : ∀ e ∈ rest, cells.Covers values e.2.2 := fun e he => hentries e (by simp [he])
      have hreplaced : ∀ u ∈ (args.replace v source).values, cells.Covers values u := by
        intro u hu
        rcases CallArgs.mem_values_replace hu with rfl | hu
        · exact hv
        · exact hargs u hu
      rw [writeBack]
      split
      · split
        · exact ih (hcells.setIfInBounds _ hv) hargs hrest
        · exact ih hcells hreplaced hrest
        · exact ih hcells hreplaced hrest
        · exact ih hcells hargs hrest
      · exact ih hcells hargs hrest

/-- After a call the arguments are made of what was given and what the body left. -/
theorem conserves_settle {params : List Param} {sources : List Source} {updated : List Value}
    {args : CallArgs} (hargs : ∀ v ∈ args.values, s.Covers hand v)
    (hupdated : ∀ v ∈ updated, s.Covers hand v) :
    Conserves (settle params sources updated args) s hand fun after => after.values ++ hand := by
  refine conserves_get ?_
  have hentries : ∀ e ∈ params.zip (sources.zip updated), s.Covers hand e.2.2 := fun e he =>
    hupdated e.2.2 (List.of_mem_zip (List.of_mem_zip he).2).2
  have hspec := writeBack_spec (Cells.updated_refl s.cells (s.inUse hand)) hargs hentries
  rcases hwritten : writeBack s.cells args (params.zip (sources.zip updated)) with ⟨cells, after⟩
  rw [hwritten] at hspec
  obtain ⟨hcells, hafter⟩ := hspec
  have hset : Conserves (MonadStateOf.set { s with cells := cells } : Run PUnit) s hand
      fun _ => after.values ++ hand := by
    refine conserves_set ⟨rfl, rfl, rfl, id, Set.Subset.rfl⟩ rfl (hcells.within ?_)
    intro v hv
    rcases State.mem_inUse_iff.mp hv with hv | hv | hv
    · rcases List.mem_append.mp hv with hv | hv
      · exact hafter v hv
      · exact State.covers_of_mem_hand hv
    · exact State.covers_of_mem_roots (s := s) hv hand
    · exact State.covers_of_mem_heldValues (s := s) hv hand
  exact conserves_map (g := fun _ => after) hset

/-- A box gets a content that is covered. -/
theorem conserves_setBox {b : BoxId} {v : Value} (hv : s.Covers hand v) :
    Conserves (modify fun s => { s with cells := s.cells.setIfInBounds b v } : Run PUnit) s hand
      fun _ => [] := by
  refine conserves_modify ⟨rfl, rfl, rfl, id, Set.Subset.rfl⟩ rfl
    (((Cells.updated_refl s.cells (s.inUse hand)).setIfInBounds b hv).within ?_)
  intro u hu
  rcases State.mem_inUse_iff.mp hu with hu | hu | hu
  · exact absurd hu List.not_mem_nil
  · exact State.covers_of_mem_roots (s := s) hu hand
  · exact State.covers_of_mem_heldValues (s := s) hu hand

/-- A new box has a content that is covered. -/
theorem conserves_newBox {content : Value} (hcontent : s.Covers hand content) :
    Conserves (newBox content) s hand fun b => b :: hand := by
  refine conserves_get ?_
  have hset : Conserves
      (MonadStateOf.set { s with cells := s.cells.push content } : Run PUnit) s hand
      fun _ => .box s.cells.size :: hand := by
    refine conserves_set ⟨rfl, rfl, rfl, id, Set.Subset.rfl⟩ rfl ⟨by simp, ?_, ?_⟩
    · intro b hb
      show (b < s.cells.size ∧ Cells.content (s.cells.push content) b = s.cells.content b) ∨
        s.cells.Covers (s.inUse hand) (Cells.content (s.cells.push content) b)
      have hle : b < s.cells.size + 1 := by simpa using hb
      rw [Cells.content_push]
      -- The last box is the new one; every other box keeps its content.
      by_cases hlast : b = s.cells.size
      · rw [if_pos hlast]
        exact Or.inr hcontent
      · rw [if_neg hlast]
        exact Or.inl ⟨Nat.lt_of_le_of_ne (Nat.le_of_lt_succ hle) hlast, rfl⟩
    · intro v hv
      rcases State.mem_inUse_iff.mp hv with hv | hv | hv
      · rcases List.mem_cons.mp hv with rfl | hv
        · refine ⟨by simp, ?_⟩
          intro b hb hlt
          rw [Value.boxes_box, List.mem_singleton] at hb
          rw [hb] at hlt
          exact absurd hlt (Nat.lt_irrefl _)
        · exact State.covers_of_mem_hand hv
      · exact State.covers_of_mem_roots (s := s) hv hand
      · exact State.covers_of_mem_heldValues (s := s) hv hand
  exact conserves_map (g := fun _ => Value.box s.cells.size) hset

/-- An override receives the values themselves, or new boxes with them. -/
theorem conserves_outward (params : List Param) {values : List Value}
    (hvalues : ∀ v ∈ values, v ∈ hand) :
    Conserves (outward params values) s hand fun sent => sent ++ hand := by
  induction values generalizing params s hand with
  | nil =>
      cases params with
      | nil => exact conserves_pure fun v hv => State.covers_of_mem_hand hv
      | cons p params => exact conserves_pure fun v hv => State.covers_of_mem_hand hv
  | cons v rest ih =>
      cases params with
      | nil => exact conserves_pure fun v hv => State.covers_of_mem_hand hv
      | cons p params =>
          have hv := State.covers_of_mem_hand (s := s) (hvalues v (by simp))
          have hrest (sent : Value) (t : State) : Conserves
              (outward params rest >>= fun us => pure (sent :: us)) t (sent :: hand)
              fun us => us ++ hand := by
            have hmore : Conserves (outward params rest) t (sent :: hand)
                fun us => us ++ (sent :: hand) :=
              ih params fun u hu => List.mem_cons_of_mem _ (hvalues u (by simp [hu]))
            refine conserves_map (hmore.of_out_subset ?_)
            intro us u hu
            simp only [List.cons_append, List.mem_cons, List.mem_append] at hu ⊢
            tauto
          -- An output is sent in a box of its own, any other argument as it is.
          rw [outward]
          split
          · exact (conserves_newBox hv).bind fun sent t _ _ => hrest sent t
          · refine conserves_bind_pure ((hrest v s).of_hand ?_)
            intro u hu
            rcases List.mem_cons.mp hu with rfl | hu
            · exact hv
            · exact State.covers_of_mem_hand hu

/-- What an override made of its arguments is covered with them and with the values. -/
theorem covers_inward {sent values : List Value} (hsent : ∀ v ∈ sent, s.Covers hand v)
    (hvalues : ∀ v ∈ values, s.Covers hand v) :
    ∀ v ∈ inward s.cells sent values, s.Covers hand v := by
  induction sent generalizing values with
  | nil => simpa [inward] using hvalues
  | cons first rest ih =>
      cases values with
      | nil => simp [inward]
      | cons v values =>
          have hrest := ih (fun u hu => hsent u (by simp [hu]))
            fun u (hu : u ∈ values) => hvalues u (by simp [hu])
          have hfirst := hsent first (by simp)
          -- A box gives its content, anything else what is there in the values.
          cases first with
          | box b =>
              intro u hu
              rcases List.mem_cons.mp hu with rfl | hu
              · exact hfirst.content
              · exact hrest u hu
          | _ =>
              intro u hu
              rcases List.mem_cons.mp hu with rfl | hu
              · exact hvalues u (by simp)
              · exact hrest u hu

/-! ## Objects -/

/-- A bound value as a body receives it. -/
def prepareOne (exec : Exec) (p : Param) (v : Value) : Run Value :=
  match p.type, v with
  | .object _, .object h => prepareObject exec p.passing h
  | _, _ => pure v

/-- A proxy becomes const that only the handle in hand has. -/
theorem conserves_setConst {h : Handle} (hsole : isSoleAlias s h = true) :
    Conserves (setArena (s.arena.setConst h.proxy true)) s [.object h] fun _ => [.object h] := by
  have hp : h.proxy ∈ (s.custody [.object h]).proxies :=
    Cells.covers_object_iff.mp (State.covers_of_mem_hand List.mem_cons_self)
  refine conserves_setArena_of_step (.flag h.proxy hp ?_) fun _ hv => covers_of_mem_arena hv
  intro q hq hserial
  obtain ⟨k, hk, rfl⟩ := State.exists_mem_handles_of_pinned hq
  have hheld : Arena.proxyHeld s.handles h.proxy = true :=
    List.any_eq_true.mpr ⟨k, hk, beq_iff_eq.mpr hserial⟩
  simp [isSoleAlias, hheld] at hsole

section Bodies

variable {exec : Exec} (hexec : ConservesAll exec)

include hexec

/-- An object in use is delivered by a handle for it or for a copy of it. -/
theorem conserves_prepareObject (passing : Passing) {h : Handle}
    (hh : s.Covers [] (.object h)) :
    Conserves (prepareObject exec passing h) s [] fun u => [u] := by
  have hview : ∀ v ∈ [Value.object h.asConst], s.Covers [] v := by
    intro v hv
    obtain rfl := List.mem_singleton.mp hv
    exact hh.asConst
  have hitself : ∀ v ∈ [Value.object h], s.Covers [] v := by
    intro v hv
    obtain rfl := List.mem_singleton.mp hv
    exact hh
  cases passing with
  | value => exact conserves_map (g := Value.object) (Lifetime.conserves_dup hexec h)
  | constRef => exact conserves_pure hview
  | constPtr => exact conserves_pure hview
  | ref => exact conserves_pure hitself
  | ptr => exact conserves_pure hitself

omit hexec in
theorem prepare_cons (p : Param) (params : List Param) (v : Value) (rest : List Value) :
    prepare exec (p :: params) (v :: rest) = (do
      let u ← holding (v :: rest) (prepareOne exec p v)
      let us ← holding [u] (prepare exec params rest)
      return u :: us) := rfl

theorem conserves_prepareOne (p : Param) {v : Value} (hv : s.Covers [] v) :
    Conserves (prepareOne exec p v) s [] fun u => [u] := by
  unfold prepareOne
  split
  · exact conserves_prepareObject hexec _ hv
  · refine conserves_pure ?_
    intro u hu
    obtain rfl := List.mem_singleton.mp hu
    exact hv

/-- Arguments are delivered one after the other; the ones to come and the ones delivered are in use
meanwhile. -/
theorem conserves_prepare (params : List Param) (values : List Value) :
    Conserves (prepare exec params values) s values fun us => us := by
  induction values generalizing params s with
  | nil =>
      cases params with
      | nil => exact conserves_pure (by simp)
      | cons p params => exact conserves_pure (by simp)
  | cons v rest ih =>
      cases params with
      | nil => exact conserves_pure (by simp)
      | cons p params =>
          rw [prepare_cons]
          have hv : v ∈ ({ s with held := (v :: rest) :: s.held } : State).roots :=
            State.mem_roots_of_mem_held List.mem_cons_self List.mem_cons_self
          have hfirst : Conserves (holding (v :: rest) (prepareOne exec p v)) s (v :: rest)
              fun u => (v :: rest) ++ [u] :=
            Conserves.holding_nil (conserves_prepareOne hexec p (State.covers_of_mem_roots hv []))
          refine hfirst.bind ?_
          intro u t _ _
          have hrest : Conserves (holding [u] (prepare exec params rest)) t ([u] ++ rest)
              fun us => [u] ++ us := (ih params).holding
          refine conserves_map (hrest.of_hand ?_)
          intro w hw
          refine State.covers_of_mem_hand ?_
          simp only [List.mem_append, List.mem_cons, List.not_mem_nil, or_false] at hw ⊢
          tauto

/-- A resulting object is given by its own handle, by another one, or by one for a copy. -/
theorem conserves_giveObject (cls : String) (passing : Passing) (h : Handle) (method : String) :
    Conserves (giveObject exec cls passing h method) s [.object h] fun u => [u] := by
  refine conserves_get (conserves_bind_ofExcept ?_)
  intro expected _
  refine conserves_get (conserves_unless fun _ => ?_)
  refine Lifetime.conserves_bind_resolve ?_
  intro i _
  refine conserves_get ?_
  have hitself : Conserves (pure (Value.object h) : Run Value) s [.object h] fun u => [u] :=
    conserves_pure fun v hv => State.covers_of_mem_hand hv
  have hissued (c : Constness) :
      Conserves (Lifetime.issueFor h c >>= fun k => pure (.object k)) s [.object h]
        fun u => [u] :=
    conserves_map (g := Value.object) (Lifetime.conserves_issueFor h c)
  -- A sole alias becomes const in its place; otherwise a const handle is issued.
  have hshown : Conserves
      (if isSoleAlias s h then do
        setArena (s.arena.setConst h.proxy true)
        return .object h
      else return .object (← Lifetime.issueFor h .const)) s [.object h] fun u => [u] := by
    split
    · exact conserves_map (g := fun _ => Value.object h) (conserves_setConst ‹_›)
    · exact hissued .const
  cases passing with
  | value =>
      show Conserves (if isFresh s i h then pure (Value.object h)
        else holding [.object h] (Lifetime.dup exec h) >>= fun k => pure (.object k)) s
        [.object h] fun u => [u]
      split
      · exact hitself
      · refine conserves_map (g := Value.object) (Conserves.of_out_subset
          (Lifetime.conserves_dup hexec h).holding_nil ?_)
        intro k u hu
        exact List.mem_append_right _ hu
  | ref => exact hissued .nonConst
  | ptr => exact hissued .nonConst
  | constRef => exact hshown
  | constPtr => exact hshown

omit hexec in
/-- A result that is converted is covered with the value. -/
theorem conserves_converted (type : Ty) (v : Value) :
    Conserves (give.converted type v) s [v] fun u => [u] := by
  refine conserves_get ?_
  cases hconv : Conversion.convert s.toWorld type .value v with
  | error refusal => exact conserves_fail
  | ok converted =>
      refine conserves_pure ?_
      intro u hu
      obtain rfl := List.mem_singleton.mp hu
      exact Cells.covers_convert rfl hconv (State.covers_of_mem_hand (by simp))

/-- A result is delivered as its type says. -/
theorem conserves_give (owner method : String) (type : Ty) (passing : Passing) (v : Value) :
    Conserves (give exec owner method type passing v) s [v] fun u => [u] := by
  induction type generalizing v s with
  | any => exact conserves_pure fun u hu => State.covers_of_mem_hand hu
  | object cls =>
      unfold give
      split
      · exact conserves_giveObject hexec cls passing _ method
      · split
        · exact conserves_pure fun u hu => State.covers_of_mem_hand hu
        · exact conserves_fail
      · exact conserves_converted (.object cls) _
  | list item ih =>
      unfold give
      split
      · rename_i items
        have hitems : Conserves (mapHeld (give exec owner method item passing) items) s items
            fun us => us := conserves_mapHeld (fun u t => ih u) items s
        have hlist : s.Covers [.list items] (.list items) :=
          State.covers_of_mem_hand List.mem_cons_self
        refine conserves_map (g := Value.list)
          (Conserves.of_out (hitems.of_hand (Cells.covers_list_iff.mp hlist)) ?_)
        intro us t _ _ u hu
        obtain rfl := List.mem_singleton.mp hu
        exact Cells.covers_list_iff.mpr fun w hw => State.covers_of_mem_hand hw
      · exact conserves_converted (.list item) _
  | _ => exact conserves_converted _ v

theorem conserves_giveBack (result : Result) (owner method : String) (v : Value) :
    Conserves (giveBack exec result owner method v) s [v] fun u => [u] := by
  cases result with
  | none =>
      refine conserves_pure ?_
      intro u hu
      obtain rfl := List.mem_singleton.mp hu
      exact Cells.covers_of_isPlain Value.isPlain_nil
  | some declared => exact conserves_give hexec owner method declared.1 declared.2 v

end Bodies

end Delivery

end ObjectBridge
