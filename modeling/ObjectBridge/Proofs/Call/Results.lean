import ObjectBridge.Proofs.Call.Delivery
import ObjectBridge.Proofs.Lifetime.Copies

/-!
# Results of calls

What a body leaves as its result is delivered as the declared kind of passing says.  Whether the handle of a returned
object is const depends on that alone, and not on the handle that the body had.

* `exists_of_outcome_giveObject` — the delivery of an object, kind by kind.
* `give_apart` — objects that are returned by value are not const, and they are different objects.
* `give_owned` — what is returned by value is not held by anything else.
* `isConst_of_giveObject` — the const flag of one object.
* `isConst_of_give` — objects, or lists of objects, at the moment at which the call returns.
-/

namespace ObjectBridge

/-- Objects, or lists of objects, nested to any depth. -/
def Ty.HoldsObjects : Ty → Prop
  | .object _ => True
  | .list item => item.HoldsObjects
  | _ => False

namespace Delivery

open Run

variable {exec : Exec} {s t : State} {h : Handle} {u v : Value}

/-! ## One object -/

/-- Another handle for an object is issued in view of the one that is returned. -/
theorem exists_of_outcome_issueFor {c : Constness} {k : Handle}
    (hrun : (Lifetime.issueFor h c).outcome s = (.ok k, t)) :
    ∃ a, s.arena.issue ([h] ++ s.handles) h.target c = some (k, a) ∧ t = { s with arena := a } := by
  obtain ⟨issued, s₁, hissue, hsome⟩ := exists_of_outcome_bind hrun
  obtain ⟨rfl, rfl⟩ := eq_of_outcome_orFail hsome
  rw [Lifetime.issue?, outcome_get_bind] at hissue
  cases hnew : s.arena.issue ([h] ++ s.handles) h.target c with
  | none =>
      rw [hnew] at hissue
      cases (eq_of_outcome_pure hissue).1
  | some issued =>
      rw [hnew] at hissue
      obtain ⟨_, s₂, hset, hpure⟩ := exists_of_outcome_bind hissue
      obtain ⟨hk, rfl⟩ := eq_of_outcome_pure hpure
      obtain rfl := Option.some.inj hk
      exact ⟨_, rfl, (Prod.mk.inj hset).2.symm⟩

/-- An object as a result: it is there, and it is delivered as the kind of passing says. -/
theorem exists_of_outcome_giveObject {cls method : String} {passing : Passing}
    (hrun : (giveObject exec cls passing h method).outcome s = (.ok u, t)) :
    ∃ i, s.arena.get? h.target = some i ∧
      (match passing with
        | .value =>
            (isFresh s i h = true ∧ u = .object h ∧ t = s) ∨
            (isFresh s i h = false ∧
              ∃ k t', (Lifetime.dup exec h).outcome (withHeld s [.object h]) = (.ok k, t') ∧
                u = .object k ∧ t = withoutHeld t')
        | .ref | .ptr =>
            ∃ k a, s.arena.issue ([h] ++ s.handles) h.target .nonConst = some (k, a) ∧
              u = .object k ∧ t = { s with arena := a }
        | .constRef | .constPtr =>
            (isSoleAlias s h = true ∧ u = .object h ∧
              t = { s with arena := s.arena.setConst h.proxy true }) ∨
            ∃ k a, s.arena.issue ([h] ++ s.handles) h.target .const = some (k, a) ∧
              u = .object k ∧ t = { s with arena := a }) := by
  rw [giveObject, outcome_get_bind] at hrun
  obtain ⟨expected, s₁, hrequire, hchecked⟩ := exists_of_outcome_bind hrun
  obtain ⟨-, rfl⟩ := eq_of_outcome_ofExcept hrequire
  rw [outcome_get_bind] at hchecked
  obtain ⟨-, hresolved⟩ := outcome_of_unless hchecked
  obtain ⟨i, s₂, hresolve, hrest⟩ := exists_of_outcome_bind hresolved
  obtain ⟨hi, rfl⟩ := eq_of_outcome_ofExcept hresolve
  refine ⟨i, Arena.resolve_eq_ok_iff.mp hi, ?_⟩
  rw [outcome_get_bind] at hrest
  have hissued {c : Constness}
      (hact : (Lifetime.issueFor h c >>= fun k => pure (Value.object k)).outcome s = (.ok u, t)) :
      ∃ k a, s.arena.issue ([h] ++ s.handles) h.target c = some (k, a) ∧ u = .object k ∧
        t = { s with arena := a } := by
    obtain ⟨k, s₃, hissue, hpure⟩ := exists_of_outcome_bind hact
    obtain ⟨hu, rfl⟩ := eq_of_outcome_pure hpure
    obtain ⟨a, hnew, ht⟩ := exists_of_outcome_issueFor hissue
    exact ⟨k, a, hnew, hu.symm, ht⟩
  have hshown (hact : (if isSoleAlias s h then do
        setArena (s.arena.setConst h.proxy true)
        return Value.object h
      else return .object (← Lifetime.issueFor h .const)).outcome s = (.ok u, t)) :
      (isSoleAlias s h = true ∧ u = .object h ∧
        t = { s with arena := s.arena.setConst h.proxy true }) ∨
      ∃ k a, s.arena.issue ([h] ++ s.handles) h.target .const = some (k, a) ∧ u = .object k ∧
        t = { s with arena := a } := by
    split at hact
    · rename_i hsole
      obtain ⟨_, s₃, hset, hpure⟩ := exists_of_outcome_bind hact
      obtain ⟨hu, rfl⟩ := eq_of_outcome_pure hpure
      exact Or.inl ⟨hsole, hu.symm, (Prod.mk.inj hset).2.symm⟩
    · exact Or.inr (hissued hact)
  cases passing with
  | value =>
      simp only at hrest
      split at hrest
      · rename_i hfresh
        obtain ⟨hu, hs⟩ := eq_of_outcome_pure hrest
        exact Or.inl ⟨hfresh, hu.symm, hs.symm⟩
      · rename_i hshared
        obtain ⟨k, s₃, hcopy, hpure⟩ := exists_of_outcome_bind hrest
        obtain ⟨hu, rfl⟩ := eq_of_outcome_pure hpure
        obtain ⟨t', hdup, ht⟩ := exists_of_outcome_holding hcopy
        exact Or.inr ⟨Bool.eq_false_iff.mpr hshared, k, t', hdup, hu.symm, ht⟩
  | ref => exact hissued hrest
  | ptr => exact hissued hrest
  | constRef => exact hshown hrest
  | constPtr => exact hshown hrest

/-! ## One object by value -/

theorem isFresh_eq_true_iff {i : Instance} :
    isFresh s i h = true ↔ i.keep = .managed ∧ s.isConst h = false ∧
      Arena.anchorHeld s.handles h.proxy.anchor = false := by
  simp [isFresh, and_assoc]

/-- A fresh object is handed over by its only handle. -/
theorem owned_of_isFresh {i : Instance} (hi : s.arena.get? h.target = some i)
    (hfresh : isFresh s i h = true) : s.Owned [] h := by
  obtain ⟨hkeep, hmut, hfree⟩ := isFresh_eq_true_iff.mp hfresh
  refine ⟨hmut, ⟨i, hi, hkeep⟩, ?_⟩
  rintro p ⟨g, hg, rfl⟩ heq
  have hheld : Arena.anchorHeld s.handles h.proxy.anchor = true :=
    List.any_eq_true.mpr ⟨g, hg, by rw [heq, beq_self_eq_true]⟩
  rw [hheld] at hfree
  cases hfree

/-- With values that are held, a state arises when these are in hand. -/
theorem arises_withHeld {values hand : List Value} (hs : s.Arises (values ++ hand)) :
    (withHeld s values).Arises hand := by
  refine hs.trans (custody_path_of_subset rfl rfl rfl ?_)
  intro v hv
  simp only [State.mem_inUse_iff, State.mem_roots_iff, withHeld, List.flatten_cons,
    List.mem_append] at hv ⊢
  tauto

theorem owned_withoutHeld {hand : List Value} {k : Handle} (howned : s.Owned hand k) :
    (withoutHeld s).Owned hand k :=
  howned.of_subset rfl rfl fun _ hv => mem_inUse_withoutHeld hv

section Bodies

variable (hexec : ConservesAll exec)

include hexec

/-- An object that is returned by value gets a handle that nothing else in use shares. -/
theorem owned_of_outcome_giveObject {cls method : String} (hs : s.Arises [.object h])
    (hrun : (giveObject exec cls .value h method).outcome s = (.ok u, t)) :
    ∃ k, u = .object k ∧ t.Owned [] k := by
  obtain ⟨i, hi, ⟨hfresh, rfl, rfl⟩ | ⟨-, k, t', hdup, rfl, rfl⟩⟩ := exists_of_outcome_giveObject hrun
  · exact ⟨h, rfl, owned_of_isFresh hi hfresh⟩
  · obtain ⟨w, hmat, hcopied⟩ := Lifetime.exists_of_outcome_dup hdup
    have hstart : (withHeld s [.object h]).Arises [] := arises_withHeld hs
    have hw : w.Arises [] := (Lifetime.conserves_materialize hexec h "dup").arises hstart hmat
    exact ⟨k, rfl, owned_withoutHeld (hcopied.owned hw)⟩

end Bodies

/-! ## Results without boxes -/

/-- What is neither an object nor a box does not become an object. -/
theorem convert_object_eq_error {w : World} {cls : String} (hbox : v.box? = none)
    (hobject : v.handle? = none) :
    ∃ e, Conversion.convert w (.object cls) .value v = .error e := by
  rw [Conversion.convert, Conversion.throughBoxes, Conversion.behind_of_box?_eq_none hbox]
  cases v <;> first | exact ⟨_, rfl⟩ | cases hobject

/-- What is neither a list nor a box does not become a list. -/
theorem convert_list_eq_error {w : World} {item : Ty} (hbox : v.box? = none)
    (hlist : v.list? = none) :
    ∃ e, Conversion.convert w (.list item) .value v = .error e := by
  rw [Conversion.convert, Conversion.throughBoxes, Conversion.behind_of_box?_eq_none hbox]
  cases v <;> first | exact ⟨_, rfl⟩ | cases hlist

theorem not_outcome_converted {type : Ty}
    (herror : ∃ e, Conversion.convert s.toWorld type .value v = .error e) :
    (give.converted type v).outcome s ≠ (.ok u, t) := by
  obtain ⟨e, he⟩ := herror
  intro hrun
  rw [give.converted, outcome_get_bind, he] at hrun
  exact not_outcome_fail hrun

/-- A result without boxes that is delivered as an object is an object, or it is nil where nil may pass. -/
theorem outcome_give_object {owner method cls : String} {passing : Passing} (hbox : v.boxes = [])
    (hrun : (give exec owner method (.object cls) passing v).outcome s = (.ok u, t)) :
    (∃ h, v = .object h ∧ (giveObject exec cls passing h method).outcome s = (.ok u, t)) ∨
      (passing.isNullable = true ∧ u = .nil ∧ t = s) := by
  unfold give at hrun
  split at hrun
  · exact Or.inl ⟨_, rfl, hrun⟩
  · split at hrun
    · rename_i hnull
      obtain ⟨hu, hs⟩ := eq_of_outcome_pure hrun
      exact Or.inr ⟨hnull, hu.symm, hs.symm⟩
    · exact (not_outcome_fail hrun).elim
  · rename_i hobject _
    refine absurd hrun (not_outcome_converted (convert_object_eq_error
      (Value.box?_eq_none_of_boxes hbox) ?_))
    cases v <;> first | rfl | exact absurd rfl (hobject _)

/-- Nil does not pass by value. -/
theorem outcome_give_object_value {owner method cls : String} (hbox : v.boxes = [])
    (hrun : (give exec owner method (.object cls) .value v).outcome s = (.ok u, t)) :
    ∃ h, v = .object h ∧ (giveObject exec cls .value h method).outcome s = (.ok u, t) := by
  rcases outcome_give_object hbox hrun with hobject | ⟨hnull, -, -⟩
  · exact hobject
  · cases hnull

/-- A result without boxes that is delivered as a list is a list, whose items are delivered one by one. -/
theorem outcome_give_list {owner method : String} {item : Ty} {passing : Passing} (hbox : v.boxes = [])
    (hrun : (give exec owner method (.list item) passing v).outcome s = (.ok u, t)) :
    ∃ vs us, v = .list vs ∧ u = .list us ∧
      (mapHeld (give exec owner method item passing) vs).outcome s = (.ok us, t) := by
  unfold give at hrun
  split at hrun
  · rename_i vs
    obtain ⟨us, t', hitems, hpure⟩ := exists_of_outcome_bind hrun
    obtain ⟨hu, rfl⟩ := eq_of_outcome_pure hpure
    exact ⟨vs, us, rfl, hu.symm, hitems⟩
  · rename_i hlist
    refine absurd hrun (not_outcome_converted (convert_list_eq_error
      (Value.box?_eq_none_of_boxes hbox) ?_))
    cases v <;> first | rfl | exact absurd rfl (hlist _)

/-! ## Items one after the other -/

theorem pinned_subset_withHeld (s : State) (values : List Value) :
    s.pinned ⊆ (withHeld s values).pinned := by
  refine State.pinned_subset ?_
  intro v hv
  rw [withHeld, State.kept_cons_held]
  exact List.mem_append_right _ hv

theorem mem_pinned_withHeld {k : Handle} (hk : k ∈ u.handles) :
    k.proxy ∈ (withHeld s [u]).pinned := by
  refine ⟨u, ?_, k, hk, rfl⟩
  rw [withHeld, State.kept_cons_held]
  exact List.mem_append_left _ List.mem_cons_self

/-- What values stayed in use for is a state of the same level. -/
theorem level_withoutHeld {values : List Value} (hlevel : (withHeld s values).Level t) :
    s.Level (withoutHeld t) := by
  refine ⟨?_, hlevel.tail_eq, hlevel.receiver_eq, hlevel.stepsLeft_eq, hlevel.overrides_subset⟩
  show t.held.tail = s.held
  rw [hlevel.held_eq]
  rfl

/-- The values that were held are in hand afterwards. -/
theorem arises_withoutHeld {values hand : List Value} (hlevel : (withHeld s values).Level t)
    (ht : t.Arises hand) : (withoutHeld t).Arises (values ++ hand) := by
  refine ht.trans (custody_path_of_subset rfl rfl rfl ?_)
  intro v hv
  have hheld : t.held = values :: s.held := hlevel.held_eq
  simp only [State.mem_inUse_iff, State.mem_roots_iff, withoutHeld, hheld, List.tail_cons,
    List.flatten_cons, List.mem_append] at hv ⊢
  tauto

theorem mem_handles_list_cons {vs : List Value} {k : Handle} :
    k ∈ (Value.list (v :: vs)).handles ↔ k ∈ v.handles ∨ k ∈ (Value.list vs).handles := by
  rw [Value.handles_list, Value.handles_list, Value.listHandles_cons, List.mem_append]

section Items

variable {f : Value → Run Value} (hf : ∀ v s, Conserves (f v) s [v] fun u => [u]) {vs us : List Value}

include hf

/-- The first item is delivered while the others are held, and these are delivered while the result is. -/
theorem exists_of_outcome_mapHeld_cons (hs : s.Arises (v :: vs))
    (hrun : (mapHeld f (v :: vs)).outcome s = (.ok us, t)) :
    ∃ u us' t₁ t₂, us = u :: us' ∧ t = withoutHeld t₂ ∧
      (f v).outcome (withHeld s vs) = (.ok u, t₁) ∧
      (mapHeld f vs).outcome (withHeld (withoutHeld t₁) [u]) = (.ok us', t₂) ∧
      (withHeld s vs).Arises [v] ∧ (withHeld (withoutHeld t₁) [u]).Arises vs ∧
      s.Level (withoutHeld t₁) := by
  obtain ⟨u, t₁, hhold, hafter⟩ := exists_of_outcome_bind hrun
  obtain ⟨t₁', hfirst, rfl⟩ := exists_of_outcome_holding hhold
  obtain ⟨us', t₂, hhold', hpure⟩ := exists_of_outcome_bind hafter
  obtain ⟨rfl, rfl⟩ := eq_of_outcome_pure hpure
  obtain ⟨t₂', hrest, rfl⟩ := exists_of_outcome_holding hhold'
  have hstart : (withHeld s vs).Arises [v] := arises_withHeld (hs.of_covers fun w hw =>
    State.covers_of_mem_hand (by simpa [or_comm] using hw))
  obtain ⟨hlevel, -⟩ := (hf v (withHeld s vs)).ok hfirst
  have hmiddle : (withHeld (withoutHeld t₁') [u]).Arises vs := by
    refine arises_withHeld ((arises_withoutHeld hlevel
      ((hf v _).arises hstart hfirst)).of_covers fun w hw => State.covers_of_mem_hand ?_)
    simpa [or_comm] using hw
  exact ⟨u, us', t₁', t₂', rfl, rfl, hfirst, hrest, hstart, hmiddle, level_withoutHeld hlevel⟩

/-- What holds of the handles of every result when it is delivered, and goes on to hold of handles in use while
further items are delivered, holds of the handles of all results. -/
theorem mapHeld_forall {P : State → Handle → Prop}
    (harena : ∀ s t k, t.arena = s.arena → P s k → P t k)
    (hitem : ∀ v ∈ vs, ∀ s u t, s.Arises [v] → (f v).outcome s = (.ok u, t) → ∀ k ∈ u.handles, P t k)
    (hkeep : ∀ v ∈ vs, ∀ s u t, s.Arises [v] → (f v).outcome s = (.ok u, t) →
      ∀ k, k.proxy ∈ s.pinned → P s k → P t k)
    (hs : s.Arises vs) (hrun : (mapHeld f vs).outcome s = (.ok us, t)) :
    (∀ k ∈ (Value.list us).handles, P t k) ∧ ∀ k, k.proxy ∈ s.pinned → P s k → P t k := by
  induction vs generalizing s us t with
  | nil =>
      obtain ⟨rfl, rfl⟩ := eq_of_outcome_pure hrun
      exact ⟨by rintro k ⟨⟩, fun k _ hk => hk⟩
  | cons v rest ih =>
      obtain ⟨u, us', t₁, t₂, rfl, rfl, hfirst, hrest, hstart, hmiddle, hlevel⟩ :=
        exists_of_outcome_mapHeld_cons hf hs hrun
      obtain ⟨hresults, hlater⟩ := ih (fun w hw => hitem w (List.mem_cons_of_mem v hw))
        (fun w hw => hkeep w (List.mem_cons_of_mem v hw)) hmiddle hrest
      -- What holds of the first result must outlast the other items; it is pinned meanwhile.
      have hthrough (k : Handle) (hk : P (withHeld (withoutHeld t₁) [u]) k)
          (hpin : k.proxy ∈ (withHeld (withoutHeld t₁) [u]).pinned) : P (withoutHeld t₂) k :=
        harena t₂ _ k rfl (hlater k hpin hk)
      refine ⟨?_, ?_⟩
      · intro k hk
        rcases mem_handles_list_cons.mp hk with hk | hk
        · have hhead := hitem v List.mem_cons_self _ u t₁ hstart hfirst k hk
          exact hthrough k (harena t₁ _ k rfl hhead) (mem_pinned_withHeld hk)
        · exact harena t₂ _ k rfl (hresults k hk)
      · intro k hpin hk
        have hhead := hkeep v List.mem_cons_self _ u t₁ hstart hfirst k
          (pinned_subset_withHeld s rest hpin) (harena s _ k rfl hk)
        rw [← hlevel.pinned_eq] at hpin
        exact hthrough k (harena t₁ _ k rfl hhead) (pinned_subset_withHeld _ _ hpin)

end Items

/-! ## Objects apart -/

/-- The handles of a result are not const, and they are of different objects, none of which a value that is
kept meanwhile has a handle of. -/
structure Apart (s t : State) (u : Value) : Prop where
  mutable : ∀ k ∈ u.handles, t.isConst k = false
  pairwise : u.handles.Pairwise fun k g => k.proxy.anchor ≠ g.proxy.anchor
  anchor_ne : ∀ k ∈ u.handles, ∀ p ∈ s.pinned, p.anchor ≠ k.proxy.anchor

/-- If the items are delivered as objects apart, so is the list: every result is in use while the items after
it are delivered. -/
theorem mapHeld_apart {f : Value → Run Value} (hf : ∀ v s, Conserves (f v) s [v] fun u => [u])
    {vs us : List Value}
    (happart : ∀ v ∈ vs, ∀ s u t, s.Arises [v] → (f v).outcome s = (.ok u, t) → Apart s t u)
    (hs : s.Arises vs) (hrun : (mapHeld f vs).outcome s = (.ok us, t)) :
    Apart s t (.list us) := by
  have hmutable : ∀ k ∈ (Value.list us).handles, t.isConst k = false := by
    refine (mapHeld_forall (P := fun s k => s.isConst k = false) hf ?_ ?_ ?_ hs hrun).1
    · intro s t k harena hk
      rwa [World.isConst, harena]
    · exact fun v hv s u t hs hrun => (happart v hv s u t hs hrun).mutable
    · intro v _ s u t hs hrun k hk hmut
      have hkept := (hf v s).stays_mutable hs hk hmut
      rw [hrun] at hkept
      exact hkept
  have hrest : ((Value.list us).handles.Pairwise fun k g => k.proxy.anchor ≠ g.proxy.anchor) ∧
      ∀ k ∈ (Value.list us).handles, ∀ p ∈ s.pinned, p.anchor ≠ k.proxy.anchor := by
    -- The induction is on the items: a result is pinned while the later ones are made, so that
    -- none of them gets its anchor.
    clear hmutable
    induction vs generalizing s us t with
    | nil =>
        obtain ⟨rfl, rfl⟩ := eq_of_outcome_pure hrun
        exact ⟨List.Pairwise.nil, by rintro k ⟨⟩⟩
    | cons v rest ih =>
        obtain ⟨u, us', t₁, t₂, rfl, rfl, hfirst, hrest, hstart, hmiddle, hlevel⟩ :=
          exists_of_outcome_mapHeld_cons hf hs hrun
        have hhead := happart v List.mem_cons_self _ u t₁ hstart hfirst
        obtain ⟨hpair, hne⟩ := ih (fun w hw => happart w (List.mem_cons_of_mem v hw)) hmiddle hrest
        refine ⟨?_, ?_⟩
        · rw [Value.handles_list] at hpair hne ⊢
          rw [Value.listHandles_cons, List.pairwise_append]
          exact ⟨hhead.pairwise, hpair, fun k hk g hg => hne g hg k.proxy (mem_pinned_withHeld hk)⟩
        · intro k hk p hp
          rcases mem_handles_list_cons.mp hk with hk | hk
          · exact hhead.anchor_ne k hk p (pinned_subset_withHeld s rest hp)
          · rw [← hlevel.pinned_eq] at hp
            exact hne k hk p (pinned_subset_withHeld _ _ hp)
  exact ⟨hmutable, hrest.1, hrest.2⟩

/-- Objects returned by value are not const, and they are different objects, even if the body left one
handle several times. -/
theorem give_apart (hexec : ConservesAll exec) {owner method : String} {type : Ty}
    (htype : type.HoldsObjects) (hs : s.Arises [v]) (hbox : v.boxes = [])
    (hrun : (give exec owner method type .value v).outcome s = (.ok u, t)) : Apart s t u := by
  induction type generalizing v s u t with
  | object cls =>
      obtain ⟨h, rfl, hgive⟩ := outcome_give_object_value hbox hrun
      obtain ⟨k, rfl, howned⟩ := owned_of_outcome_giveObject hexec hs hgive
      obtain ⟨hlevel, -⟩ := (conserves_giveObject hexec cls .value h method).ok hgive
      refine ⟨?_, ?_, ?_⟩
      · intro g hg
        obtain rfl := List.mem_singleton.mp hg
        exact howned.mutable
      · exact List.pairwise_singleton _ _
      · intro g hg p hp
        obtain rfl := List.mem_singleton.mp hg
        refine howned.anchor_ne p (State.pinned_subset_proxies t [] ?_)
        rwa [hlevel.pinned_eq]
  | list item ih =>
      obtain ⟨vs, us, rfl, rfl, hitems⟩ := outcome_give_list hbox hrun
      refine mapHeld_apart (fun w s => conserves_give hexec owner method item .value w) ?_
        (hs.of_covers ?_) hitems
      · exact fun w hw s u t hs hrun => ih htype hs (Value.closed_withoutBoxes.item _ hbox _ hw) hrun
      · exact Cells.covers_list_iff.mp (State.covers_of_mem_hand List.mem_cons_self)
  | _ => exact htype.elim

/-! ## Objects owned -/

/-- The objects of the handles in a value have their native states. -/
def Ready (s : State) (v : Value) : Prop :=
  ∀ h ∈ v.handles, ∃ i, s.arena.get? h.target = some i ∧ i.isMaterialized = true

theorem extends_withoutHeld {values : List Value} (hextends : (withHeld s values).Extends t) :
    s.Extends (withoutHeld t) := by
  refine ⟨?_, hextends.constProxies_eq, hextends.get?_eq, hextends.mem_heldValues⟩
  rw [hextends.eq_withArena]
  rfl

/-- A result is delivered by copies alone, and its handles are the only ones of their objects. -/
structure Delivered (s t : State) (u : Value) : Prop where
  «extends» : s.Extends t
  owned : ∀ k ∈ u.handles, t.Owned [] k

theorem mapHeld_delivered {f : Value → Run Value} (hf : ∀ v s, Conserves (f v) s [v] fun u => [u])
    {vs us : List Value}
    (hdelivered : ∀ v ∈ vs, ∀ s u t, s.Arises [v] → Ready s v → (f v).outcome s = (.ok u, t) →
      Delivered s t u)
    (hs : s.Arises vs) (hready : Ready s (.list vs))
    (hrun : (mapHeld f vs).outcome s = (.ok us, t)) : Delivered s t (.list us) := by
  induction vs generalizing s us t with
  | nil =>
      obtain ⟨rfl, rfl⟩ := eq_of_outcome_pure hrun
      exact ⟨State.Extends.refl s, by rintro k ⟨⟩⟩
  | cons v rest ih =>
      obtain ⟨u, us', t₁, t₂, rfl, rfl, hfirst, hrest, hstart, hmiddle, -⟩ :=
        exists_of_outcome_mapHeld_cons hf hs hrun
      have hhead := hdelivered v List.mem_cons_self _ u t₁ hstart
        (fun h hh => hready h (mem_handles_list_cons.mpr (Or.inl hh))) hfirst
      have hfirstExtends := extends_withoutHeld hhead.extends
      -- The first item only added to the state, so the other items are as ready as before.
      have hready' : Ready (withHeld (withoutHeld t₁) [u]) (.list rest) := by
        intro h hh
        obtain ⟨i, hi, hmat⟩ := hready h (mem_handles_list_cons.mpr (Or.inr hh))
        exact ⟨i, hfirstExtends.get?_eq _ i hi, hmat⟩
      have htail := ih (fun w hw => hdelivered w (List.mem_cons_of_mem v hw)) hmiddle hready' hrest
      have hrestExtends := extends_withoutHeld htail.extends
      refine ⟨hfirstExtends.trans hrestExtends, ?_⟩
      intro k hk
      rcases mem_handles_list_cons.mp hk with hk | hk
      · exact (owned_withoutHeld (hhead.owned k hk)).of_extends hrestExtends
      · exact owned_withoutHeld (htail.owned k hk)

/-- Objects that have their native states are returned by value by copies alone, and at the end nothing else
has a handle of what was returned. -/
theorem give_delivered (hexec : ConservesAll exec) {owner method : String} {type : Ty}
    (htype : type.HoldsObjects) (hs : s.Arises [v]) (hbox : v.boxes = []) (hready : Ready s v)
    (hrun : (give exec owner method type .value v).outcome s = (.ok u, t)) : Delivered s t u := by
  induction type generalizing v s u t with
  | object cls =>
      obtain ⟨h, rfl, hgive⟩ := outcome_give_object_value hbox hrun
      obtain ⟨k, rfl, howned⟩ := owned_of_outcome_giveObject hexec hs hgive
      refine ⟨?_, ?_⟩
      · obtain ⟨i, hi, ⟨-, -, rfl⟩ | ⟨-, k, t', hdup, -, rfl⟩⟩ := exists_of_outcome_giveObject hgive
        · exact State.Extends.refl t
        · obtain ⟨j, hj, hjmat⟩ := hready h (by simp)
          have hstart : (withHeld s [.object h]).Arises [] := arises_withHeld hs
          exact extends_withoutHeld (Lifetime.extends_of_dup hstart hj hjmat hdup).1
      · intro g hg
        obtain rfl := List.mem_singleton.mp hg
        exact howned
  | list item ih =>
      obtain ⟨vs, us, rfl, rfl, hitems⟩ := outcome_give_list hbox hrun
      refine mapHeld_delivered (fun w s => conserves_give hexec owner method item .value w) ?_
        (hs.of_covers ?_) hready hitems
      · exact fun w hw s u t hs hready hrun => ih htype hs (Value.closed_withoutBoxes.item _ hbox _ hw) hready hrun
      · exact Cells.covers_list_iff.mp (State.covers_of_mem_hand List.mem_cons_self)
  | _ => exact htype.elim

end Delivery

end ObjectBridge

/-! ## Const flags of results -/

namespace ObjectBridge.Delivery

open Run

variable {exec : Exec} {s t : State} {h : Handle} {u v : Value} {passing : Passing}

/-- A returned object has a handle of the declared kind. -/
theorem isConst_of_giveObject (hexec : ConservesAll exec) {cls method : String}
    (hs : s.Arises [.object h])
    (hrun : (giveObject exec cls passing h method).outcome s = (.ok u, t)) :
    ∃ k, u = .object k ∧ t.isConst k = passing.isConst := by
  obtain ⟨i, hi, hcases⟩ := exists_of_outcome_giveObject hrun
  have hissued (hnew : ∃ k a, s.arena.issue ([h] ++ s.handles) h.target .nonConst = some (k, a) ∧
      u = .object k ∧ t = { s with arena := a }) : ∃ k, u = .object k ∧ t.isConst k = false := by
    obtain ⟨k, a, hissue, rfl, rfl⟩ := hnew
    exact ⟨k, rfl, Arena.isConst_of_issue_nonConst hs.flag_lt hissue⟩
  have hshown (hconst : (isSoleAlias s h = true ∧ u = .object h ∧
        t = { s with arena := s.arena.setConst h.proxy true }) ∨
      ∃ k a, s.arena.issue ([h] ++ s.handles) h.target .const = some (k, a) ∧
        u = .object k ∧ t = { s with arena := a }) : ∃ k, u = .object k ∧ t.isConst k = true := by
    rcases hconst with ⟨-, rfl, rfl⟩ | ⟨k, a, hissue, rfl, rfl⟩
    · exact ⟨h, rfl, Arena.isConst_eq_true_iff.mpr
        (Or.inr (Arena.mem_constProxies_setConst_true.mpr (Or.inl rfl)))⟩
    · exact ⟨k, rfl, Arena.isConst_of_issue_const hissue⟩
  cases passing with
  | value =>
      obtain ⟨k, hu, howned⟩ := owned_of_outcome_giveObject hexec hs hrun
      exact ⟨k, hu, howned.mutable⟩
  | ref => exact hissued hcases
  | ptr => exact hissued hcases
  | constRef => exact hshown hcases
  | constPtr => exact hshown hcases

/-- To return an object that must not be changed makes no handle mutable. -/
theorem stays_const_of_giveObject {cls method : String} (hs : s.Arises [.object h])
    (hpassing : passing.isConst = true)
    (hrun : (giveObject exec cls passing h method).outcome s = (.ok u, t)) {k : Handle}
    (hk : s.isConst k = true) : t.isConst k = true := by
  obtain ⟨i, hi, hcases⟩ := exists_of_outcome_giveObject hrun
  have hshown (hconst : (isSoleAlias s h = true ∧ u = .object h ∧
        t = { s with arena := s.arena.setConst h.proxy true }) ∨
      ∃ k a, s.arena.issue ([h] ++ s.handles) h.target .const = some (k, a) ∧
        u = .object k ∧ t = { s with arena := a }) : t.isConst k = true := by
    rcases Arena.isConst_eq_true_iff.mp hk with hview | hflag
    · exact Arena.isConst_eq_true_iff.mpr (Or.inl hview)
    · refine Arena.isConst_eq_true_iff.mpr (Or.inr ?_)
      rcases hconst with ⟨-, -, rfl⟩ | ⟨g, a, hissue, -, rfl⟩
      · exact Arena.mem_constProxies_setConst_true.mpr (Or.inr hflag)
      · rcases Arena.mem_constProxies_issue hissue (hs.flag_lt _ hflag) with hsame | ⟨hnot, -⟩
        · exact hsame.mpr hflag
        · cases hnot
  cases passing with
  | constRef => exact hshown hcases
  | constPtr => exact hshown hcases
  | _ => cases hpassing

/-- The handles of a result without boxes are of the declared kind, and so are those in use that were of this
kind before. -/
theorem isConst_of_give (hexec : ConservesAll exec) {owner method : String} {type : Ty}
    (htype : type.HoldsObjects) (hs : s.Arises [v]) (hbox : v.boxes = [])
    (hrun : (give exec owner method type passing v).outcome s = (.ok u, t)) :
    (∀ k ∈ u.handles, t.isConst k = passing.isConst) ∧
      ∀ k, k.proxy ∈ s.pinned → s.isConst k = passing.isConst → t.isConst k = passing.isConst := by
  induction type generalizing v s u t with
  | object cls =>
      rcases outcome_give_object hbox hrun with ⟨h, rfl, hgive⟩ | ⟨-, rfl, rfl⟩
      · obtain ⟨g, rfl, hg⟩ := isConst_of_giveObject hexec hs hgive
        refine ⟨?_, ?_⟩
        · intro k hk
          obtain rfl := List.mem_singleton.mp hk
          exact hg
        · intro k hpin hk
          -- Two different facts: giving a const result clears no flag, and no call sets a pinned one.
          cases hpassing : passing.isConst with
          | true => exact stays_const_of_giveObject hs hpassing hgive (hk.trans hpassing)
          | false =>
              have hkept := (conserves_giveObject hexec cls passing h method).stays_mutable hs hpin
                (hk.trans hpassing)
              rw [hgive] at hkept
              exact hkept
      · exact ⟨by rintro k ⟨⟩, fun k _ hk => hk⟩
  | list item ih =>
      obtain ⟨vs, us, rfl, rfl, hitems⟩ := outcome_give_list hbox hrun
      have hvs : s.Arises vs := hs.of_covers
        (Cells.covers_list_iff.mp (State.covers_of_mem_hand List.mem_cons_self))
      refine mapHeld_forall (P := fun s k => s.isConst k = passing.isConst)
        (fun w s => conserves_give hexec owner method item passing w) ?_ ?_ ?_ hvs hitems
      · intro s t k harena hk
        rwa [World.isConst, harena]
      · exact fun w hw s u t hs hrun => (ih htype hs (Value.closed_withoutBoxes.item _ hbox _ hw) hrun).1
      · exact fun w hw s u t hs hrun => (ih htype hs (Value.closed_withoutBoxes.item _ hbox _ hw) hrun).2
  | _ => exact htype.elim

end ObjectBridge.Delivery
