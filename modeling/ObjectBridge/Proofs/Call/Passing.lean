import ObjectBridge.Proofs.Call.Binding
import ObjectBridge.Proofs.Call.Results

/-!
# Arguments as bodies receive them

An object that is passed by value arrives as a new object, one that is passed by a const reference arrives by a
const view, and one that is passed by reference is the object of the caller.  That holds of parameters which
are objects themselves; a list or a map of objects arrives as it is bound.

* `Delivery.Passed` — what arrives for a value.
* `Delivery.forall₂_of_prepare` — all arguments of a body.
* `Delivery.extends_of_prepare` — to pass objects by value changes none of them.
* `Delivery.exists_outcome_outward` — the arguments of an override.
-/

namespace ObjectBridge.Delivery

open Run

variable {exec : Exec} {s s' t t' : State} {p : Param} {v u : Value} {h k : Handle}

/-! ## One argument -/

theorem isConst_asConst (s : State) (h : Handle) : s.isConst h.asConst = true :=
  Arena.isConst_eq_true_iff.mpr (Or.inl rfl)

/-- A handle of a new object, which was made as a copy between two states. -/
structure NewCopy (s t : State) (h k : Handle) : Prop where
  mutable : t.isConst k = false
  /-- The object was not there before. -/
  nextAnchor_le : s.arena.nextAnchor ≤ k.proxy.anchor.serial
  lt_nextAnchor : k.proxy.anchor.serial < t.arena.nextAnchor
  /-- It was made with the native state of the original, and nothing else had a handle of it. -/
  copied : ∃ w x, Lifetime.Copied w h x k ∧ x.Owned [] k

/-- What arrives for a value that is bound to a parameter. -/
inductive Passed (s t : State) : Param → Value → Value → Prop
  /-- By value arrives a new object. -/
  | copied {p : Param} {h k : Handle} (hobject : p.type.isObject = true) (hpassing : p.passing = .value)
      (hcopy : NewCopy s t h k) : Passed s t p (.object h) (.object k)
  /-- By a const reference or pointer arrives a const view of the object. -/
  | shown {p : Param} {h : Handle} (hobject : p.type.isObject = true)
      (hpassing : p.passing.isConst = true) (hconst : t.isConst h.asConst = true) :
      Passed s t p (.object h) (.object h.asConst)
  /-- By a reference or pointer arrives the handle of the caller, which is not const. -/
  | aliased {p : Param} {h : Handle} (hobject : p.type.isObject = true)
      (hpassing : p.passing.writesBack = true) (hmut : t.isConst h = false) :
      Passed s t p (.object h) (.object h)
  /-- Anything else arrives as it is. -/
  | other {p : Param} {v : Value} (hother : p.type.isObject = false ∨ v.handle? = none) : Passed s t p v v

theorem NewCopy.mono (hcopy : NewCopy s t h k) (hbefore : s'.arena.nextAnchor ≤ s.arena.nextAnchor)
    (hafter : t.arena.nextAnchor ≤ t'.arena.nextAnchor)
    (hmut : t.isConst k = false → t'.isConst k = false) : NewCopy s' t' h k :=
  ⟨hmut hcopy.mutable, hbefore.trans hcopy.nextAnchor_le, hcopy.lt_nextAnchor.trans_le hafter,
    hcopy.copied⟩

/-- No handle from before is a handle of a new object. -/
theorem NewCopy.anchor_ne (hcopy : NewCopy s t h k) {hand : List Value} (hs : s.Arises hand) :
    ∀ p ∈ (s.custody hand).proxies, p.anchor ≠ k.proxy.anchor := by
  intro p hp heq
  have hlt := hs.anchor_lt hp
  rw [heq] at hlt
  exact Nat.lt_irrefl _ (hlt.trans_le hcopy.nextAnchor_le)

theorem Passed.mono (hpassed : Passed s t p v u) (hbefore : s'.arena.nextAnchor ≤ s.arena.nextAnchor)
    (hafter : t.arena.nextAnchor ≤ t'.arena.nextAnchor)
    (hmut : ∀ k ∈ u.handles, t.isConst k = false → t'.isConst k = false) : Passed s' t' p v u := by
  cases hpassed with
  | copied hobject hpassing hcopy =>
      exact .copied hobject hpassing (hcopy.mono hbefore hafter (hmut _ List.mem_cons_self))
  | shown hobject hpassing _ => exact .shown hobject hpassing (isConst_asConst t' _)
  | aliased hobject hpassing hmutable =>
      exact .aliased hobject hpassing (hmut _ List.mem_cons_self hmutable)
  | other hother => exact .other hother

/-- A parameter takes objects by value. -/
def TakesCopy (p : Param) : Prop :=
  p.type.isObject = true ∧ p.passing = .value

theorem Passed.newCopy (hpassed : Passed s t p v (.object k)) (htakes : TakesCopy p) :
    ∃ h, v = .object h ∧ NewCopy s t h k := by
  obtain ⟨hobject, hvalue⟩ := htakes
  cases hpassed with
  | copied _ _ hcopy => exact ⟨_, rfl, hcopy⟩
  | shown _ hpassing _ => rw [hvalue] at hpassing; cases hpassing
  | aliased _ hpassing _ => rw [hvalue] at hpassing; cases hpassing
  | other hother =>
      rcases hother with hnot | hnone
      · rw [hobject] at hnot; cases hnot
      · cases hnone

/-- Two arguments, if both arrive by value, arrive as different new objects. -/
def CopiesApart (a b : (Param × Value) × Value) : Prop :=
  TakesCopy a.1.1 → TakesCopy b.1.1 → ∀ k g, a.2 = .object k → b.2 = .object g →
    k.proxy.anchor ≠ g.proxy.anchor

/-- A value may be passed: by a reference or pointer no const handle is. -/
def Passable (s : State) (p : Param) (v : Value) : Prop :=
  p.type.isObject = true → p.passing.writesBack = true → ∀ h, v = .object h → s.isConst h = false

theorem passable_of_accepts (hv : Conversion.Accepts s.toWorld p v) : Passable s p v := by
  rintro hobject hback h rfl
  obtain ⟨raw, cost, hconv⟩ := hv
  obtain ⟨cls, htype⟩ := Ty.eq_object_of_isObject hobject
  rw [htype] at hconv
  rcases Conversion.object_of_convert hconv with ⟨-, hnil⟩ | ⟨g, hg, -, -, hmut⟩
  · cases hnil
  · obtain rfl := Value.object.inj hg
    exact hmut hback

/-- An object that is passed by value is copied. -/
theorem newCopy_of_dup (hexec : ConservesAll exec) (hs : s.Arises [])
    (hrun : (Lifetime.dup exec h).outcome s = (.ok k, t)) : NewCopy s t h k := by
  obtain ⟨w, hmat, hcopied⟩ := Lifetime.exists_of_outcome_dup hrun
  have hconserves := Lifetime.conserves_materialize (s := s) hexec h "dup"
  have hw : w.Arises [] := hconserves.arises hs hmat
  have howned := hcopied.owned hw
  have hle := (hconserves.ok hmat).2.nextAnchor_le
  have hserial : k.proxy.anchor.serial = w.arena.nextAnchor ∧
      t.arena.nextAnchor = w.arena.nextAnchor + 1 := by
    obtain ⟨i, state, c, arena, -, -, hreg, rfl⟩ := hcopied
    exact (Arena.nextAnchor_register hreg).symm
  refine ⟨howned.mutable, ?_, ?_, w, t, hcopied, howned⟩
  · rw [hserial.1]
    exact hle
  · rw [hserial.1, hserial.2]
    exact Nat.lt_succ_self _

theorem passed_of_prepareOne (hexec : ConservesAll exec) (hs : s.Arises []) (hfit : Passable s p v)
    (hrun : (prepareOne exec p v).outcome s = (.ok u, t)) : Passed s t p v u := by
  unfold prepareOne at hrun
  split at hrun
  · rename_i h htype
    have hobject : p.type.isObject = true := by rw [htype]; rfl
    -- An object is copied, shown or aliased, and the passing alone decides which.
    cases hpassing : p.passing with
    | value =>
        rw [hpassing] at hrun
        obtain ⟨k, t', hdup, hpure⟩ := exists_of_outcome_bind hrun
        obtain ⟨rfl, rfl⟩ := eq_of_outcome_pure hpure
        exact .copied hobject hpassing (newCopy_of_dup hexec hs hdup)
    | constRef =>
        rw [hpassing] at hrun
        obtain ⟨rfl, rfl⟩ := eq_of_outcome_pure hrun
        exact .shown hobject (by rw [hpassing]; rfl) (isConst_asConst s h)
    | constPtr =>
        rw [hpassing] at hrun
        obtain ⟨rfl, rfl⟩ := eq_of_outcome_pure hrun
        exact .shown hobject (by rw [hpassing]; rfl) (isConst_asConst s h)
    | ref =>
        rw [hpassing] at hrun
        obtain ⟨rfl, rfl⟩ := eq_of_outcome_pure hrun
        have hback : p.passing.writesBack = true := by rw [hpassing]; rfl
        exact .aliased hobject hback (hfit hobject hback h rfl)
    | ptr =>
        rw [hpassing] at hrun
        obtain ⟨rfl, rfl⟩ := eq_of_outcome_pure hrun
        have hback : p.passing.writesBack = true := by rw [hpassing]; rfl
        exact .aliased hobject hback (hfit hobject hback h rfl)
  · rename_i hnot
    obtain ⟨hu, -⟩ := eq_of_outcome_pure hrun
    rw [← hu]
    refine .other ?_
    cases htype : p.type with
    | object cls =>
        refine Or.inr ?_
        rw [Option.eq_none_iff_forall_ne_some]
        exact fun h hh => hnot cls h htype (Value.eq_object_of_handle? hh)
    | _ => exact Or.inl rfl

/-! ## All arguments -/

/-- The first value is prepared while all are held, and the others are while its result is. -/
theorem exists_of_outcome_prepare_cons (hexec : ConservesAll exec) {params : List Param}
    {rest us : List Value} (hs : s.Arises (v :: rest))
    (hrun : (prepare exec (p :: params) (v :: rest)).outcome s = (.ok us, t)) :
    ∃ u us' t₁ t₂, us = u :: us' ∧ t = withoutHeld t₂ ∧
      (prepareOne exec p v).outcome (withHeld s (v :: rest)) = (.ok u, t₁) ∧
      (prepare exec params rest).outcome (withHeld (withoutHeld t₁) [u]) = (.ok us', t₂) ∧
      (withHeld s (v :: rest)).Arises [] ∧ (withHeld (withoutHeld t₁) [u]).Arises rest ∧
      Conserves (prepareOne exec p v) (withHeld s (v :: rest)) [] fun u => [u] := by
  rw [prepare_cons] at hrun
  obtain ⟨u, t₁, hhold, hafter⟩ := exists_of_outcome_bind hrun
  obtain ⟨t₁', hfirst, rfl⟩ := exists_of_outcome_holding hhold
  obtain ⟨us', t₂, hhold', hpure⟩ := exists_of_outcome_bind hafter
  obtain ⟨rfl, rfl⟩ := eq_of_outcome_pure hpure
  obtain ⟨t₂', hrest, rfl⟩ := exists_of_outcome_holding hhold'
  have hstart : (withHeld s (v :: rest)).Arises [] := arises_withHeld (by simpa using hs)
  have hv : v ∈ (withHeld s (v :: rest)).roots :=
    State.mem_roots_of_mem_held List.mem_cons_self List.mem_cons_self
  have hconserves := conserves_prepareOne hexec p (State.covers_of_mem_roots hv [])
  obtain ⟨hlevel, -⟩ := hconserves.ok hfirst
  have hmiddle : (withHeld (withoutHeld t₁') [u]).Arises rest := by
    refine arises_withHeld ((arises_withoutHeld hlevel
      (hconserves.arises hstart hfirst)).of_covers fun w hw => State.covers_of_mem_hand ?_)
    simp only [List.mem_append, List.mem_cons, List.not_mem_nil, or_false] at hw ⊢
    tauto
  exact ⟨u, us', t₁', t₂', rfl, rfl, hfirst, hrest, hstart, hmiddle, hconserves⟩

/-- What a body receives for the values that its parameters are bound to. -/
theorem forall₂_of_prepare (hexec : ConservesAll exec) {params : List Param} {values us : List Value}
    (hs : s.Arises values) (hfit : List.Forall₂ (Passable s) params values)
    (hrun : (prepare exec params values).outcome s = (.ok us, t)) :
    List.Forall₂ (fun bound u => Passed s t bound.1 bound.2 u) (params.zip values) us ∧
      ((params.zip values).zip us).Pairwise CopiesApart := by
  induction params generalizing values s us t with
  | nil =>
      cases hfit
      obtain ⟨rfl, rfl⟩ := eq_of_outcome_pure hrun
      exact ⟨.nil, .nil⟩
  | cons p params ih =>
      obtain ⟨v, rest, hfirst, hrest, rfl⟩ := List.forall₂_cons_left_iff.mp hfit
      obtain ⟨u, us', t₁, t₂, rfl, rfl, hone, hothers, hstart, hmiddle, hconserves⟩ :=
        exists_of_outcome_prepare_cons hexec hs hrun
      have hle : s.arena.nextAnchor ≤ t₁.arena.nextAnchor := (hconserves.ok hone).2.nextAnchor_le
      have hpassed : Passed (withHeld s (v :: rest)) t₁ p v u :=
        passed_of_prepareOne hexec hstart hfirst hone
      -- The values to come are held, so their handles stay mutable.
      have hfit' : List.Forall₂ (Passable (withHeld (withoutHeld t₁) [u])) params rest := by
        obtain ⟨hlength, hall⟩ := List.forall₂_iff_zip.mp hrest
        refine List.forall₂_iff_zip.mpr ⟨hlength, ?_⟩
        rintro q w hmem hobject hback h rfl
        have hpinned : h.proxy ∈ (withHeld s (v :: rest)).pinned := by
          refine ⟨.object h, ?_, h, List.mem_cons_self, rfl⟩
          rw [withHeld, State.kept_cons_held]
          exact List.mem_append_left _ (List.mem_cons_of_mem _ (List.of_mem_zip hmem).2)
        have hkept := hconserves.stays_mutable hstart hpinned (hall hmem hobject hback h rfl)
        rw [hone] at hkept
        exact hkept
      have hothers' := (conserves_prepare hexec (s := withHeld (withoutHeld t₁) [u]) params rest)
      have hle' : t₁.arena.nextAnchor ≤ t₂.arena.nextAnchor := (hothers'.ok hothers).2.nextAnchor_le
      obtain ⟨hall, hapart⟩ := ih hmiddle hfit' hothers
      refine ⟨.cons ?_ ?_, .cons ?_ hapart⟩
      · refine hpassed.mono (Nat.le_refl _) hle' fun k hk hmut => ?_
        have hkept := hothers'.stays_mutable hmiddle (mem_pinned_withHeld hk) hmut
        rw [hothers] at hkept
        exact hkept
      · exact hall.imp fun bound w hw => hw.mono hle (Nat.le_refl _) fun k _ hk => hk
      · -- The anchor of a later copy is taken after the one of an earlier copy.
        rintro ⟨⟨q, w⟩, u'⟩ hmem htakes htakes' k g rfl rfl
        obtain ⟨_, -, hcopy⟩ := hpassed.newCopy htakes
        obtain ⟨_, -, hcopy'⟩ := ((List.forall₂_iff_zip.mp hall).2 hmem).newCopy htakes'
        intro heq
        have hlater : t₁.arena.nextAnchor ≤ g.proxy.anchor.serial := hcopy'.nextAnchor_le
        rw [← heq] at hlater
        exact Nat.lt_irrefl _ (hcopy.lt_nextAnchor.trans_le hlater)

/-! ## Arguments that are copied -/

/-- An object that has its native state is passed without any change to what is there, and nothing else has a
handle of a copy. -/
theorem extends_of_prepareOne (hs : s.Arises [])
    (hready : ∀ h, v = .object h → ∃ i, s.arena.get? h.target = some i ∧ i.isMaterialized = true)
    (hrun : (prepareOne exec p v).outcome s = (.ok u, t)) :
    s.Extends t ∧ (TakesCopy p → ∀ k, u = .object k → t.Owned [] k) := by
  unfold prepareOne at hrun
  split at hrun
  · rename_i h htype
    -- Only an object that is passed by value is copied; it has its state, so no code runs for that.
    cases hpassing : p.passing with
    | value =>
        rw [hpassing] at hrun
        obtain ⟨k, t', hdup, hpure⟩ := exists_of_outcome_bind hrun
        obtain ⟨rfl, rfl⟩ := eq_of_outcome_pure hpure
        obtain ⟨i, hi, hmat⟩ := hready h rfl
        obtain ⟨hextends, howned⟩ := Lifetime.extends_of_dup hs hi hmat hdup
        refine ⟨hextends, ?_⟩
        rintro - g hg
        rwa [← Value.object.inj hg]
    | _ =>
        rw [hpassing] at hrun
        obtain ⟨-, rfl⟩ := eq_of_outcome_pure hrun
        refine ⟨State.Extends.refl s, ?_⟩
        rintro ⟨-, hvalue⟩
        rw [hpassing] at hvalue
        cases hvalue
  · rename_i hnot
    obtain ⟨hu, rfl⟩ := eq_of_outcome_pure hrun
    refine ⟨State.Extends.refl s, ?_⟩
    rintro ⟨hobject, -⟩ k hk
    obtain ⟨cls, htype⟩ := Ty.eq_object_of_isObject hobject
    exact (hnot cls k htype (hu.trans hk)).elim

/-- Objects that have their native states are passed by copies alone. -/
theorem extends_of_prepare (hexec : ConservesAll exec) {params : List Param} {values us : List Value}
    (hs : s.Arises values) (hlength : params.length = values.length)
    (hready : ∀ h, .object h ∈ values →
      ∃ i, s.arena.get? h.target = some i ∧ i.isMaterialized = true)
    (hrun : (prepare exec params values).outcome s = (.ok us, t)) :
    s.Extends t ∧ List.Forall₂ (fun p u => TakesCopy p → ∀ k, u = .object k → t.Owned [] k) params us := by
  induction params generalizing values s us t with
  | nil =>
      obtain rfl := List.length_eq_zero_iff.mp hlength.symm
      obtain ⟨rfl, rfl⟩ := eq_of_outcome_pure hrun
      exact ⟨State.Extends.refl s, .nil⟩
  | cons p params ih =>
      obtain ⟨v, rest, rfl⟩ := List.exists_cons_of_length_eq_add_one hlength.symm
      obtain ⟨u, us', t₁, t₂, rfl, rfl, hone, hothers, hstart, hmiddle, -⟩ :=
        exists_of_outcome_prepare_cons hexec hs hrun
      obtain ⟨hextends, howned⟩ := extends_of_prepareOne hstart
        (fun h hh => hready h (by rw [hh]; exact List.mem_cons_self)) hone
      -- The first argument only added to the state, so the others are as ready as before.
      have hfirst := extends_withoutHeld hextends
      obtain ⟨hextends', howned'⟩ := ih hmiddle (Nat.succ.inj hlength) (fun h hh => by
        obtain ⟨i, hi, hmat⟩ := hready h (List.mem_cons_of_mem _ hh)
        exact ⟨i, hfirst.get?_eq _ i hi, hmat⟩) hothers
      have hrest := extends_withoutHeld hextends'
      refine ⟨hfirst.trans hrest, .cons ?_ (howned'.imp ?_)⟩
      · exact fun htakes k hk => (owned_withoutHeld (howned htakes k hk)).of_extends hrest
      · exact fun q w hw htakes k hk => owned_withoutHeld (hw htakes k hk)

/-! ## Arguments of an override -/

/-- What an override receives for an argument: the argument itself, or a box with it. -/
inductive Sent (t : State) : Param → Value → Value → Prop
  | itself {p : Param} {u : Value} (houtput : isOutput p = false) : Sent t p u u
  | box {p : Param} {u : Value} {b : BoxId} (houtput : isOutput p = true) (hb : b < t.cells.size)
      (hcontent : t.cells.content b = u) : Sent t p u (.box b)

/-- An override receives an object as a native body does. -/
theorem isOutput_eq_false_of_isObject (hobject : p.type.isObject = true) : isOutput p = false := by
  simp [isOutput, hobject]

theorem outcome_newBox (content : Value) :
    (newBox content).outcome s = (.ok (.box s.cells.size), { s with cells := s.cells.push content }) := by
  rw [newBox, outcome_get_bind]
  rfl

/-- The arguments that an override may change are put into new boxes, and nothing else happens. -/
theorem exists_outcome_outward (params : List Param) (us : List Value) (s : State) :
    ∃ sent t, (outward params us).outcome s = (.ok sent, t) ∧
      List.Forall₂ (fun passed x => Sent t passed.1 passed.2 x) (params.zip us) sent ∧
      s.cells.size ≤ t.cells.size ∧
      (∀ b < s.cells.size, t.cells.content b = s.cells.content b) ∧ t = { s with cells := t.cells } := by
  induction params generalizing us s with
  | nil => exact ⟨[], s, rfl, .nil, Nat.le_refl _, fun _ _ => rfl, rfl⟩
  | cons p params ih =>
      cases us with
      | nil => exact ⟨[], s, rfl, .nil, Nat.le_refl _, fun _ _ => rfl, rfl⟩
      | cons u rest =>
          rw [outward]
          split
          · rename_i houtput
            obtain ⟨others, t, hrest, hothers, hsize, hcontents, hsame⟩ :=
              ih rest { s with cells := s.cells.push u }
            rw [Array.size_push] at hsize hcontents
            -- The box of this argument is the next one, below all those of the later arguments.
            refine ⟨.box s.cells.size :: others, t, ?_, .cons (.box houtput hsize ?_) hothers,
              Nat.le_of_succ_le hsize, ?_, hsame⟩
            · rw [outcome_bind_of_ok (outcome_newBox u)]
              exact outcome_bind_of_ok hrest _
            · rw [hcontents _ (Nat.lt_succ_self _), Cells.content_push, if_pos rfl]
            · intro b hb
              rw [hcontents b (Nat.lt_succ_of_lt hb), Cells.content_push, if_neg hb.ne]
          · rename_i houtput
            obtain ⟨others, t, hrest, hothers, hsize, hcontents, hsame⟩ := ih rest s
            refine ⟨u :: others, t, ?_, .cons (.itself (Bool.eq_false_iff.mpr houtput)) hothers, hsize,
              hcontents, hsame⟩
            exact outcome_bind_of_ok hrest _

/-- What an override left of an argument is in the box that it received. -/
theorem getElem?_inward {cells : Cells} {sent us : List Value} {i : Nat} {b : BoxId} (hsent : sent[i]? = some (.box b))
    (hu : us[i]? = some u) : (inward cells sent us)[i]? = some (cells.content b) := by
  induction sent generalizing us i with
  | nil => cases hsent
  | cons first sent ih =>
      cases us with
      | nil => cases hu
      | cons w us =>
          cases i with
          | zero =>
              obtain rfl := Option.some.inj hsent
              rfl
          | succ i => cases first <;> exact ih hsent hu

end ObjectBridge.Delivery
