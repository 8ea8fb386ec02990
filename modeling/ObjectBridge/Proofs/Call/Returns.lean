import ObjectBridge.Proofs.Call.Phases
import ObjectBridge.Proofs.Call.Results

/-!
# Objects returned by value

What a call returns by value belongs to the caller alone: the caller gets handles of different objects, and
nothing else has a handle of one of these.  That holds of what a body leaves without boxes.  A box is looked
through by the conversion, which neither copies an object nor looks for its other handles.

* `Delivery.ByValue` — what came back by value.
* `Delivery.byValue_of_give` — a result that is delivered.
* `Stream.byValue_of_collect` — the items of an iteration.
-/

namespace ObjectBridge

open Run

namespace Delivery

/-- The value `v`, which a body left in the state `s`, came back by value as `u` in the state `t`, with some
values in the hands of the caller. -/
structure ByValue (hand : List Value) (s t : State) (v u : Value) : Prop where
  mutable : ∀ k ∈ u.handles, t.isConst k = false
  /-- Several handles are handles of different objects, also if the body left one handle several times. -/
  distinct : u.handles.Pairwise fun k g => k.proxy.anchor ≠ g.proxy.anchor
  /-- The objects are managed and have no other handles.  If there are several, that is so if none of them was
  waiting for its deferred construction, which runs a body. -/
  owned : (∃ h, v = .object h) ∨ Ready s v → ∀ k ∈ u.handles, t.Owned hand k ∧ t.Sole hand k
  apart : Ready s v →
    u.handles.Pairwise fun k g => ¬(t.custody (u :: hand)).SameObject k.proxy g.proxy
  /-- A copy has the native state of the original. -/
  native_eq : ∀ h, v = .object h → ∃ k i j, u = .object k ∧ t.arena.get? h.target = some i ∧
    t.arena.get? k.target = some j ∧ j.native = i.native
  /-- No object that was there is changed. -/
  get?_eq : Ready s v → ∀ r i, s.arena.get? r = some i → t.arena.get? r = some i
  /-- An object that nothing else has a handle of is handed over. -/
  handedOver : ∀ h, v = .object h → s.Owned hand h → u = v ∧ t = s

variable {exec : Exec} {s t : State} {h k : Handle} {u v : Value} {hand : List Value}

/-! ## One object -/

theorem isFresh_of_owned {i : Instance} (hs : s.Arises (.object h :: hand)) (howned : s.Owned hand h)
    (hi : s.arena.get? h.target = some i) : isFresh s i h = true := by
  obtain ⟨j, hj, hkeep⟩ := howned.managed
  obtain rfl := Option.some.inj (hj.symm.trans hi)
  refine isFresh_eq_true_iff.mpr ⟨hkeep, howned.mutable, ?_⟩
  rw [Arena.anchorHeld, List.any_eq_false]
  intro g hg heq
  have hmore : (s.custody hand).proxies ⊆ (s.custody (.object h :: hand)).proxies :=
    State.proxies_subset rfl fun v hv => List.mem_cons_of_mem _ hv
  have hgp : g.proxy ∈ (s.custody hand).proxies := State.mem_proxies_of_mem_handles hg
  have hhp : h.proxy ∈ (s.custody (.object h :: hand)).proxies :=
    State.mem_proxies_of_mem_hand List.mem_cons_self (by simp)
  -- The serial of an anchor stands for this anchor alone.
  exact howned.anchor_ne _ hgp (hs.identified.anchor_inj _ (Custody.mem_anchors_of_mem (hmore hgp)) _
    (Custody.mem_anchors_of_mem hhp) (beq_iff_eq.mp heq))

/-- An object that nothing else has a handle of is handed over. -/
theorem eq_of_outcome_giveObject {cls method : String} (hs : s.Arises [.object h])
    (howned : s.Owned [] h)
    (hrun : (giveObject exec cls .value h method).outcome s = (.ok u, t)) : u = .object h ∧ t = s := by
  obtain ⟨i, hi, ⟨-, rfl, rfl⟩ | ⟨hshared, -⟩⟩ := exists_of_outcome_giveObject hrun
  · exact ⟨rfl, rfl⟩
  · rw [isFresh_of_owned hs howned hi] at hshared
    cases hshared

/-- An object that comes back by value has the native state that the body's object has. -/
theorem native_eq_of_giveObject {cls method : String} (hexec : ConservesAll exec)
    (hs : s.Arises [.object h])
    (hrun : (giveObject exec cls .value h method).outcome s = (.ok u, t)) :
    ∃ k i j, u = .object k ∧ t.arena.get? h.target = some i ∧ t.arena.get? k.target = some j ∧
      j.native = i.native := by
  obtain ⟨i, hi, ⟨-, rfl, rfl⟩ | ⟨-, k, t', hdup, rfl, rfl⟩⟩ := exists_of_outcome_giveObject hrun
  · exact ⟨h, i, i, rfl, hi, hi, rfl⟩
  · obtain ⟨w, hmat, hcopied⟩ := Lifetime.exists_of_outcome_dup hdup
    have hstart : (withHeld s [.object h]).Arises [] := arises_withHeld hs
    have hw : w.Arises [] := (Lifetime.conserves_materialize hexec h "dup").arises hstart hmat
    obtain ⟨i, j, hi, hj, hnative, -⟩ := hcopied.native_eq
    exact ⟨k, i, j, rfl, (hcopied.extends hw.balanced).get?_eq _ i hi, hj, hnative⟩

/-! ## Results -/

/-- When the values that were held are in the hands of the caller, its handle is still the only one. -/
theorem owned_of_held {s' : State} (hheld : t.held = hand :: s'.held) (howned : t.Owned [] k) :
    (withoutHeld t).Owned hand k := by
  refine howned.of_subset rfl rfl ?_
  intro v hv
  simp only [State.mem_inUse_iff, State.mem_roots_iff, withoutHeld, hheld, List.tail_cons,
    List.flatten_cons, List.mem_append] at hv ⊢
  tauto

/-- Objects that come back apart from each other and as the only handles, while the caller has other
values. -/
theorem byValue_of_apart (hlevel : (withHeld s hand).Level t) (hend : t.Arises [u])
    (happart : Apart (withHeld s hand) t u)
    (howned : (∃ h, v = .object h) ∨ Ready s v → ∀ k ∈ u.handles, t.Owned [] k)
    (hextends : Ready s v → (withHeld s hand).Extends t)
    (hnative : ∀ h, v = .object h → ∃ k i j, u = .object k ∧ t.arena.get? h.target = some i ∧
      t.arena.get? k.target = some j ∧ j.native = i.native)
    (hhanded : ∀ h, v = .object h → (withHeld s hand).Owned [] h → u = v ∧ t = withHeld s hand) :
    ByValue hand s (withoutHeld t) v u := by
  have hheld : t.held = hand :: s.held := hlevel.held_eq
  have hend' : (withoutHeld t).Arises (u :: hand) :=
    (arises_withoutHeld hlevel hend).of_covers fun w hw =>
      State.covers_of_mem_hand (by simpa [or_comm] using hw)
  have hreleased (hcond : (∃ h, v = .object h) ∨ Ready s v) (k : Handle) (hk : k ∈ u.handles) :
      (withoutHeld t).Owned hand k :=
    owned_of_held hheld (howned hcond k hk)
  have hmem {k : Handle} (hk : k ∈ u.handles) :
      k.proxy ∈ ((withoutHeld t).custody (u :: hand)).proxies :=
    State.mem_proxies_of_mem_hand List.mem_cons_self hk
  refine ⟨happart.mutable, happart.pairwise, ?_, ?_, hnative, fun h => (hextends h).get?_eq, ?_⟩
  · intro hcond k hk
    obtain ⟨i, hi, -⟩ := (hreleased hcond k hk).managed
    refine ⟨hreleased hcond k hk, State.sole_of_anchor_ne (hend'.of_covers ?_) hi
      (hreleased hcond k hk).anchor_ne⟩
    intro w hw
    rcases List.mem_cons.mp hw with rfl | hw
    · exact Cells.covers_object_iff.mpr (hmem hk)
    · exact State.covers_of_mem_hand (List.mem_cons_of_mem _ hw)
  · intro hready
    refine List.Pairwise.imp_of_mem ?_ happart.pairwise
    intro k g hk hg hne
    obtain ⟨i, hi, -⟩ := (hreleased (Or.inr hready) g hg).managed
    exact State.not_sameObject hend' (hmem hk) (hmem hg) hi hne
  · intro h hv hfree
    have hfree' : (withHeld s hand).Owned [] h := by
      refine hfree.of_subset rfl rfl ?_
      intro w hw
      simp only [State.mem_inUse_iff, State.mem_roots_iff, withHeld, List.flatten_cons,
        List.mem_append] at hw ⊢
      tauto
    obtain ⟨rfl, rfl⟩ := hhanded h hv hfree'
    exact ⟨rfl, rfl⟩

/-- A result without boxes that is delivered by value. -/
theorem byValue_of_give (hexec : ConservesAll exec) {owner method : String} {type : Ty}
    (htype : type.HoldsObjects) (hs : (withHeld s hand).Arises [v]) (hbox : v.boxes = [])
    (hrun : (giveBack exec (some (type, .value)) owner method v).outcome (withHeld s hand) =
      (.ok u, t)) : ByValue hand s (withoutHeld t) v u := by
  have hgive : (give exec owner method type .value v).outcome (withHeld s hand) = (.ok u, t) := hrun
  have hconserves := conserves_give hexec (s := withHeld s hand) owner method type .value v
  have hdelivered (hready : Ready s v) : Delivered (withHeld s hand) t u :=
    give_delivered hexec htype hs hbox hready hgive
  have hobject (h : Handle) (hv : v = .object h) :
      ∃ cls, (giveObject exec cls .value h method).outcome (withHeld s hand) = (.ok u, t) := by
    subst hv
    cases type with
    | object cls =>
        obtain ⟨h', heq, hone⟩ := outcome_give_object_value hbox hgive
        obtain rfl := Value.object.inj heq
        exact ⟨cls, hone⟩
    | list item =>
        obtain ⟨vs, us, heq, -⟩ := outcome_give_list hbox hgive
        cases heq
    | _ => exact htype.elim
  refine byValue_of_apart (hconserves.ok hgive).1 (hconserves.arises hs hgive)
    (give_apart hexec htype hs hbox hgive) ?_ (fun hready => (hdelivered hready).extends) ?_ ?_
  · rintro (⟨h, rfl⟩ | hready) k hk
    · obtain ⟨cls, hone⟩ := hobject h rfl
      obtain ⟨g, rfl, howned⟩ := owned_of_outcome_giveObject hexec hs hone
      obtain rfl := List.mem_singleton.mp hk
      exact howned
    · exact (hdelivered hready).owned k hk
  · rintro h rfl
    obtain ⟨cls, hone⟩ := hobject h rfl
    exact native_eq_of_giveObject hexec hs hone
  · rintro h rfl hfree
    obtain ⟨cls, hone⟩ := hobject h rfl
    exact eq_of_outcome_giveObject hs hfree hone

end Delivery

namespace Stream

variable {exec : Exec} {s t : State} {owner method : String} {hand us : List Value}

/-- To collect the items of a list means to deliver them one after the other. -/
theorem outcome_mapHeld_of_collect {result : Result} {items : List (Value × Option Error)}
    (hrun : (collect exec result owner method (.items items)).outcome s = (.ok us, t)) :
    (mapHeld (Delivery.giveBack exec result owner method) (items.map Prod.fst)).outcome s = (.ok us, t) := by
  induction items generalizing s us t with
  | nil =>
      rw [collect_of_none rfl] at hrun
      exact hrun
  | cons item rest ih =>
      obtain ⟨v, failure⟩ := item
      rw [collect_of_some rfl] at hrun
      obtain ⟨u, t₁, hfirst, hafter⟩ := exists_of_outcome_bind hrun
      obtain ⟨us', t₂, hhold, hpure⟩ := exists_of_outcome_bind hafter
      obtain ⟨t₁', hitem, rfl⟩ := exists_of_outcome_holding hfirst
      obtain ⟨v', t', hok, hgive⟩ := exists_of_outcome_bind hitem
      obtain ⟨hv, rfl⟩ := eq_of_outcome_ofExcept hok
      obtain ⟨t₂', hrest, rfl⟩ := exists_of_outcome_holding hhold
      -- The stream did not fail at this item, so it handed the item on.
      have hsame : v' = v := by
        cases failure with
        | some e => cases hv
        | none => exact (Except.ok.inj hv).symm
      subst hsame
      have hheld : (holding (rest.map Prod.fst) (Delivery.giveBack exec result owner method v')).outcome s =
          (.ok u, withoutHeld t₁') := outcome_holding_of_ok hgive
      rw [List.map_cons, mapHeld, outcome_bind, hheld]
      simp only
      rw [outcome_bind, outcome_holding_of_ok (ih hrest)]
      exact hpure

/-- A stream that counts gives numbers, which are no objects. -/
theorem eq_nil_of_collect_counting {type : Ty} (htype : type.HoldsObjects) {next : Int} {left : Nat}
    (hrun : (collect exec (some (type, .value)) owner method (.counting next left)).outcome s =
      (.ok us, t)) : us = [] ∧ t = s := by
  cases left with
  | zero =>
      rw [collect_of_none rfl] at hrun
      obtain ⟨hus, ht⟩ := eq_of_outcome_pure hrun
      exact ⟨hus.symm, ht.symm⟩
  | succ left =>
      rw [collect_of_some rfl] at hrun
      obtain ⟨u, t₁, hfirst, -⟩ := exists_of_outcome_bind hrun
      obtain ⟨t₁', hitem, -⟩ := exists_of_outcome_holding hfirst
      obtain ⟨v, t', hok, hgive⟩ := exists_of_outcome_bind hitem
      obtain ⟨hv, -⟩ := eq_of_outcome_ofExcept hok
      obtain rfl := Except.ok.inj hv
      have hbox : (Value.int (Int64.ofInt next)).boxes = [] := rfl
      rw [Delivery.giveBack] at hgive
      cases type with
      | object cls =>
          obtain ⟨h, heq, -⟩ := Delivery.outcome_give_object_value hbox hgive
          cases heq
      | list item =>
          obtain ⟨vs, us, heq, -⟩ := Delivery.outcome_give_list hbox hgive
          cases heq
      | _ => exact htype.elim

/-- The items of an iteration that are collected by value, one after the other. -/
theorem byValue_of_collect (hexec : ConservesAll exec) {type : Ty} (htype : type.HoldsObjects)
    {stream : Stream} (hs : (withHeld s hand).Arises stream.values)
    (hbox : ∀ v ∈ stream.values, v.boxes = [])
    (hrun : (collect exec (some (type, .value)) owner method stream).outcome (withHeld s hand) =
      (.ok us, t)) : Delivery.ByValue hand s (withoutHeld t) (.list stream.values) (.list us) := by
  have hconserves : Conserves (collect exec (some (type, .value)) owner method stream)
      (withHeld s hand) stream.values fun us => us := conserves_collect hexec stream
  have hend : t.Arises [.list us] := (hconserves.arises hs hrun).of_covers fun w hw => by
    obtain rfl := List.mem_singleton.mp hw
    exact Cells.covers_list_iff.mpr fun v hv => State.covers_of_mem_hand hv
  have hgive (v : Value) (s : State) :
      Conserves (Delivery.giveBack exec (some (type, .value)) owner method v) s [v] fun u => [u] :=
    Delivery.conserves_giveBack hexec _ owner method v
  have happart : Delivery.Apart (withHeld s hand) t (.list us) ∧
      (Delivery.Ready s (.list stream.values) →
        Delivery.Delivered (withHeld s hand) t (.list us)) := by
    cases stream with
    | counting next left =>
        -- Numbers are no objects, so a stream that counts has given none.
        obtain ⟨rfl, rfl⟩ := eq_nil_of_collect_counting htype hrun
        refine ⟨⟨?_, List.Pairwise.nil, ?_⟩, fun _ => ⟨State.Extends.refl _, ?_⟩⟩ <;> rintro k ⟨⟩
    | items items =>
        have hitems := outcome_mapHeld_of_collect hrun
        refine ⟨Delivery.mapHeld_apart hgive ?_ hs hitems, fun hready =>
          Delivery.mapHeld_delivered hgive ?_ hs hready hitems⟩
        · exact fun v hv s u t hs hrun => Delivery.give_apart hexec htype hs (hbox v hv) hrun
        · exact fun v hv s u t hs hready hrun =>
            Delivery.give_delivered hexec htype hs (hbox v hv) hready hrun
  refine Delivery.byValue_of_apart (hconserves.ok hrun).1 hend happart.1 ?_
    (fun hready => (happart.2 hready).extends) ?_ ?_
  · rintro (⟨h, hlist⟩ | hready) k hk
    · cases hlist
    · exact (happart.2 hready).owned k hk
  · intro h hlist
    cases hlist
  · intro h hlist
    cases hlist

end Stream

end ObjectBridge
