import ObjectBridge.Proofs.Arena.Labels
import ObjectBridge.Proofs.Session.ByValue
import ObjectBridge.Proofs.Session.Overriding

/-!
# Proxies tell objects apart

The handles of an object with identity share one proxy, however they came up, and the handles of any object share one
anchor.  That is told by handles alone: handles with one proxy are handles of one object, and tell its class.

* `State.handlesWith` — the handles that exist while a run has values in its hands.
* `State.Identifies` — what the handles that exist have in common.
* `State.Issues` — what another handle for an object has in common with them.
* `Session.proxies_identify` — both hold at every moment of a session.
-/

namespace ObjectBridge

namespace State

/-- The handles in use, and those that the values in the hands of a run mention. -/
def handlesWith (s : State) (hand : List Value) : List Handle :=
  s.cells.handlesInUse (s.inUse hand)

/-- The handles that exist tell the objects apart, and the objects that are there show in them. -/
structure Identifies (s : State) (hand : List Value) : Prop where
  /-- The handles of an object with identity share their proxy. -/
  proxy : ∀ h ∈ s.handlesWith hand, ∀ k ∈ s.handlesWith hand, ∀ i, s.arena.get? h.target = some i →
    i.kind = .object → h.sameObject k = true → h.sameProxy k = true ∧ h.proxy = k.proxy
  /-- The handles of any object share their anchor. -/
  anchor : ∀ h ∈ s.handlesWith hand, ∀ k ∈ s.handlesWith hand, ∀ i, s.arena.get? h.target = some i →
    h.sameObject k = true → h.proxy.anchor = k.proxy.anchor
  sameObject : ∀ h ∈ s.handlesWith hand, ∀ k ∈ s.handlesWith hand, h.sameProxy k = true → h.sameObject k = true
  /-- The handles of an object tell its class and the name of it. -/
  cls : ∀ h ∈ s.handlesWith hand, ∀ k ∈ s.handlesWith hand, ∀ i, s.arena.get? h.target = some i →
    h.sameObject k = true → h.cls = k.cls ∧ h.className = k.className

/-- Another handle is issued for an object, while some values are in the hands of a run. -/
structure Issues (s : State) (hand : List Value) (r : Reference) (g : Handle) (i : Instance) : Prop where
  live : s.arena.get? r = some i
  target : g.target = r
  label : g.cls = i.cls ∧ g.className = i.className
  /-- An object with identity shows the proxy that its handles have. -/
  proxy : i.kind = .object → ∀ k ∈ s.handlesWith hand, k.target = r → g.sameProxy k = true
  /-- An object without identity shows a proxy that no handle has had so far. -/
  fresh : i.kind = .value → g.proxy.serial = s.arena.nextProxy ∧ ∀ k ∈ s.handlesWith hand, g.sameProxy k = false
  anchor : ∀ k ∈ s.handlesWith hand, k.target = r → g.proxy.anchor = k.proxy.anchor

variable {s t : State} {hand : List Value} {h k g : Handle} {r : Reference} {i : Instance}

/-! ## The handles that exist -/

theorem mem_proxies_of_mem_handlesWith (hh : h ∈ s.handlesWith hand) : h.proxy ∈ (s.custody hand).proxies :=
  ⟨h, hh, rfl⟩

theorem mem_handlesWith_of_mem_hand (hh : .object h ∈ hand) : h ∈ s.handlesWith hand :=
  Cells.mem_handlesInUse_iff.mpr (Or.inl ⟨_, mem_inUse_of_mem_hand hh, by simp⟩)

/-- With one handle in hand, there are no others than this one and those in use. -/
theorem exists_held_of_mem_handlesWith (hk : k ∈ s.handlesWith [.object h]) :
    ∃ g ∈ [h] ++ s.handles, g.proxy = k.proxy := by
  rcases Cells.reaches_object_cons (mem_proxies_of_mem_handlesWith hk) with heq | hold
  · exact ⟨h, List.mem_cons_self, heq.symm⟩
  · obtain ⟨g, hg, heq⟩ := Lifetime.exists_mem_handles hold
    exact ⟨g, List.mem_cons_of_mem _ hg, heq⟩

theorem Arises.labelled (hs : s.Arises hand) : (s.custody hand).Labelled :=
  Custody.Path.labelled hs Custody.labelled_empty Custody.identified_empty

section Recorded

variable (hs : s.Arises hand) (hfew : ∀ slot, (s.arena.slotAt slot).removals < 2 ^ 32)
  (hh : h ∈ s.handlesWith hand) (hi : s.arena.get? h.target = some i)

include hs hfew hh hi

/-- A handle of an object has the anchor that the object has recorded. -/
theorem anchor_eq_recorded : h.proxy.anchor = i.anchor :=
  (hs.sound hfew).eq_recorded _ (Custody.mem_anchors_of_mem (mem_proxies_of_mem_handlesWith hh)) i hi

/-- A handle of an object with identity has the proxy that the object has recorded. -/
theorem proxy_eq_recorded (hkind : i.kind = .object) : h.proxy = i.proxy :=
  hs.identified.eq_recorded _ i hi hkind _ (mem_proxies_of_mem_handlesWith hh) (anchor_eq_recorded hs hfew hh hi)

/-- A handle of an object tells the class of the object. -/
theorem label_eq_recorded : h.proxy.label = i.label :=
  hs.labelled.held _ (mem_proxies_of_mem_handlesWith hh) _ i hi (anchor_eq_recorded hs hfew hh hi).symm

end Recorded

theorem Arises.identifies (hs : s.Arises hand) (hfew : ∀ slot, (s.arena.slotAt slot).removals < 2 ^ 32) :
    s.Identifies hand where
  proxy := by
    intro h hh k hk i hi hkind hsame
    have hsame' : h.target = k.target := eq_of_beq hsame
    have heq : h.proxy = k.proxy := by
      rw [proxy_eq_recorded hs hfew hh hi hkind, proxy_eq_recorded hs hfew hk (hsame' ▸ hi) hkind]
    exact ⟨by rw [Handle.sameProxy, heq, beq_self_eq_true], heq⟩
  anchor := by
    intro h hh k hk i hi hsame
    have hsame' : h.target = k.target := eq_of_beq hsame
    rw [anchor_eq_recorded hs hfew hh hi, anchor_eq_recorded hs hfew hk (hsame' ▸ hi)]
  sameObject := by
    intro h hh k hk hsame
    have heq : h.proxy = k.proxy := hs.identified.serial_inj _ (Or.inr (Or.inl (mem_proxies_of_mem_handlesWith hh))) _
      (Or.inr (Or.inl (mem_proxies_of_mem_handlesWith hk))) (eq_of_beq hsame)
    rw [Handle.sameObject, Handle.target, heq]
    exact beq_self_eq_true _
  cls := by
    intro h hh k hk i hi hsame
    have hsame' : h.target = k.target := eq_of_beq hsame
    have heq : h.proxy.label = k.proxy.label := by
      rw [label_eq_recorded hs hfew hh hi, label_eq_recorded hs hfew hk (hsame' ▸ hi)]
    exact Prod.mk.inj heq

/-! ## Another handle -/

/-- A handle that the arena issues, in view of all handles that exist. -/
theorem Arises.issues (hs : s.Arises hand) (hfew : ∀ slot, (s.arena.slotAt slot).removals < 2 ^ 32)
    {held : List Handle} {c : Constness} {a : Arena} (hall : ∀ k ∈ s.handlesWith hand, ∃ g ∈ held, g.proxy = k.proxy)
    (hissue : s.arena.issue held r c = some (g, a)) : ∃ i, s.Issues hand r g i := by
  have htarget := hs.anchored.target_of_issue hissue
  obtain ⟨i, hi, ⟨hkind, -, hproxy, -⟩ | ⟨hnone, hfresh⟩⟩ := Arena.issue_cases hissue
  · -- The proxy is issued again.
    have hrecorded (k : Handle) (hk : k ∈ s.handlesWith hand) (hkr : k.target = r) : g.proxy = k.proxy :=
      hproxy.trans (proxy_eq_recorded hs hfew hk (hkr.symm ▸ hi) hkind).symm
    refine ⟨i, hi, htarget, ?_, ?_, ?_, fun k hk hkr => congrArg Proxy.anchor (hrecorded k hk hkr)⟩
    · have hlabel := hs.labelled.recorded r i hi
      rw [← hproxy] at hlabel
      exact Prod.mk.inj hlabel
    · intro _ k hk hkr
      rw [Handle.sameProxy, hrecorded k hk hkr, beq_self_eq_true]
    · intro hvalue
      rw [hkind] at hvalue
      cases hvalue
  · -- The proxy is new, so the object has no identity or no handle.
    obtain ⟨anchor, next, serials, hanchor, rfl, -⟩ := Arena.issueFresh_cases hfresh
    refine ⟨i, hi, htarget, ⟨rfl, rfl⟩, ?_, ?_, ?_⟩
    · intro hkind k hk hkr
      refine absurd ⟨hkind, ?_⟩ hnone
      obtain ⟨x, hx, heq⟩ := hall k hk
      rw [Arena.proxyHeld, List.any_eq_true]
      refine ⟨x, hx, ?_⟩
      rw [heq, proxy_eq_recorded hs hfew hk (hkr.symm ▸ hi) hkind, beq_self_eq_true]
    · refine fun _ => ⟨rfl, fun k hk => ?_⟩
      exact beq_eq_false_iff_ne.mpr (hs.serial_lt (mem_proxies_of_mem_handlesWith hk)).ne'
    · intro k hk hkr
      have hrecorded := anchor_eq_recorded hs hfew hk (hkr.symm ▸ hi)
      rcases hanchor with ⟨-, rfl, -⟩ | ⟨hfree, -, -⟩
      · exact hrecorded.symm
      · -- Some handle has the anchor, so it is in use.
        obtain ⟨x, hx, heq⟩ := hall k hk
        have hheld : Arena.anchorHeld held i.anchor = true := by
          rw [Arena.anchorHeld, List.any_eq_true]
          exact ⟨x, hx, by rw [heq, hrecorded, beq_self_eq_true]⟩
        rw [hheld] at hfree
        cases hfree

end State

/-! ## Operations that issue handles -/

namespace Lifetime

open Run

variable {s t : State} {g : Handle}

theorem exists_of_outcome_upgrade {r : Reference} (hrun : (upgrade r).outcome s = (.ok (some g), t)) :
    ∃ a, s.arena.issue s.handles r .keep = some (g, a) := by
  rw [upgrade, issue?, outcome_get_bind, List.nil_append] at hrun
  cases hissue : s.arena.issue s.handles r .keep with
  | none =>
      rw [hissue] at hrun
      cases (eq_of_outcome_pure hrun).1
  | some issued =>
      rw [hissue] at hrun
      obtain ⟨_, s₁, -, hpure⟩ := exists_of_outcome_bind hrun
      obtain rfl := Option.some.inj (eq_of_outcome_pure hpure).1
      exact ⟨_, rfl⟩

theorem exists_of_outcome_occupant {cls : ClassId} {name : String}
    (hrun : (occupant cls name).outcome s = (.ok (some g), t)) :
    ∃ r a, (s.seat cls name).occupant = some r ∧ s.arena.issue s.handles r .nonConst = some (g, a) := by
  rw [occupant, outcome_get_bind] at hrun
  cases hcurrent : (s.seat cls name).current s.arena s.handles with
  | none =>
      rw [hcurrent] at hrun
      cases (eq_of_outcome_pure hrun).1
  | some issued =>
      rw [hcurrent] at hrun
      obtain ⟨_, s₁, -, hpure⟩ := exists_of_outcome_bind hrun
      obtain rfl := Option.some.inj (eq_of_outcome_pure hpure).1
      obtain ⟨r, hseat, hissue⟩ := Option.bind_eq_some_iff.mp hcurrent
      exact ⟨r, _, hseat, hissue⟩

end Lifetime

namespace Delivery

variable {exec : Exec} {s t : State} {h : Handle} {u : Value}

/-- A handle that is returned as it is, with its proxy made const, is one of an object with identity. -/
theorem issues_of_isSoleAlias (hs : s.Arises [.object h]) (hequipped : s.Equipped)
    (hfew : ∀ slot, (s.arena.slotAt slot).removals < 2 ^ 32) {i : Instance} (hi : s.arena.get? h.target = some i)
    (hsole : isSoleAlias s h = true) : s.Issues [.object h] h.target h i := by
  have hmem : h ∈ s.handlesWith [.object h] := State.mem_handlesWith_of_mem_hand List.mem_cons_self
  have hlabel := Prod.mk.inj (State.label_eq_recorded hs hfew hmem hi)
  have hsame (k : Handle) (hkt : k.target = h.target) : h.sameObject k = true := by
    rw [Handle.sameObject, hkt, beq_self_eq_true]
  -- A sole alias is of a class whose objects have identity, and the record has the kind of its class.
  have hkind : i.kind = .object := by
    obtain ⟨c, hc, -, hkind, -⟩ := hequipped.exists_class hi
    have hclass := (Bool.and_eq_true_iff.mp hsole).1
    rw [Handle.cls, hlabel.1, hc, Option.any_some, decide_eq_true_iff] at hclass
    rw [← hkind, hclass]
  refine ⟨hi, rfl, hlabel, ?_, ?_, ?_⟩
  · exact fun _ k hk hkt => ((hs.identifies hfew).proxy h hmem k hk i hi hkind (hsame k hkt)).1
  · intro hvalue
    rw [hkind] at hvalue
    cases hvalue
  · exact fun k hk hkt => (hs.identifies hfew).anchor h hmem k hk i hi (hsame k hkt)

/-- An object that is returned by reference or by pointer, const or not. -/
theorem issues_of_giveObject (hs : s.Arises [.object h]) (hequipped : s.Equipped)
    (hfew : ∀ slot, (s.arena.slotAt slot).removals < 2 ^ 32) {cls method : String} {passing : Passing}
    (hpassing : passing ≠ .value) (hrun : (giveObject exec cls passing h method).outcome s = (.ok u, t)) :
    ∃ g i, u = .object g ∧ s.Issues [.object h] h.target g i := by
  obtain ⟨i, hi, hcases⟩ := exists_of_outcome_giveObject hrun
  have hissued {c : Constness} (hnew : ∃ k a, s.arena.issue ([h] ++ s.handles) h.target c = some (k, a) ∧
      u = .object k ∧ t = { s with arena := a }) : ∃ g i, u = .object g ∧ s.Issues [.object h] h.target g i := by
    obtain ⟨k, a, hissue, rfl, -⟩ := hnew
    obtain ⟨i, hissues⟩ := hs.issues hfew (fun _ hk => State.exists_held_of_mem_handlesWith hk) hissue
    exact ⟨k, i, rfl, hissues⟩
  have hshown (hconst : (isSoleAlias s h = true ∧ u = .object h ∧
        t = { s with arena := s.arena.setConst h.proxy true }) ∨
      ∃ k a, s.arena.issue ([h] ++ s.handles) h.target .const = some (k, a) ∧
        u = .object k ∧ t = { s with arena := a }) : ∃ g i, u = .object g ∧ s.Issues [.object h] h.target g i := by
    rcases hconst with ⟨hsole, rfl, -⟩ | hnew
    · exact ⟨h, i, rfl, issues_of_isSoleAlias hs hequipped hfew hi hsole⟩
    · exact hissued hnew
  cases passing with
  | value => exact absurd rfl hpassing
  | ref => exact hissued hcases
  | ptr => exact hissued hcases
  | constRef => exact hshown hcases
  | constPtr => exact hshown hcases

end Delivery

namespace Session

/-- At every moment of a session in which the generations of no slot are used up, the handles that exist tell the objects
apart, and objects are of the kinds of their classes.  Whenever another handle is issued for an object, by a return, by a
reference or by a look into a seat, it has the proxy of the other ones if the object has identity, and a new one if it
has none. -/
theorem proxies_identify :
    (∀ s, Reachable s → (∀ slot, (s.arena.slotAt slot).removals < 2 ^ 32) → s.Identifies [] ∧ s.Equipped) ∧
    (∀ s t hand, Reachable s → s.Path t → t.Arises hand → (∀ slot, (t.arena.slotAt slot).removals < 2 ^ 32) →
      (t.Identifies hand ∧ t.Equipped) ∧
      (∀ exec cls method passing h u t', hand = [.object h] → passing ≠ .value →
        (Delivery.giveObject exec cls passing h method).outcome t = (.ok u, t') →
        ∃ g i, u = .object g ∧ t.Issues hand h.target g i) ∧
      (∀ r g t', hand = [] → (Lifetime.upgrade r).outcome t = (.ok (some g), t') → ∃ i, t.Issues hand r g i) ∧
      (∀ cls name g t', hand = [] → (Lifetime.occupant cls name).outcome t = (.ok (some g), t') →
        ∃ r i, (t.seat cls name).occupant = some r ∧ t.Issues hand r g i)) := by
  refine ⟨fun s hs hfew => ⟨hs.arises.identifies hfew, hs.equipped⟩, fun s t hand hs hpath ht hfew => ?_⟩
  refine ⟨⟨ht.identifies hfew, hpath.equipped hs.equipped⟩, ?_, ?_, ?_⟩
  · rintro exec cls method passing h u t' rfl hpassing hrun
    exact Delivery.issues_of_giveObject ht (hpath.equipped hs.equipped) hfew hpassing hrun
  · rintro r g t' rfl hrun
    obtain ⟨a, hissue⟩ := Lifetime.exists_of_outcome_upgrade hrun
    exact ht.issues hfew (fun k hk => ⟨k, hk, rfl⟩) hissue
  · rintro cls name g t' rfl hrun
    obtain ⟨r, a, hseat, hissue⟩ := Lifetime.exists_of_outcome_occupant hrun
    obtain ⟨i, hissues⟩ := ht.issues hfew (fun k hk => ⟨k, hk, rfl⟩) hissue
    exact ⟨r, i, hseat, hissues⟩

/-- An object that is returned by reference comes with the proxy that its handle in a variable has. -/
theorem returned_by_proxy_in_use :
    ∃ g t', (Delivery.giveObject (Script.interpreter 6).exec "Node" .ref crossingObject "same").outcome
        crossingRun.2 = (.ok (.object g), t') ∧ g.sameProxy crossingObject = true := by
  have hreachable : Reachable crossingRun.2 := .between between_crossingRun
  have hfew : ∀ slot, (crossingRun.2.arena.slotAt slot).removals < 2 ^ 32 :=
    Arena.removals_lt_of_unused (by decide +kernel)
  have hrun : ((Delivery.giveObject (Script.interpreter 6).exec "Node" .ref crossingObject "same").outcome
      crossingRun.2).1.isOk = true := by
    decide +kernel
  have hkind : (crossingRun.2.arena.get? crossingObject.target).map Instance.kind = some .object := by
    decide +kernel
  have hhand : crossingRun.2.Arises [.object crossingObject] := by
    refine hreachable.arises.of_covers fun v hv => ?_
    obtain rfl := List.mem_singleton.mp hv
    exact covers_crossingObject []
  rcases houtcome : (Delivery.giveObject (Script.interpreter 6).exec "Node" .ref crossingObject "same").outcome
    crossingRun.2 with ⟨u | u, t'⟩
  · rw [houtcome] at hrun
    cases hrun
  · obtain ⟨g, i, rfl, hissues⟩ := (proxies_identify.2 _ _ _ hreachable Relation.ReflTransGen.refl hhand hfew).2.1
      _ _ _ _ _ _ _ rfl (by decide) houtcome
    rw [hissues.live, Option.map_some, Option.some.injEq] at hkind
    exact ⟨g, t', rfl, hissues.proxy hkind _ (State.mem_handlesWith_of_mem_hand List.mem_cons_self) rfl⟩

end Session

end ObjectBridge
