import ObjectBridge.Proofs.Session.Overriding

/-!
# Inherited overrides in a session

The classes of a session come from definitions, and the override that runs for an object is the one that comes down
the chain of its class, from classes that host code derives one from the other.

* `Reachable.exists_defines` — the definitions of a session.
* `Dispatch.Inherits` and `Reachable.overrides_inherited` — the overrides of objects and where their calls lead.
* `area_not_inherited` — a class that is described inherits no overrides.
-/

namespace ObjectBridge

open Run

variable {s t : State}

/-- Classes come from definitions alone. -/
theorem State.Step.exists_defines (hstep : s.Step t) {ds : List Definition} (hds : Defines ds s.classes) :
    ∃ later, Defines (ds ++ later) t.classes := by
  have hsame (heq : t.classes = s.classes) : ∃ later, Defines (ds ++ later) t.classes :=
    ⟨[], by rwa [List.append_nil, heq]⟩
  cases hstep with
  | vary hworld => exact hsame hworld.1
  | retain | store | copy => exact hsame rfl
  | define d id classes hdefine => exact ⟨[.described d], .snoc _ hds hdefine⟩
  | defineSubclass name base overrides id classes hdefine =>
      exact ⟨[.derived name base overrides], .snoc _ hds hdefine⟩
  | enter hworld | leave hworld => exact hsame (congrArg World.classes hworld)

theorem State.Path.exists_defines (hpath : s.Path t) {ds : List Definition} (hds : Defines ds s.classes) :
    ∃ later, Defines (ds ++ later) t.classes := by
  induction hpath with
  | refl => exact ⟨[], by rwa [List.append_nil]⟩
  | tail _ hlast ih =>
      obtain ⟨later, hlater⟩ := ih
      obtain ⟨last, hlast⟩ := hlast.exists_defines hlater
      exact ⟨later ++ last, by rwa [← List.append_assoc]⟩

namespace Dispatch

/-- Overrides are inherited along the chains of classes, whatever definitions the classes come from. -/
structure Inherits (exec : Exec) (s : State) : Prop where
  /-- The override of an object is the one that comes down the chain of its class, whichever way the object came
  up. -/
  equipped : ∀ ds r i method, Defines ds s.classes → s.arena.get? r = some i →
    (i.overrides.bind fun o => o.get? method) = inherited ds s.classes i.cls method
  /-- It is listed by the nearest class that lists the method. -/
  listed : ∀ ds id method f, Defines ds s.classes → inherited ds s.classes id method = some f →
    nearest ds s.classes id method = some f
  /-- What the nearest class lists comes down the chain, unless a class that is described derives from one of host
  code. -/
  undisturbed : ∀ ds id method, Defines ds s.classes →
    (∀ c ∈ (s.classes.ancestors id).dropWhile fun c => c.overrides.isSome, c.overrides = none) →
    inherited ds s.classes id method = nearest ds s.classes id method
  /-- A call of a virtual overload with a plain body runs the override that comes down the chain. -/
  override : ∀ recv method args chosen s₀ values u code i ds f,
    Ready exec s recv method args chosen s₀ values u → chosen.overload.body = .native code →
    chosen.overload.sig.isVirtual = true → u.arena.get? recv.target = some i →
    Defines ds u.classes → inherited ds u.classes i.cls method = some f →
    (call exec recv method args).outcome s =
      afterBody exec chosen method args
        ((runOverride exec recv f chosen.overload.sig.params values).outcome u)
  /-- If none comes down the chain, the native body runs. -/
  native : ∀ recv method args chosen s₀ values u code i ds,
    Ready exec s recv method args chosen s₀ values u → chosen.overload.body = .native code →
    u.arena.get? recv.target = some i →
    Defines ds u.classes → inherited ds u.classes i.cls method = none →
    (call exec recv method args).outcome s =
      afterBody exec chosen method args ((runPlain exec recv values code).outcome u)

theorem inherits_of_equipped {exec : Exec} (hexec : OrderlyAll exec) (hnum : s.classes.Numbered)
    (hs : s.Equipped) : Inherits exec s where
  equipped := by
    intro ds r i method hds hi
    rw [hs.overrides_eq hi, ← hds.overrideOf_eq]
    rfl
  listed := by
    intro ds id method f hds hf
    exact Defines.nearest_of_inherited hf
  undisturbed := by
    intro ds id method hds hchain
    exact hds.inherited_eq_nearest hchain method
  override := by
    intro recv method args chosen s₀ values u code i ds f hready hbody hvirtual hi hds hf
    exact (routes_of_equipped hexec hnum hs).override _ _ _ _ _ _ _ _ _ _ hready hbody hvirtual hi
      ((hds.overrideOf_eq i.cls method).trans hf)
  native := by
    intro recv method args chosen s₀ values u code i ds hready hbody hi hds hnone
    exact (routes_of_equipped hexec hnum hs).native _ _ _ _ _ _ _ _ _ hready hbody hi
      (Or.inr ((hds.overrideOf_eq i.cls method).trans hnone))

end Dispatch

namespace Session

open Dispatch

/-- The classes of a reachable state come from definitions. -/
theorem Reachable.exists_defines (hs : Reachable s) : ∃ ds, Defines ds s.classes := by
  obtain ⟨options, enums, hpath⟩ := hs.path
  obtain ⟨later, hlater⟩ := hpath.exists_defines Defines.nil
  exact ⟨_, hlater⟩

/-- At every moment of a session, and wherever the steps of a run lead from there, the classes come from definitions,
and objects inherit overrides along the chains of their classes. -/
theorem Reachable.overrides_inherited (hs : Reachable s) (hpath : s.Path t) (budget : Nat) :
    (∃ ds, Defines ds t.classes) ∧ Inherits (Script.interpreter budget).exec t := by
  obtain ⟨ds, hds⟩ := hs.exists_defines
  obtain ⟨later, hlater⟩ := hpath.exists_defines hds
  refine ⟨⟨ds ++ later, hlater⟩, ?_⟩
  exact inherits_of_equipped (Script.interpreter_orderly budget).exec (hpath.numbered hs.numbered)
    (hpath.equipped hs.equipped)

/-- The object in `x` has the override that its class lists for `area`. -/
theorem area_inherited :
    ∃ ds i f, Defines ds overridingRun.2.classes ∧ overridingRun.2.arena.get? overridingObject.target = some i ∧
      (i.overrides.bind fun o => o.get? "area") = some f ∧
      nearest ds overridingRun.2.classes i.cls "area" = some f := by
  obtain ⟨⟨ds, hds⟩, hinherits⟩ := Reachable.overrides_inherited (.between between_overridingRun) .refl 6
  obtain ⟨i, hi, -, hcls⟩ := exists_overridingObject
  have hmethod : (overridingRun.2.classes.overrideOf 1 "area").isSome = true := by
    decide +kernel
  obtain ⟨f, hf⟩ := Option.isSome_iff_exists.mp hmethod
  have hinherited : inherited ds overridingRun.2.classes i.cls "area" = some f := by
    rw [← hds.overrideOf_eq, hcls]
    exact hf
  refine ⟨ds, i, f, hds, hi, ?_, hinherits.listed ds _ _ f hds hinherited⟩
  rw [hinherits.equipped ds _ i "area" hds hi, hinherited]

/-- The class of the object in `y` is described, and derives from the class of the one in `x`. -/
theorem nearest_derived {ds : List Definition} (hds : Defines ds overridingRun.2.classes) {f : Callable}
    (hf : overridingRun.2.classes.overrideOf 1 "area" = some f) :
    nearest ds overridingRun.2.classes 2 "area" = some f := by
  have hclass : (overridingRun.2.classes.get? 2).map (fun c => (c.id, c.base, c.overrides.isSome)) =
      some (2, some 1, false) := by
    decide +kernel
  obtain ⟨c, hc, hfacts⟩ := Option.map_eq_some_iff.mp hclass
  obtain ⟨hid, hbase, hnone⟩ : c.id = 2 ∧ c.base = some 1 ∧ c.overrides.isSome = false := by
    simpa only [Prod.mk.injEq] using hfacts
  have hlisted : listedFor ds "area" c = none :=
    hds.listedFor_eq_none (hid ▸ hc) (by simpa using hnone) "area"
  have hbelow : nearest ds overridingRun.2.classes 1 "area" = some f :=
    Defines.nearest_of_inherited ((hds.overrideOf_eq 1 "area").symm.trans hf)
  -- The class itself lists nothing, so its base decides.
  rw [nearest, hds.numbered.ancestors_eq hc, hbase, List.findSome?_cons, hlisted]
  exact hbelow

/-- A call of the method `area` of the object in `y` does not run the override of the nearest class that lists it. -/
theorem area_not_inherited :
    ¬∀ budget s recv method args chosen s₀ values u code i ds f, Between s →
      Ready (Script.interpreter budget).exec s recv method args chosen s₀ values u →
      chosen.overload.body = .native code → chosen.overload.sig.isVirtual = true →
      u.hostDepth < u.options.maxDepth → u.arena.get? recv.target = some i →
      Defines ds u.classes → nearest ds u.classes i.cls method = some f →
      (call (Script.interpreter budget).exec recv method args).outcome s =
        afterBody (Script.interpreter budget).exec chosen method args
          ((runOverride (Script.interpreter budget).exec recv f chosen.overload.sig.params values).outcome u) := by
  intro hclaim
  obtain ⟨i, hi, hmade, hcls⟩ := exists_derivedObject
  obtain ⟨chosen, hready, hvirtual, hparams, hplain, hresult⟩ :=
    exists_ready (Script.interpreter 6).exec "area" true (some (.bool, .value)) hi hmade (by decide +kernel)
  obtain ⟨code, hbody⟩ := hplain rfl
  obtain ⟨ds, hds⟩ := (Reachable.between between_overridingRun).exists_defines
  -- The override answers true, and the native body false.
  have hoverride : (overridingRun.2.classes.overrideOf 1 "area").map (fun f =>
      ((runOverride (Script.interpreter 6).exec derivedObject f [] []).outcome
        (withHeld overridingRun.2 ({} : CallArgs).values)).1.toOption.map fun left => left.1.bool?) =
      some (some (some true)) := by
    decide +kernel
  obtain ⟨f, hf, hanswer⟩ := Option.map_eq_some_iff.mp hoverride
  obtain ⟨⟨u, updated⟩, t₁, hran, hu⟩ := exists_of_toOption hanswer
  have hcalled : ((call (Script.interpreter 6).exec derivedObject "area" {}).outcome
      overridingRun.2).1.toOption.map (fun left => left.1.bool?) = some (some false) := by
    decide +kernel
  obtain ⟨⟨answer, after⟩, t, hcall, hfalse⟩ := exists_of_toOption hcalled
  have hoverridden := hclaim 6 _ _ _ _ _ _ _ _ code i ds f between_overridingRun hready hbody hvirtual
    (by decide +kernel) hi hds (hcls ▸ nearest_derived hds hf)
  rw [hparams, hran, hcall] at hoverridden
  obtain ⟨w, cost, hconv⟩ := exists_convert_of_afterBody hresult hoverridden.symm
  obtain rfl := Value.eq_bool_of_bool? hu
  obtain rfl := Value.eq_bool_of_bool? hfalse
  cases hconv

end Session

end ObjectBridge
