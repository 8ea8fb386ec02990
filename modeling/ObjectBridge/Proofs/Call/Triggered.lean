import ObjectBridge.Proofs.Call.Event
import ObjectBridge.Proofs.Call.Passing

/-!
# What handlers receive

A trigger converts the arguments for the parameters of the event and hands all of them to every handler, as they
are converted.  Bodies of methods get the same values prepared, with copies and const views.

* `Event.Delivers` — how a trigger comes to run handlers, and with which values.
* `Event.Starts` — the handlers that run, each in the state that the ones before it left.
* `Event.exists_bind` — the values are those that a method with the same parameters is bound to.
* `Event.prepare_eq_iff` — when a body would receive the same.
-/

namespace ObjectBridge

namespace CallArgs

variable {w : World} {args : CallArgs} {params : List Param} {i : Nat}

/-! ## Arguments by position alone -/

theorem positionalSources_eq {given : Nat} (hgiven : i + params.length ≤ given) :
    positionalSources given i params =
      (List.range' i params.length).map fun k => some (.positional k) := by
  induction params generalizing i with
  | nil => rfl
  | cons p rest ih =>
      rw [List.length_cons] at hgiven
      have hi : i < given := by omega
      rw [positionalSources, if_pos hi, List.length_cons, List.range'_succ, List.map_cons,
        ih (by omega)]

/-- As many values as there are parameters are taken in order. -/
theorem findSources_positional {values : List Value} (hlength : values.length = params.length) :
    (CallArgs.mk values []).findSources params =
      .ok ((List.range' 0 params.length).map .positional) := by
  have hmissing : missing? params
      ((List.range' 0 params.length).map fun k => some (Source.positional k)) = none := by
    rw [missing?, Option.map_eq_none_iff, List.findIdx?_eq_none_iff]
    rintro ⟨p, source⟩ hmem
    obtain ⟨k, -, rfl⟩ := List.mem_map.mp (List.of_mem_zip hmem).2
    rfl
  have hsources : positionalSources params.length 0 params =
      (List.range' 0 params.length).map fun k => some (.positional k) :=
    positionalSources_eq (Nat.zero_add _).le
  rw [findSources]
  simp only [hlength, Nat.lt_irrefl, if_false, hsources]
  refine bind_eq_ok_iff.mpr ⟨_, rfl, ?_⟩
  simp only [hmissing, List.map_map]
  rfl

end CallArgs

namespace Event

open Run Delivery

variable {exec : Exec} {s t u : State} {h : Handle} {event : String} {args values : List Value}
  {info : EventInfo} {handlers : Handlers} {f : Callable}

/-! ## A trigger -/

/-- A trigger in the state `s` comes to run `handlers` with `values` in the state `t`. -/
structure Delivers (exec : Exec) (s : State) (h : Handle) (event : String) (args : List Value) (t : State)
    (info : EventInfo) (values : List Value) (handlers : Handlers) : Prop where
  materialized : (holding args (Lifetime.materialize exec h event)).outcome s = (.ok (), t)
  declared : t.classes.findEvent h.cls event = some info
  length_eq : args.length = info.params.length
  converted : convertArgs t.toWorld h.className event 1 (info.params.zip args) = .ok values
  connected : ∃ i, t.arena.get? h.target = some i ∧ handlers = (i.handlers? event).getD []

/-- The state in which the handlers of a trigger have their turns. -/
def dispatching (t : State) (h : Handle) (args values : List Value) : State :=
  withHeld t (.object h :: args ++ values)

/-- Of some handlers that have their turns from a state on, one starts in the state `u`, with what the ones after it
captured in use: the ones before it have run without an error. -/
inductive Starts (exec : Exec) (h : Handle) (values : List Value) :
    State → Handlers → Callable → State → Prop
  | first {s : State} {f : Callable} {rest : Handlers} :
      Starts exec h values s (f :: rest) f (withHeld s (Handlers.values rest))
  | next {s t u : State} {f g : Callable} {rest : Handlers} {body : Activation}
      (hrun : (holding (Handlers.values rest) (inHostFrame .host (invoke exec f (some h) values))).outcome s =
        (.ok body, t))
      (hlater : Starts exec h values t rest g u) : Starts exec h values s (f :: rest) g u

/-- What a parameter receives for an argument: the converted argument, and for an object the handle that is given,
which may be in a box. -/
def Handed (w : World) (p : Param) (v u : Value) : Prop :=
  (∃ cost, Conversion.convert w p.type p.passing v = .ok (u, cost)) ∧
    (p.type.isObject = true → (p.passing.isNullable = true ∧ u = .nil) ∨
      ∃ k, u = .object k ∧ Conversion.behind w.cells (w.cells.size + 1) v = .object k ∧
        w.arena.isDestroyed k = false ∧ (p.passing.writesBack = true → w.isConst k = false))

/-- A trigger that comes to run handlers runs them with the values. -/
theorem Delivers.outcome_eq (hdelivers : Delivers exec s h event args t info values handlers) :
    (trigger exec h event args).outcome s =
      (holding (.object h :: args ++ values) (runHandlers exec h values handlers)).outcome t := by
  obtain ⟨hmat, hdeclared, hlength, hconverted, i, hi, rfl⟩ := hdelivers
  rw [trigger, outcome_bind_of_ok hmat, outcome_bind_of_ok (outcome_declaration_of_some hdeclared)]
  simp only [ne_eq, hlength, not_true_eq_false, if_false]
  rw [outcome_get_bind, hconverted]
  exact outcome_bind_of_ok (Lifetime.outcome_resolve_of_some hi event) _

/-- A trigger runs handlers or ends before. -/
theorem delivers_or_ends (exec : Exec) (s : State) (h : Handle) (event : String) (args : List Value) :
    (∃ t info values handlers, Delivers exec s h event args t info values handlers) ∨
      ∃ fault, ((trigger exec h event args).outcome s).1 = .error fault := by
  rcases hrun : (trigger exec h event args).outcome s with ⟨result, t'⟩
  cases result with
  | error fault => exact Or.inr ⟨fault, rfl⟩
  | ok done =>
      refine Or.inl ?_
      obtain ⟨_, t, hmat, hdeclared⟩ := exists_of_outcome_bind hrun
      obtain ⟨info, t₁, hdeclaration, hcounted⟩ := exists_of_outcome_bind hdeclared
      obtain ⟨hinfo, rfl⟩ := eq_of_outcome_orFail (hdeclaration : (orFail _ _).outcome t = _)
      obtain ⟨hlength, hread⟩ := outcome_of_unless hcounted
      rw [outcome_get_bind] at hread
      obtain ⟨values, t₂, hvalues, hresolved⟩ := exists_of_outcome_bind hread
      obtain ⟨hconverted, rfl⟩ := eq_of_outcome_ofExcept hvalues
      obtain ⟨i, t₃, hi, -⟩ := exists_of_outcome_bind hresolved
      obtain ⟨hi, -⟩ := eq_of_outcome_ofExcept (hi : (ofExcept _).outcome t = _)
      exact ⟨t, info, values, _, hmat, hinfo, not_not.mp hlength, hconverted, i,
        Arena.resolve_eq_ok_iff.mp hi, rfl⟩

theorem handed_of_convert {w : World} {p : Param} {v u : Value} {cost : Nat}
    (hconv : Conversion.convert w p.type p.passing v = .ok (u, cost)) : Handed w p v u := by
  refine ⟨⟨cost, hconv⟩, fun hobject => ?_⟩
  obtain ⟨cls, htype⟩ := Ty.eq_object_of_isObject hobject
  rw [htype] at hconv
  exact Conversion.object_of_convert hconv

theorem forall₂_of_convertArgs {w : World} {cls : String} {position : Nat} {given : List (Param × Value)}
    (hconv : convertArgs w cls event position given = .ok values) :
    List.Forall₂ (fun e u => Handed w e.1 e.2 u) given values := by
  induction given generalizing position values with
  | nil =>
      obtain rfl := Except.ok.inj hconv
      exact .nil
  | cons e rest ih =>
      rw [convertArgs] at hconv
      split at hconv
      · cases hconv
      · rename_i u cost hone
        obtain ⟨us, hrest, rfl⟩ := map_eq_ok_iff.mp hconv
        exact .cons (handed_of_convert hone) (ih hrest)

/-! ## The same arguments for a method -/

theorem exists_convertAll {w : World} {cls : String} {position i : Nat} {params : List Param}
    {all : CallArgs} {given values : List Value} (first : Nat) (hgiven : all.positional.drop i = given)
    (hlength : given.length = params.length)
    (hconv : convertArgs w cls event position (params.zip given) = .ok values) :
    ∃ b, all.convertAll w first (params.zip ((List.range' i params.length).map .positional)) =
      .bound b ∧ b.values = values := by
  induction params generalizing i position first given values with
  | nil =>
      obtain rfl := Except.ok.inj hconv
      exact ⟨_, rfl, rfl⟩
  | cons p params ih =>
      obtain ⟨v, rest, rfl⟩ := List.exists_cons_of_length_eq_add_one hlength
      rw [List.zip_cons_cons, convertArgs] at hconv
      split at hconv
      · cases hconv
      · rename_i u cost hone
        obtain ⟨us, hrest, rfl⟩ := map_eq_ok_iff.mp hconv
        have hv : all.positional[i]? = some v := by
          rw [← List.head?_drop, hgiven]
          rfl
        have hlater : all.positional.drop (i + 1) = rest := by
          rw [← List.tail_drop, hgiven]
          rfl
        have hraw : all.raw p (.positional i) = v := by
          simp [CallArgs.raw, CallArgs.given?, hv]
        -- Index and values advance together, so the rest is found behind the first value.
        obtain ⟨b, hb, rfl⟩ := ih (first + 1) hlater (Nat.succ.inj hlength) hrest
        refine ⟨⟨u :: b.values, .positional i :: b.sources, cost + b.cost⟩, ?_, rfl⟩
        rw [List.length_cons, List.range'_succ, List.map_cons, List.zip_cons_cons, CallArgs.convertAll,
          hraw, hone]
        simp only [hb]

/-- A method with the parameters of the event is bound to the values that the handlers receive. -/
theorem Delivers.exists_bind (hdelivers : Delivers exec s h event args t info values handlers) :
    ∃ b, (CallArgs.mk args []).bind t.toWorld info.params = .bound b ∧ b.values = values := by
  rw [CallArgs.bind, CallArgs.findSources_positional hdelivers.length_eq]
  exact exists_convertAll 1 rfl hdelivers.length_eq hdelivers.converted

/-! ## What a body would receive -/

/-- A body receives the value itself: if it is an object, then one that may be changed, or one that is only shown and
is given by a const view. -/
def AsItIs (p : Param) (v : Value) : Prop :=
  p.type.isObject = true → ∀ k, v = .object k →
    p.passing.writesBack = true ∨ (p.passing.isConst = true ∧ k.constView = true)

theorem eq_iff_of_passed {p : Param} {v x : Value} {hand : List Value} (hs : s.Arises hand)
    (hv : v ∈ hand) (hpassed : Passed s t p v x) : x = v ↔ AsItIs p v := by
  cases hpassed with
  | copied hobject hpassing hcopy =>
      rename_i g k
      -- A copy has an anchor that no handle had before.
      have hother := hcopy.anchor_ne hs g.proxy (State.mem_proxies_of_mem_hand hv List.mem_cons_self)
      constructor
      · intro heq
        rw [Value.object.inj heq] at hother
        exact absurd rfl hother
      · intro hsame
        rcases hsame hobject g rfl with hback | ⟨hconst, -⟩
        · rw [hpassing] at hback
          cases hback
        · rw [hpassing] at hconst
          cases hconst
  | shown hobject hpassing hconst =>
      rename_i g
      constructor
      · intro heq hobj k hk
        obtain rfl := Value.object.inj hk
        refine Or.inr ⟨hpassing, ?_⟩
        rw [← Value.object.inj heq]
        rfl
      · intro hsame
        rcases hsame hobject g rfl with hback | ⟨-, hview⟩
        · exact absurd hback (by cases hp : p.passing <;> simp_all [Passing.isConst, Passing.writesBack])
        · obtain ⟨proxy, constView⟩ := g
          obtain rfl : constView = true := hview
          rfl
  | aliased hobject hpassing hmut => exact ⟨fun _ _ _ _ => Or.inl hpassing, fun _ => rfl⟩
  | other hother =>
      refine ⟨fun _ hobject k hk => ?_, fun _ => rfl⟩
      rcases hother with hnot | hnone
      · rw [hobject] at hnot
        cases hnot
      · rw [hk] at hnone
        cases hnone

/-- The values of the parameters arrive as they are exactly if each of them does. -/
theorem eq_iff_of_forall₂_passed {params : List Param} {us hand : List Value} (hs : s.Arises hand)
    (hlength : params.length = values.length) (hsub : ∀ v ∈ values, v ∈ hand)
    (hpassed : List.Forall₂ (fun bound x => Passed s t bound.1 bound.2 x) (params.zip values) us) :
    us = values ↔ ∀ bound ∈ params.zip values, AsItIs bound.1 bound.2 := by
  induction params generalizing values us with
  | nil =>
      obtain rfl := List.length_eq_zero_iff.mp hlength.symm
      cases hpassed
      simp
  | cons p params ih =>
      obtain ⟨v, rest, rfl⟩ := List.exists_cons_of_length_eq_add_one hlength.symm
      obtain ⟨x, xs, hone, hothers, rfl⟩ := List.forall₂_cons_left_iff.mp hpassed
      rw [List.zip_cons_cons, List.forall_mem_cons, List.cons_eq_cons,
        eq_iff_of_passed hs (hsub v List.mem_cons_self) hone,
        ih (Nat.succ.inj hlength) (fun w hw => hsub w (List.mem_cons_of_mem _ hw)) hothers]

/-! ## Handlers that run -/

section Bodies

variable (hexec : ConservesAll exec)

include hexec

/-- When a handler starts, no handle that the trigger keeps in use has become const. -/
theorem Starts.mutable (hstarts : Starts exec h values s handlers f u) (hs : s.Arises handlers.values)
    (hh : .object h ∈ s.kept) (hvalues : ∀ v ∈ values, v ∈ s.kept) {k : Handle} (hk : k.proxy ∈ s.pinned)
    (hmut : s.isConst k = false) : u.isConst k = false := by
  induction hstarts with
  | first => exact hmut
  | next hrun hlater ih =>
      rename_i s t u f g rest body
      have hfirst := conserves_next hexec f rest hh hvalues
      have hlevel := (hfirst.ok hrun).1
      have ht := hfirst.arises hs hrun
      have hstays := hfirst.stays_mutable hs hk hmut
      rw [hrun] at hstays
      rw [← hlevel.kept_eq] at hh hvalues
      exact ih ht hh hvalues (hlevel.pinned_eq ▸ hk) hstays

/-- What a trigger hands over is in use when handlers run. -/
theorem Delivers.arises (hdelivers : Delivers exec s h event args t info values handlers)
    (hs : s.Arises args) (hh : .object h ∈ s.kept) :
    t.Arises (.object h :: args ++ values ++ handlers.values) := by
  have hmat : Conserves (holding args (Lifetime.materialize exec h event)) s args fun _ => args :=
    (Conserves.holding_nil (Lifetime.conserves_materialize hexec h event)).of_out_subset
      fun _ v hv => List.mem_append_left _ hv
  have hlevel := (hmat.ok hdelivers.materialized).1
  refine (hmat.arises hs hdelivers.materialized).of_covers ?_
  have hvalues : ∀ v ∈ values, t.Covers args v :=
    covers_convertArgs hdelivers.converted fun e he => State.covers_of_mem_hand (List.of_mem_zip he).2
  obtain ⟨i, hi, rfl⟩ := hdelivers.connected
  intro v hv
  simp only [List.cons_append, List.mem_cons, List.mem_append] at hv
  rcases hv with rfl | (hv | hv) | hv
  · rw [← hlevel.kept_eq] at hh
    exact State.covers_of_mem_kept hh args
  · exact State.covers_of_mem_hand hv
  · exact hvalues v hv
  · cases hold : i.handlers? event with
    | none => simp [hold, Handlers.values] at hv
    | some hs =>
        rw [hold, Option.getD_some] at hv
        exact Lifetime.covers_handlers hi hold hv

/-- Every handler that runs finds the objects mutable that it is handed to change. -/
theorem Delivers.mutable (hdelivers : Delivers exec s h event args t info values handlers)
    (hs : s.Arises args) (hh : .object h ∈ s.kept)
    (hstarts : Starts exec h values (dispatching t h args values) handlers f u)
    {p : Param} {k : Handle} (hbound : (p, .object k) ∈ info.params.zip values)
    (hobject : p.type.isObject = true) (hback : p.passing.writesBack = true) : u.isConst k = false := by
  have ht := hdelivers.arises hexec hs hh
  have hstart : (dispatching t h args values).Arises handlers.values := Delivery.arises_withHeld ht
  have hkept : (dispatching t h args values).kept = (.object h :: args ++ values) ++ t.kept := by
    rw [dispatching, withHeld, State.kept_cons_held]
  have hvalue : Value.object k ∈ values := (List.of_mem_zip hbound).2
  refine hstarts.mutable hexec hstart (by simp [hkept]) (fun v hv => by simp [hkept, hv])
    ⟨.object k, by simp [hkept, hvalue], k, List.mem_cons_self, rfl⟩ ?_
  -- The conversion refuses a const object.
  have hhanded := forall₂_of_convertArgs hdelivers.converted
  obtain ⟨n, hn⟩ := List.mem_iff_getElem?.mp hbound
  obtain ⟨hp, hk⟩ := List.getElem?_zip_eq_some.mp hn
  have hlength := hdelivers.length_eq
  have hlt : n < info.params.length := (List.getElem?_eq_some_iff.mp hp).1
  obtain ⟨v, hv⟩ : ∃ v, args[n]? = some v := ⟨args[n], List.getElem?_eq_getElem (by omega)⟩
  obtain ⟨x, hx, -, hgiven⟩ := exists_getElem?_of_forall₂ hhanded
    (List.getElem?_zip_eq_some.mpr ⟨hp, hv⟩ : (info.params.zip args)[n]? = some (p, v))
  obtain rfl := Option.some.inj (hk.symm.trans hx)
  rcases hgiven hobject with ⟨-, hnil⟩ | ⟨g, hg, -, -, hmut⟩
  · cases hnil
  · obtain rfl := Value.object.inj hg
    exact hmut hback

/-- A body that is prepared for the values receives them as they are exactly if each of them may be handed over so. -/
theorem Delivers.prepare_eq_iff (hdelivers : Delivers exec s h event args t info values handlers)
    (hs : s.Arises args) (hh : .object h ∈ s.kept) {us : List Value} {t' : State}
    (hprepare : (prepare exec info.params values).outcome t = (.ok us, t')) :
    List.Forall₂ (fun bound x => Passed t t' bound.1 bound.2 x) (info.params.zip values) us ∧
      (us = values ↔ ∀ bound ∈ info.params.zip values, AsItIs bound.1 bound.2) := by
  have ht : t.Arises values := (hdelivers.arises hexec hs hh).of_covers fun v hv =>
    State.covers_of_mem_hand (by simp [hv])
  have hhanded := forall₂_of_convertArgs hdelivers.converted
  have hlength : info.params.length = values.length := by
    have hsame := hhanded.length_eq
    rw [List.length_zip, hdelivers.length_eq, Nat.min_self] at hsame
    exact hsame
  have hfit : List.Forall₂ (Passable t) info.params values := by
    rw [← List.map_fst_zip (hdelivers.length_eq.ge : info.params.length ≤ args.length),
      List.forall₂_map_left_iff]
    refine hhanded.imp fun e x hx => passable_of_accepts ?_
    obtain ⟨cost, hconv⟩ := hx.1
    exact ⟨e.2, cost, hconv⟩
  obtain ⟨hpassed, -⟩ := forall₂_of_prepare hexec ht hfit hprepare
  exact ⟨hpassed, eq_iff_of_forall₂_passed ht hlength (fun v hv => hv) hpassed⟩

end Bodies

end Event

end ObjectBridge
