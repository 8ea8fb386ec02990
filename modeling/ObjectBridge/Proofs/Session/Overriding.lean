import ObjectBridge.Proofs.Call.Conforming
import ObjectBridge.Proofs.Call.Overriding
import ObjectBridge.Proofs.Session.Moments

/-!
# Overrides

A call of a virtual method that the class of the object overrides runs the override and not the native body, if that
is a plain one.  An enumerable body runs nevertheless.

* `Reachable.equipped` — every object has the overrides of its class.
* `Reachable.routes` — where the calls of methods lead.
* `items_not_overridden` — an override of an enumerable method does not run.
-/

namespace ObjectBridge.Session

open Run Dispatch

variable {s t : State}

/-- Every object of a reachable state has the overrides of its class. -/
theorem Reachable.equipped (hs : Reachable s) : s.Equipped := by
  obtain ⟨options, enums, hpath⟩ := hs.path
  refine State.Path.equipped hpath ?_
  intro r i hi
  simp [Session.start, Arena.get?] at hi

/-- Whether an overload is virtual, takes no arguments and has a plain body, and its result. -/
def outline (chosen : Selected) : Bool × Bool × Bool × Result :=
  (chosen.overload.sig.isVirtual, chosen.overload.sig.params.isEmpty,
    (match chosen.overload.body with | .native _ => true | _ => false), chosen.overload.sig.result)

/-- A call without arguments is ready for the body of a virtual overload as soon as this is selected. -/
theorem exists_ready (exec : Exec) {recv : Handle} (method : String) {i : Instance} (isPlain : Bool)
    (result : Result) (hi : s.arena.get? recv.target = some i) (hmade : i.isMaterialized = true)
    (houtline : ((holding ({} : CallArgs).values (choose exec recv method {})).outcome s).1.toOption.map outline =
      some (true, true, isPlain, result)) :
    ∃ chosen, Ready exec s recv method {} chosen s [] (withHeld s ({} : CallArgs).values) ∧
      chosen.overload.sig.isVirtual = true ∧ chosen.overload.sig.params = [] ∧
      (isPlain = true → ∃ code, chosen.overload.body = .native code) ∧ chosen.overload.sig.result = result := by
  obtain ⟨chosen, s₀, hchoose, hfacts⟩ := exists_of_toOption houtline
  obtain rfl := eq_of_outcome_choose hi hmade hchoose
  obtain ⟨hvirtual, hempty, rfl, hresult⟩ := by simpa only [outline, Prod.mk.injEq] using hfacts
  have hparams := List.isEmpty_iff.mp hempty
  refine ⟨chosen, ready_of_choose hchoose hparams, hvirtual, hparams, ?_, hresult⟩
  intro hplain
  cases hbody : chosen.overload.body with
  | native code => exact ⟨code, rfl⟩
  | iterator code source => simp [hbody] at hplain
  | constructor code shape => simp [hbody] at hplain

/-- At every moment of a session, and wherever the steps of a run lead from there, a call of a virtual method with a
plain body runs the override that the class of the object has for it, once, and not the native body. The native body
runs if there is no such override or if the call asks for it. Enumerable bodies always run. -/
theorem Reachable.routes (hs : Reachable s) (hpath : s.Path t) (budget : Nat) :
    Routes (Script.interpreter budget).exec t :=
  routes_of_equipped (Script.interpreter_orderly budget).exec (hpath.numbered hs.numbered)
    (hpath.equipped hs.equipped)

/-- The override of `area` runs in a call. -/
theorem area_overridden :
    ∃ chosen f,
      Ready (Script.interpreter 6).exec overridingRun.2 overridingObject "area" {} chosen overridingRun.2 []
        (withHeld overridingRun.2 []) ∧
      overridingRun.2.classes.overrideOf 1 "area" = some f ∧
      (call (Script.interpreter 6).exec overridingObject "area" {}).outcome overridingRun.2 =
        afterBody (Script.interpreter 6).exec chosen "area" {}
          ((runOverride (Script.interpreter 6).exec overridingObject f [] []).outcome
            (withHeld overridingRun.2 [])) := by
  obtain ⟨i, hi, hmade, hcls⟩ := exists_overridingObject
  obtain ⟨chosen, hready, hvirtual, hparams, hplain, -⟩ :=
    exists_ready (Script.interpreter 6).exec "area" true (some (.bool, .value)) hi hmade (by decide +kernel)
  obtain ⟨code, hbody⟩ := hplain rfl
  have hmethod : (overridingRun.2.classes.overrideOf 1 "area").isSome = true := by
    decide +kernel
  obtain ⟨f, hf⟩ := Option.isSome_iff_exists.mp hmethod
  refine ⟨chosen, f, hready, hf, ?_⟩
  have hcall := (Reachable.routes (.between between_overridingRun) .refl 6).override
    _ _ _ _ _ _ _ _ _ _ hready hbody hvirtual hi (hcls ▸ hf)
  rwa [hparams] at hcall

/-- What a call delivers as a truth value is converted from the result of the body. -/
theorem exists_convert_of_afterBody {exec : Exec} {chosen : Selected} {method : String} {args after : CallArgs}
    {u v : Value} {updated : List Value} {t₁ : State}
    (hresult : chosen.overload.sig.result = some (.bool, .value))
    (hafter : afterBody exec chosen method args (.ok (u, updated), t₁) = (.ok (v, after), t)) :
    ∃ w cost, Conversion.convert w .bool .value u = .ok (v, cost) := by
  obtain ⟨args', t₂, -, hdeliver⟩ := exists_of_outcome_bind hafter
  obtain ⟨v', t₃, hhold, hpure⟩ := exists_of_outcome_bind hdeliver
  obtain ⟨rfl, -⟩ := Prod.mk.inj (eq_of_outcome_pure hpure).1
  rw [hresult] at hhold
  obtain ⟨t₄, hgive, -⟩ := exists_of_outcome_holding hhold
  have hconverted : (Delivery.give.converted .bool u).outcome (withHeld t₂ args'.values) = (.ok v', t₄) := hgive
  exact ⟨_, (Delivery.outcome_converted hconverted).2⟩

/-- What a call delivers as a truth value is not a list. -/
theorem isSome_list?_eq_false {exec : Exec} {chosen : Selected} {method : String} {args after : CallArgs}
    {left : Except Fault (Value × List Value) × State} {v : Value}
    (hresult : chosen.overload.sig.result = some (.bool, .value))
    (hafter : afterBody exec chosen method args left = (.ok (v, after), t)) : v.list?.isSome = false := by
  obtain ⟨result, t₁⟩ := left
  match result with
  | .error (.raised e) | .error .exhausted => cases hafter
  | .ok (u, updated) =>
      obtain ⟨w, cost, hconv⟩ := exists_convert_of_afterBody hresult hafter
      have hconforms : Conversion.Conforms w .bool .value v := Conversion.conforms_of_convert_value rfl hconv .value
      obtain ⟨cost', hsame⟩ := hconforms
      cases v with
      | list items => cases hsame
      | _ => rfl

/-- A call of the method `items` of the object, which is enumerable, does not run the override that the class has for
it. -/
theorem items_not_overridden :
    ¬∀ budget s recv method args chosen s₀ values u i f, Between s →
      Ready (Script.interpreter budget).exec s recv method args chosen s₀ values u →
      chosen.overload.sig.isVirtual = true → u.hostDepth < u.options.maxDepth →
      u.arena.get? recv.target = some i → u.classes.overrideOf i.cls method = some f →
      (call (Script.interpreter budget).exec recv method args).outcome s =
        afterBody (Script.interpreter budget).exec chosen method args
          ((runOverride (Script.interpreter budget).exec recv f chosen.overload.sig.params values).outcome u) := by
  intro hclaim
  obtain ⟨i, hi, hmade, hcls⟩ := exists_overridingObject
  obtain ⟨chosen, hready, hvirtual, -, -, hresult⟩ :=
    exists_ready (Script.interpreter 6).exec "items" false (some (.bool, .value)) hi hmade (by decide +kernel)
  have hmethod : (overridingRun.2.classes.overrideOf 1 "items").isSome = true := by
    decide +kernel
  obtain ⟨f, hf⟩ := Option.isSome_iff_exists.mp hmethod
  -- The native body answers with a list of truth values, and an override could only answer with one.
  have hlisted : ((call (Script.interpreter 6).exec overridingObject "items" {}).outcome
      overridingRun.2).1.toOption.map (fun left => left.1.list?.isSome) = some true := by
    decide +kernel
  obtain ⟨⟨answer, after⟩, t, hcall, hlist⟩ := exists_of_toOption hlisted
  have hoverridden := hclaim 6 _ _ _ _ _ _ _ _ i f between_overridingRun hready hvirtual (by decide +kernel) hi
    (hcls ▸ hf)
  rw [isSome_list?_eq_false hresult (hoverridden.symm.trans hcall)] at hlist
  cases hlist

end ObjectBridge.Session
