import ObjectBridge.Lifetime.Native
import ObjectBridge.Proofs.Run.Success

/-!
# Bodies under guard

An operation changes the state by small steps of its own and by the bodies that it runs.  When the bodies are put
under guard, a body that changes the world in a way that is not allowed stops the operation.  An operation that is not
stopped ends as it does without the guard, and what it has done consists of its own steps and of what bodies may do.

* `Run.guarded` and `Run.Obeys` — the guard, and operations that it does not stop.
* `Run.noBody` — the guard that allows nothing.
* `Run.Traced` — an operation that ends as it does without the guard, and does only certain things.
* `Traced.bind` and the other rules — how an operation is traced if its parts are.
-/

namespace ObjectBridge

/-- A state with another world. -/
def State.withWorld (s : State) (w : World) : State :=
  { s with toWorld := w }

namespace Run

open Classical in
/-- To run bodies, but to stop at one that changes the world in a way that is not allowed. -/
noncomputable def guarded (G : World → World → Prop) (exec : Exec) : Exec := fun code =>
  ExceptT.mk fun s =>
    if G s.toWorld ((exec code).outcome s).2.toWorld then (exec code).outcome s else (.error .exhausted, s)

/-- A way of running bodies by which none runs: it stops instead. -/
def noBody : Exec := fun _ => throw .exhausted

/-- An operation comes to its end, and all bodies that it runs change the world only in a certain way. -/
def Obeys {α : Type} (G : World → World → Prop) (exec : Exec) (act : Exec → Run α) (s : State) : Prop :=
  ((act (guarded G exec)).outcome s).1 ≠ .error .exhausted

/-- What operations may do: nothing, one thing after another, and the same between changes that leave the world as it
is and take each other back.  Bodies may do it too, and so may a deferred constructor of which the state is kept. -/
structure Steady (R : State → State → Prop) (G : World → World → Prop) : Prop where
  refl : ∀ s, R s s
  trans : ∀ {s t u}, R s t → R t u → R s u
  within : ∀ {enter leave : State → State} {s t}, (enter s).toWorld = s.toWorld →
    (∀ t, (leave t).toWorld = t.toWorld) → (∀ w, leave ((enter s).withWorld w) = s.withWorld w) →
    R (enter s) t → R s (leave t)
  body : ∀ {s t : State}, G s.toWorld t.toWorld → R s t
  made : ∀ {s t : State} {q : Reference} {state : NativeState} {a : Arena}, G s.toWorld t.toWorld →
    t.arena.materialize q state = .ok a → R s { t with arena := a }

/-- An operation that the guard does not stop ends as it does without the guard, and does only what it may. -/
structure Traced {α : Type} (R : State → State → Prop) (G : World → World → Prop) (exec : Exec)
    (act : Exec → Run α) (s : State) : Prop where
  same : Obeys G exec act s → (act (guarded G exec)).outcome s = (act exec).outcome s
  related : Obeys G exec act s → R s ((act (guarded G exec)).outcome s).2

variable {α β : Type} {R : State → State → Prop} {G : World → World → Prop} {exec : Exec} {act : Exec → Run α}
  {s t : State}

/-! ## Guards -/

theorem outcome_guarded_of_allowed {code : Code} (hallowed : G s.toWorld ((exec code).outcome s).2.toWorld) :
    (guarded G exec code).outcome s = (exec code).outcome s :=
  if_pos hallowed

theorem outcome_guarded_of_not_allowed {code : Code} (hforbidden : ¬G s.toWorld ((exec code).outcome s).2.toWorld) :
    (guarded G exec code).outcome s = (.error .exhausted, s) :=
  if_neg hforbidden

/-- A guard that allows nothing stops at every body. -/
theorem guarded_nothing (exec : Exec) : guarded (fun _ _ => False) exec = noBody := by
  funext code
  refine congrArg ExceptT.mk (funext fun s => ?_)
  exact if_neg id

theorem obeys_nothing_iff :
    Obeys (fun _ _ => False) exec act s ↔ ((act noBody).outcome s).1 ≠ .error .exhausted := by
  rw [Obeys, guarded_nothing]

/-- An operation that the guard does not stop has done only what it may. -/
theorem Traced.related_of_outcome (hact : Traced R G exec act s) (hobeys : Obeys G exec act s) {r : Except Fault α}
    (hrun : (act exec).outcome s = (r, t)) : R s t := by
  have hrelated := hact.related hobeys
  rw [hact.same hobeys, hrun] at hrelated
  exact hrelated

/-! ## What operations may do -/

/-- An operation that does not have to run a body obeys any guard. -/
theorem obeys_of_noBody (hact : ∀ exec, Traced R (fun _ _ => False) exec act s)
    (hquiet : ((act noBody).outcome s).1 ≠ .error .exhausted) : Obeys G exec act s := by
  have hsame := (hact (guarded G exec)).same (obeys_nothing_iff.mpr hquiet)
  rw [guarded_nothing] at hsame
  rwa [Obeys, ← hsame]

/-- It depends on the worlds alone what operations may do. -/
theorem steady_of_world {R : World → World → Prop} (hrefl : ∀ w, R w w)
    (htrans : ∀ {w₁ w₂ w₃}, R w₁ w₂ → R w₂ w₃ → R w₁ w₃) (hbody : ∀ {w w'}, G w w' → R w w')
    (hmade : ∀ {w w' : World} {q state a}, G w w' → w'.arena.materialize q state = .ok a →
      R w { w' with arena := a }) :
    Steady (fun s t => R s.toWorld t.toWorld) G := by
  refine ⟨fun s => hrefl _, htrans, ?_, hbody, hmade⟩
  intro enter leave s t henter hleave _ h
  rw [hleave, ← henter]
  exact h

/-- Nothing but the world changes where no body runs. -/
theorem steady_of_nothing {R : World → World → Prop} (hrefl : ∀ w, R w w)
    (htrans : ∀ {w₁ w₂ w₃}, R w₁ w₂ → R w₂ w₃ → R w₁ w₃) :
    Steady (fun s t => t = s.withWorld t.toWorld ∧ R s.toWorld t.toWorld) fun _ _ => False := by
  refine ⟨fun s => ⟨rfl, hrefl _⟩, ?_, ?_, False.elim, fun h => h.elim⟩
  · rintro s t u ⟨ht, hst⟩ ⟨hu, htu⟩
    refine ⟨?_, htrans hst htu⟩
    rw [ht] at hu
    exact hu
  · rintro enter leave s t henter hleave hback ⟨ht, hst⟩
    refine ⟨?_, ?_⟩
    · rw [hleave, ← hback, ← ht]
    · rw [hleave, ← henter]
      exact hst

/-- Boxes stay as they are. -/
theorem steady_cells : Steady (fun s t => t.cells = s.cells) fun _ _ => False :=
  steady_of_world (R := fun w w' => w'.cells = w.cells) (fun _ => rfl) (fun hfirst hrest => hrest.trans hfirst)
    False.elim fun h => h.elim

/-- The boxes stay as they are in an operation that changes them through bodies alone, if no body has to run. -/
theorem cells_of_noBody (hact : Traced (fun s t => t.cells = s.cells) (fun _ _ => False) exec act s)
    {r : Except Fault α} (hquiet : ((act noBody).outcome s).1 ≠ .error .exhausted)
    (hrun : (act exec).outcome s = (r, t)) : t.cells = s.cells :=
  hact.related_of_outcome (obeys_nothing_iff.mpr hquiet) hrun

/-! ## Rules -/

theorem Obeys.of_bind {f : Exec → α → Run β} (hobeys : Obeys G exec (fun exec => act exec >>= f exec) s) :
    Obeys G exec act s :=
  ended_of_bind hobeys

theorem Obeys.of_within {enter leave : State → State}
    (hobeys : Obeys G exec (fun exec => Run.within enter leave (act exec)) s) : Obeys G exec act (enter s) :=
  ended_of_within hobeys

/-- What follows on the first part of an operation is not stopped either. -/
theorem Traced.obeys_of_bind {f : Exec → α → Run β} (hact : Traced R G exec act s)
    (hobeys : Obeys G exec (fun exec => act exec >>= f exec) s) {x : α}
    (hrun : (act exec).outcome s = (.ok x, t)) : Obeys G exec (fun exec => f exec x) t := by
  have hsame : (act (guarded G exec)).outcome s = (.ok x, t) := (hact.same hobeys.of_bind).trans hrun
  rw [Obeys, outcome_bind_of_ok hsame] at hobeys
  exact hobeys

theorem traced_of_stops (hstops : ¬Obeys G exec act s) : Traced R G exec act s :=
  ⟨fun hobeys => absurd hobeys hstops, fun hobeys => absurd hobeys hstops⟩

/-- An operation that runs no body. -/
theorem traced_of_step {act : Run α} (hstep : R s (act.outcome s).2) : Traced R G exec (fun _ => act) s :=
  ⟨fun _ => rfl, fun _ => hstep⟩

theorem traced_of_reads (hR : Steady R G) {act : Run α} (hact : Reads act) :
    Traced R G exec (fun _ => act) s := by
  obtain ⟨r, hr⟩ := hact s
  exact traced_of_step (by rw [hr]; exact hR.refl _)

theorem traced_pure (hR : Steady R G) (x : α) : Traced R G exec (fun _ => pure x) s :=
  traced_of_reads hR (reads_pure x)

theorem traced_fail (hR : Steady R G) (e : Error) : Traced R G exec (fun _ => (fail e : Run α)) s :=
  traced_of_reads hR (reads_fail e)

/-- An operation goes on from where another one ended. -/
theorem Traced.bind (hR : Steady R G) {f : Exec → α → Run β} (hact : Traced R G exec act s)
    (hf : ∀ x t, (act exec).outcome s = (.ok x, t) → Traced R G exec (fun exec => f exec x) t) :
    Traced R G exec (fun exec => act exec >>= f exec) s := by
  rcases heq : (act (guarded G exec)).outcome s with ⟨r, t⟩
  -- The split is on the run under guard: the rest is looked at only from where that one has come to.
  cases r with
  | ok x =>
      have hobeys : Obeys G exec act s := by simp [Obeys, heq]
      have hsame : (act exec).outcome s = (.ok x, t) := by rw [← hact.same hobeys, heq]
      have hst : R s t := hact.related_of_outcome hobeys hsame
      refine ⟨fun hended => ?_, fun hended => ?_⟩ <;> rw [Obeys, outcome_bind_of_ok heq] at hended <;>
        rw [outcome_bind_of_ok heq]
      · rw [outcome_bind_of_ok hsame]
        exact (hf x t hsame).same hended
      · exact hR.trans hst ((hf x t hsame).related hended)
  | error fault =>
      have hstops : (act (guarded G exec) >>= f (guarded G exec)).outcome s = (.error fault, t) := by
        rw [outcome_bind, heq]
      refine ⟨fun hended => ?_, fun hended => ?_⟩ <;> rw [hstops]
      · rw [outcome_bind, ← hact.same hended.of_bind, heq]
      · have hst := hact.related hended.of_bind
        rwa [heq] at hst

/-- Reading the state changes nothing. -/
theorem traced_get {f : Exec → State → Run β} (hf : Traced R G exec (fun exec => f exec s) s) :
    Traced R G exec (fun exec => get >>= f exec) s :=
  ⟨hf.same, hf.related⟩

theorem traced_bind_of_reads (hR : Steady R G) {act : Run α} (hact : Reads act) {f : Exec → α → Run β}
    (hf : ∀ x, act.outcome s = (.ok x, s) → Traced R G exec (fun exec => f exec x) s) :
    Traced R G exec (fun exec => act >>= f exec) s := by
  refine (traced_of_reads hR hact).bind hR fun x t heq => ?_
  obtain ⟨r, hr⟩ := hact s
  obtain rfl : s = t := (Prod.mk.inj (hr.symm.trans heq)).2
  exact hf x heq

/-- An operation that goes on unless it fails at once. -/
theorem traced_unless (hR : Steady R G) {c : Prop} [Decidable c] {e : Error} {f : Exec → PUnit → Run β}
    (hf : ¬c → Traced R G exec (fun exec => f exec ⟨⟩) s) :
    Traced R G exec (fun exec => if c then fail e >>= f exec else f exec ⟨⟩) s := by
  by_cases hc : c
  · simp only [if_pos hc]
    exact traced_bind_of_reads hR (reads_fail e) fun x hx => (not_outcome_fail hx).elim
  · simp only [if_neg hc]
    exact hf hc

theorem reads_unless {c : Prop} [Decidable c] {e : Error} {f : PUnit → Run β} (hf : ¬c → Reads (f ⟨⟩)) :
    Reads (if c then fail e >>= f else f ⟨⟩) := by
  by_cases hc : c
  · rw [if_pos hc]
    exact fun _ => ⟨.error e, rfl⟩
  · rw [if_neg hc]
    exact hf hc

/-- An operation between changes that leave the world as it is and take each other back. -/
theorem Traced.within (hR : Steady R G) {enter leave : State → State} (hact : Traced R G exec act (enter s))
    (henter : (enter s).toWorld = s.toWorld) (hleave : ∀ t, (leave t).toWorld = t.toWorld)
    (hback : ∀ w, leave ((enter s).withWorld w) = s.withWorld w) :
    Traced R G exec (fun exec => Run.within enter leave (act exec)) s := by
  refine ⟨fun hended => ?_, fun hended => ?_⟩
  · rw [outcome_within, outcome_within, hact.same hended.of_within]
  · have hrelated := hact.related hended.of_within
    have hended' := hended.of_within
    rw [outcome_within]
    rw [Obeys] at hended'
    rcases heq : (act (guarded G exec)).outcome (enter s) with ⟨r, t⟩
    rw [heq] at hrelated hended'
    match r with
    | .ok x => exact hR.within henter hleave hback hrelated
    | .error (.raised e) => exact hR.within henter hleave hback hrelated
    | .error .exhausted => exact absurd rfl hended'

theorem Traced.holding (hR : Steady R G) {values : List Value} (hact : Traced R G exec act (withHeld s values)) :
    Traced R G exec (fun exec => Run.holding values (act exec)) s :=
  hact.within hR rfl (fun _ => rfl) fun _ => rfl

theorem Traced.inNativeFrame (hR : Steady R G) (hact : ∀ s', s'.toWorld = s.toWorld → Traced R G exec act s') :
    Traced R G exec (fun exec => Run.inNativeFrame (act exec)) s := by
  refine Traced.within hR (hact _ ?_) ?_ (fun _ => rfl) fun _ => ?_ <;> rfl

theorem Traced.inHostFrame (hR : Steady R G) {frame : Frame}
    (hact : ∀ s', s'.toWorld = s.toWorld → Traced R G exec act s') :
    Traced R G exec (fun exec => Run.inHostFrame frame (act exec)) s := by
  refine traced_get ?_
  split
  · exact traced_fail hR _
  · refine Traced.within hR (hact _ ?_) ?_ (fun _ => rfl) fun _ => ?_ <;> rfl

/-- An operation on every value of a list. -/
theorem traced_mapHeld (hR : Steady R G) {f : Exec → Value → Run Value}
    (hf : ∀ v s, Traced R G exec (fun exec => f exec v) s) (vs : List Value) (s : State) :
    Traced R G exec (fun exec => mapHeld (f exec) vs) s := by
  induction vs generalizing s with
  | nil => exact traced_pure hR _
  | cons v rest ih =>
      exact ((hf v _).holding hR).bind hR fun u t _ =>
        ((ih _).holding hR).bind hR fun us t' _ => traced_pure hR _

/-! ## Bodies -/

/-- A body runs. -/
theorem traced_exec (hR : Steady R G) (code : Code) : Traced R G exec (fun exec => exec code) s := by
  by_cases hallowed : G s.toWorld ((exec code).outcome s).2.toWorld
  · refine ⟨fun _ => outcome_guarded_of_allowed hallowed, fun _ => ?_⟩
    rw [outcome_guarded_of_allowed hallowed]
    exact hR.body hallowed
  · refine traced_of_stops ?_
    rw [Obeys, outcome_guarded_of_not_allowed hallowed]
    exact not_not_intro rfl

theorem Traced.activate (hR : Steady R G) {act : Exec → Run Unit} {body : Activation}
    (hact : ∀ s', s'.toWorld = s.toWorld → Traced R G exec act s') :
    Traced R G exec (fun exec => Run.activate body (act exec)) s := by
  refine Traced.within hR ((hact _ ?_).bind hR fun _ t _ => ?_) ?_ (fun _ => rfl) fun _ => ?_
  · rfl
  · exact traced_get (f := fun _ s => pure (s.activations.headD body)) (traced_pure hR _)
  · rfl
  · rfl

theorem traced_runNative (hR : Steady R G) (code : Code) (recv : Option Handle) (args : List Value) :
    Traced R G exec (fun exec => Lifetime.runNative exec recv args code) s :=
  Traced.inNativeFrame hR fun _ _ => Traced.activate hR fun _ _ => traced_exec hR code

theorem traced_invoke (hR : Steady R G) (f : Callable) (recv : Option Handle) (args : List Value) :
    Traced R G exec (fun exec => invoke exec f recv args) s :=
  Traced.holding hR (Traced.activate hR fun _ _ => traced_exec hR f.code)

end Run

end ObjectBridge
