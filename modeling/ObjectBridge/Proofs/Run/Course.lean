import ObjectBridge.Proofs.Arena.Deeds
import ObjectBridge.Proofs.Arena.Lineage
import ObjectBridge.Proofs.Class.Growth
import ObjectBridge.Proofs.Run.Nesting
import ObjectBridge.Proofs.Run.Success

/-!
# The course of a run

Much of what holds of a run holds because it holds of every change that the run makes.  A `Course` is a statement of
this sort: it says something of the state in which a run starts and of the state in which it stops, it holds of the
changes that operations make, and it holds of runs that go on from one another.  What follows from these laws is
proved once, for all courses.

* `Course` — what is said of runs, and the changes that it is true of.
* `Run.Takes` — a run takes a course.
* `Takes.bind` and the other rules — a run takes a course if its parts do.
* `takes_override`, `takes_handler` and `takes_invoke` — runs of bodies.
-/

namespace ObjectBridge

/-- The class of a new object and the overrides that it is stored with. -/
def NewInstance.lineage (new : NewInstance) : Lineage :=
  ⟨new.cls, new.className, new.kind, new.overrides⟩

/-- What the objects of a class take from it. -/
def ClassInfo.lineage (c : ClassInfo) : Lineage :=
  ⟨c.id, c.name, c.kind, c.overrides⟩

/-- What is said of runs by the states in which they start and stop.  It depends on the classes, the objects and the
bodies that run alone, and not on values. -/
structure Course where
  /-- The states in which runs may start. -/
  From : State → Prop
  /-- What may be done to the handlers of an event of an object. -/
  Allows : Reference → String → (Handlers → Handlers) → Prop
  /-- What is said of a run from one state to another one, and of whether it has come to its end. -/
  Leads : State → Prop → State → Prop
  /-- To look at handlers is allowed always. -/
  allows_id {r : Reference} {event : String} : Allows r event id
  from_of_leads {s t : State} : From s → Leads s True t → From t
  from_of_world {s t : State} : From s → t.toWorld = s.toWorld → From t
  weaken {s t : State} {ended ended' : Prop} : (ended' → ended) → Leads s ended t → Leads s ended' t
  trans {s t u : State} {ended : Prop} : Leads s True t → Leads t ended u → Leads s ended u
  /-- Values change, in variables, in boxes, in the hands of an operation. -/
  vary {s t : State} : t.classes = s.classes → t.arena = s.arena → t.running = s.running → Leads s True t
  /-- Objects change or are removed. -/
  quiet {s : State} {a : Arena} : s.arena.Act [] a → Leads s True { s with arena := a }
  /-- The handlers of an event change. -/
  edit {s : State} {r : Reference} {event : String} {f : Handlers → Handlers} {i : Instance} :
    s.arena.get? r = some i → Allows r event f →
    Leads s True { s with arena := s.arena.modify r fun j => j.setHandlers event (f (i.connected event)) }
  /-- An object of a class is stored, with the overrides that the class had at an earlier time, if the class stands
  under its own number. -/
  store {s t : State} {cls : ClassId} {c : ClassInfo} {new : NewInstance} {h : Handle} {a : Arena} :
    From s → Leads s True t → s.classes.descriptor cls = .ok c → (c.id = cls → new.lineage = c.lineage) →
    t.arena.register new = .ok (h, a) → Leads t True { t with arena := a }
  /-- A copy of an object is stored, with the overrides of the object. -/
  copy {s : State} {r : Reference} {i : Instance} {c : ClassInfo} {new : NewInstance} {h : Handle} {a : Arena} :
    s.arena.get? r = some i → s.classes.descriptor i.cls = .ok c →
    new.lineage = { c.lineage with overrides := i.overrides } →
    s.arena.register new = .ok (h, a) → Leads s True { s with arena := a }
  /-- A class is registered. -/
  define {s : State} {d : ClassDraft} {id : ClassId} {t : ClassTable} :
    s.classes.define d = .ok (id, t) → Leads s True { s with classes := t }
  /-- A class with overrides is registered. -/
  defineSubclass {s : State} {name base : String} {overrides : List (String × Callable)} {id : ClassId}
    {t : ClassTable} : s.classes.defineSubclass name base overrides = .ok (id, t) →
    Leads s True { s with classes := t }
  /-- A body starts that does not come to its end. -/
  stopped {s t u : State} : t.toWorld = s.toWorld → s.running.Enters t.running → Leads t False u → Leads s False u
  /-- A body starts, and ends. -/
  finished {s t u v : State} : t.toWorld = s.toWorld → s.running.Enters t.running → Leads t True u →
    v.toWorld = u.toWorld → (u.running = t.running → v.running = s.running) → Leads s True v

namespace Course

variable (C : Course) {s : State} {a : Arena}

theorem refl (s : State) : C.Leads s True s :=
  C.vary rfl rfl rfl

/-- Objects change or are removed, one after the other. -/
theorem leads_of_does (hdoes : s.arena.Does [] a) : C.Leads s True { s with arena := a } := by
  generalize hds : ([] : List Deed) = ds at hdoes
  induction hdoes with
  | refl => exact C.refl s
  | tail hfirst hlast ih =>
      obtain ⟨rfl, rfl⟩ := List.append_eq_nil_iff.mp hds.symm
      exact C.trans (ih rfl) (C.quiet (s := { s with arena := _ }) hlast)

/-- All changes of handlers are allowed. -/
def AllowsAll : Prop :=
  ∀ r event (c : Handlers.Change), C.Allows r event fun hs => hs.change c

end Course

namespace Run

variable {α β : Type} {C : Course} {s : State}

/-- A run takes a course, wherever it stops. -/
def Takes (C : Course) (act : Run α) (s : State) : Prop :=
  C.From s → C.Leads s ((act.outcome s).1 ≠ .error .exhausted) (act.outcome s).2

/-- Bodies take a course, in any state. -/
def TakesAll (C : Course) (exec : Exec) : Prop :=
  ∀ code s, Takes C (exec code) s

/-! ## Rules -/

/-- A course is taken wherever runs may start. -/
theorem Takes.of_from {act : Run α} (hact : C.From s → Takes C act s) : Takes C act s :=
  fun hfrom => hact hfrom hfrom

/-- A run that is nothing but one change. -/
theorem takes_of_leads {act : Run α} {t : State} {r : Except Fault α} (hact : act.outcome s = (r, t))
    (hleads : C.Leads s True t) : Takes C act s := by
  intro _
  rw [hact]
  exact C.weaken (fun _ => True.intro) hleads

theorem takes_of_reads {act : Run α} (hact : Reads act) : Takes C act s := by
  obtain ⟨r, hr⟩ := hact s
  exact takes_of_leads hr (C.refl s)

/-- A run goes on from where another one ended. -/
theorem Takes.bind {act : Run α} {f : α → Run β} (hact : Takes C act s)
    (hf : ∀ x t, act.outcome s = (.ok x, t) → C.Leads s True t → Takes C (f x) t) :
    Takes C (act >>= f) s := by
  intro hfrom
  have hfirst := hact hfrom
  rw [outcome_bind]
  rcases heq : act.outcome s with ⟨result, t⟩
  rw [heq] at hfirst
  cases result with
  | error fault =>
      exact C.weaken (fun hended hstopped => hended (by rw [Except.error.inj hstopped])) hfirst
  | ok x =>
      have hlater : C.Leads s True t := C.weaken (fun _ => by simp) hfirst
      exact C.trans hlater (hf x t heq hlater (C.from_of_leads hfrom hlater))

theorem takes_bind_of_reads {act : Run α} {f : α → Run β} (hact : Reads act)
    (hf : ∀ x, act.outcome s = (.ok x, s) → Takes C (f x) s) : Takes C (act >>= f) s := by
  refine (takes_of_reads hact).bind ?_
  intro x t hx _
  obtain ⟨r, hr⟩ := hact s
  obtain rfl := (Prod.mk.inj (hx.symm.trans hr)).2
  exact hf x hx

theorem takes_get {f : State → Run β} (hf : Takes C (f s) s) : Takes C (get >>= f) s := hf

theorem takes_pure (x : α) : Takes C (pure x) s :=
  takes_of_reads (reads_pure x)

theorem takes_fail (e : Error) : Takes C (Run.fail e : Run α) s :=
  takes_of_reads (reads_fail e)

/-- A run whose result is only wrapped. -/
theorem Takes.map {act : Run α} {g : α → β} (hact : Takes C act s) :
    Takes C (act >>= fun x => pure (g x)) s :=
  hact.bind fun x _ _ _ => takes_pure (g x)

/-- A run of which the result is looked at in the state that it leaves. -/
theorem Takes.look {act : Run α} {g : α → State → β} (hact : Takes C act s) :
    Takes C (act >>= fun x => get >>= fun t => pure (g x t)) s :=
  hact.bind fun x t _ _ => takes_get (takes_pure (g x t))

theorem takes_bind_ofExcept {r : Except Error α} {f : α → Run β}
    (hf : ∀ x, r = .ok x → Takes C (f x) s) : Takes C (Run.ofExcept r >>= f) s :=
  takes_bind_of_reads (reads_ofExcept r) fun x hx => hf x (eq_of_outcome_ofExcept hx).1

theorem takes_bind_orFail {e : Error} {o : Option α} {f : α → Run β}
    (hf : ∀ x, o = some x → Takes C (f x) s) : Takes C (Run.orFail e o >>= f) s :=
  takes_bind_of_reads (reads_orFail e o) fun x hx => hf x (eq_of_outcome_orFail hx).1

/-- A run that goes on unless it fails at once. -/
theorem takes_unless {c : Prop} [Decidable c] {e : Error} {f : PUnit → Run β}
    (hf : ¬c → Takes C (f ⟨⟩) s) : Takes C (if c then Run.fail e >>= f else f ⟨⟩) s := by
  by_cases hc : c
  · rw [if_pos hc]
    exact (takes_fail e).bind fun x t hx _ => (not_outcome_fail hx).elim
  · rw [if_neg hc]
    exact hf hc

/-- Values change. -/
theorem takes_modify {f : State → State} (hclasses : (f s).classes = s.classes)
    (harena : (f s).arena = s.arena) (hrunning : (f s).running = s.running) :
    Takes C (modify f : Run PUnit) s :=
  takes_of_leads (t := f s) rfl (C.vary hclasses harena hrunning)

/-- Objects change, are stored or are removed. -/
theorem takes_setArena {a : Arena} (hleads : C.Leads s True { s with arena := a }) : Takes C (setArena a) s :=
  takes_of_leads rfl hleads

/-- Classes are registered. -/
theorem takes_setClasses {classes : ClassTable} (hleads : C.Leads s True { s with classes := classes }) :
    Takes C (modify fun s => { s with classes := classes } : Run PUnit) s :=
  takes_of_leads rfl hleads

/-- Values change, and the running body is left alone but for its variables. -/
theorem takes_modifyActivation {f : Activation → Activation}
    (hf : ∀ a, (f a).mode = a.mode ∧ (f a).receiver = a.receiver) :
    Takes C (modifyActivation f) s := by
  refine takes_modify rfl rfl ?_
  show State.running _ = _
  cases hactivations : s.activations with
  | nil => simp [State.running, hactivations]
  | cons a rest => simp [State.running, hactivations, hf a]

theorem takes_tick : Takes C tick s := by
  rcases hsteps : s.stepsLeft with _ | _ | n
  · exact takes_of_leads (t := s) (by rw [outcome_tick, hsteps]) (C.refl s)
  · exact takes_of_leads (t := s) (by rw [outcome_tick, hsteps]) (C.refl s)
  · exact takes_of_leads (t := { s with stepsLeft := some n }) (by rw [outcome_tick, hsteps])
      (C.vary rfl rfl rfl)

/-- A run whose error is told instead of raised. -/
theorem Takes.attempt {act : Run α} (hact : Takes C act s) : Takes C (Run.attempt act) s := by
  intro hfrom
  have hinner := hact hfrom
  rw [outcome_attempt]
  rcases heq : act.outcome s with ⟨result, t⟩
  rw [heq] at hinner
  match result with
  | .ok x => exact C.weaken (fun _ => by simp) hinner
  | .error (.raised e) => exact C.weaken (fun _ => by simp) hinner
  | .error .exhausted => exact C.weaken (fun hended => absurd rfl hended) hinner

/-! ## Runs inside of others -/

/-- A run between two changes, of which the second one is made if the run comes to its end. -/
theorem Takes.within {act : Run α} {enter leave : State → State} (hact : Takes C act (enter s))
    (hfrom : C.From s → C.From (enter s)) (hstopped : ∀ t, C.Leads (enter s) False t → C.Leads s False t)
    (hended : ∀ t, C.Leads (enter s) True t → C.Leads s True (leave t)) :
    Takes C (Run.within enter leave act) s := by
  intro hs
  have hinner := hact (hfrom hs)
  rw [outcome_within]
  rcases heq : act.outcome (enter s) with ⟨result, t⟩
  rw [heq] at hinner
  match result with
  | .ok x => exact C.weaken (fun _ => True.intro) (hended t (C.weaken (fun _ => by simp) hinner))
  | .error (.raised e) => exact C.weaken (fun _ => True.intro) (hended t (C.weaken (fun _ => by simp) hinner))
  | .error .exhausted =>
      exact C.weaken (fun hended => hended rfl) (hstopped t (C.weaken False.elim hinner))

/-- Values are put aside for the time of a run. -/
theorem Takes.within_values {act : Run α} {enter leave : State → State}
    (hact : Takes C act (enter s))
    (henter : ∀ t : State, (enter t).toWorld = t.toWorld ∧ (enter t).running = t.running)
    (hleave : ∀ t : State, (leave t).toWorld = t.toWorld ∧ (leave t).running = t.running) :
    Takes C (Run.within enter leave act) s := by
  have hvary {t u : State} (h : u.toWorld = t.toWorld ∧ u.running = t.running) : C.Leads t True u :=
    C.vary (congrArg World.classes h.1) (congrArg World.arena h.1) h.2
  have hbefore := hvary (henter s)
  refine hact.within (fun hs => C.from_of_leads hs hbefore) (fun t ht => C.trans hbefore ht) fun t ht => ?_
  exact C.trans hbefore (C.trans ht (hvary (hleave t)))

theorem Takes.holding {act : Run α} {values : List Value}
    (hact : Takes C act (withHeld s values)) : Takes C (holding values act) s :=
  Takes.within_values hact (fun _ => ⟨rfl, rfl⟩) fun _ => ⟨rfl, rfl⟩

/-- Two changes for the time of a run are one. -/
theorem within_within (enter leave enter' leave' : State → State) (act : Run α) :
    Run.within enter leave (Run.within enter' leave' act) =
      Run.within (fun s => enter' (enter s)) (fun s => leave (leave' s)) act := by
  have hsame (s : State) : (Run.within enter leave (Run.within enter' leave' act)).outcome s =
      (Run.within (fun s => enter' (enter s)) (fun s => leave (leave' s)) act).outcome s := by
    rw [outcome_within, outcome_within, outcome_within]
    rcases act.outcome (enter' (enter s)) with ⟨result, t⟩
    match result with
    | .ok x => rfl
    | .error (.raised e) => rfl
    | .error .exhausted => rfl
  exact funext hsame

/-! ## Bodies -/

/-- A change of the state by which a body of a sort starts, and the one by which it ends, both without its
frame. -/
structure Starts (body : Mode × Option Handle) (enter leave : State → State) : Prop where
  world_enter : ∀ u, (enter u).toWorld = u.toWorld
  world_leave : ∀ u, (leave u).toWorld = u.toWorld
  running_enter : ∀ u, (enter u).running = { u.running with bodies := body :: u.running.bodies }
  running_leave : ∀ u, (leave u).running = { u.running with bodies := u.running.bodies.tail }

theorem starts_activation (body : Activation) :
    Starts (body.mode, body.receiver)
      (fun u => { u with activations := body :: u.activations })
      (fun u => { u with activations := u.activations.tail }) where
  world_enter _ := rfl
  world_leave _ := rfl
  running_enter _ := rfl
  running_leave _ := by simp [State.running]

/-- Values can be put aside before a body starts. -/
theorem Starts.held {body : Mode × Option Handle} {enter leave : State → State}
    (h : Starts body enter leave) (values : List Value) :
    Starts body (fun u => enter { u with held := values :: u.held })
      (fun u => { leave u with held := (leave u).held.tail }) where
  world_enter _ := h.world_enter _
  world_leave u := h.world_leave u
  running_enter _ := h.running_enter _
  running_leave u := h.running_leave u

variable {body : Mode × Option Handle} {enter leave : State → State} {act : Run α}

/-- A body starts, and what it started with is taken back when it ends. -/
theorem Takes.within_enters (hact : Takes C act (enter s)) (hworld : (enter s).toWorld = s.toWorld)
    (henter : s.running.Enters (enter s).running) (hleave : ∀ t, (leave t).toWorld = t.toWorld)
    (hback : ∀ t, t.running = (enter s).running → (leave t).running = s.running) :
    Takes C (Run.within enter leave act) s :=
  hact.within (fun hs => C.from_of_world hs hworld) (fun _ ht => C.stopped hworld henter ht)
    fun t ht => C.finished hworld henter ht (hleave t) (hback t)

/-- A body runs in no frame. -/
theorem Takes.within_body (hstarts : Starts body enter leave) (hact : Takes C act (enter s))
    (henter : s.running.Enters { s.running with bodies := body :: s.running.bodies }) :
    Takes C (Run.within enter leave act) s := by
  rw [← hstarts.running_enter] at henter
  refine hact.within_enters (hstarts.world_enter s) henter hstarts.world_leave fun t ht => ?_
  rw [hstarts.running_leave, ht, hstarts.running_enter]
  rfl

/-- A body runs in a native frame. -/
theorem Takes.inNativeFrame {recv : Option Handle} (hstarts : Starts (.native, recv) enter leave)
    (hact : ∀ u, Takes C act u) : Takes C (inNativeFrame (Run.within enter leave act)) s := by
  rw [Run.inNativeFrame, within_within]
  have henter : (enter { s with frames := .native :: s.frames }).running =
      { s.running with
        frames := .native :: s.frames, bodies := (.native, recv) :: s.running.bodies } :=
    hstarts.running_enter _
  refine (hact _).within_enters (hstarts.world_enter _) (henter ▸ .native recv)
    (fun t => hstarts.world_leave t) fun t ht => ?_
  show { (leave t).running with frames := (leave t).running.frames.tail } = s.running
  rw [hstarts.running_leave, ht, henter]
  rfl

/-- A body runs in a frame of host code, or not at all. -/
theorem Takes.inHostFrame {frame : Frame} (hstarts : Starts body enter leave)
    (hact : ∀ u, Takes C act u)
    (hframe : ∀ r : Running, r.hostDepth < r.options.maxDepth → r.Enters { r with
      frames := frame :: r.frames, hostDepth := r.hostDepth + 1, bodies := body :: r.bodies }) :
    Takes C (inHostFrame frame (Run.within enter leave act)) s := by
  refine takes_get ?_
  split
  · exact takes_fail _
  · rename_i hbelow
    rw [within_within]
    have henter : (enter { s with frames := frame :: s.frames, hostDepth := s.hostDepth + 1 }).running =
        { s.running with
          frames := frame :: s.frames, hostDepth := s.hostDepth + 1
          bodies := body :: s.running.bodies } :=
      hstarts.running_enter _
    have hstart := hframe s.running (Nat.lt_of_not_le hbelow)
    refine (hact _).within_enters (hstarts.world_enter _) (henter ▸ hstart)
      (fun t => hstarts.world_leave t) fun t ht => ?_
    show { (leave t).running with
      frames := (leave t).running.frames.tail
      hostDepth := (leave t).running.hostDepth - 1 } = s.running
    rw [hstarts.running_leave, ht, henter]
    rfl

section Exec

variable {exec : Exec} (hexec : TakesAll C exec)

include hexec

/-- The code of a body, after which the activation is read off. -/
theorem takes_code (body : Activation) (code : Code) (u : State) :
    Takes C (do exec code; return (← get).activations.headD body) u :=
  (hexec code u).look

/-- Host code that is invoked for no object runs in the frame of its caller. -/
theorem takes_invoke (f : Callable) (args : List Value) :
    Takes C (Run.invoke exec f none args) s := by
  rw [Run.invoke, Run.holding, activate, within_within]
  exact Takes.within_body ((starts_activation _).held f.values) (takes_code hexec _ _ _) .direct

/-- An override runs in a frame of its object. -/
theorem takes_override (recv : Handle) (f : Callable) (args : List Value) :
    Takes C (Run.inHostFrame (.override recv.target) (Run.invoke exec f (some recv) args)) s := by
  rw [Run.invoke, Run.holding, activate, within_within]
  exact Takes.inHostFrame ((starts_activation _).held f.values) (takes_code hexec _ _)
    fun r hdepth => .override recv hdepth

/-- An event handler runs in a frame of host code. -/
theorem takes_handler (recv : Handle) (f : Callable) (args : List Value) :
    Takes C (Run.inHostFrame .host (Run.invoke exec f (some recv) args)) s := by
  rw [Run.invoke, Run.holding, activate, within_within]
  exact Takes.inHostFrame ((starts_activation _).held f.values) (takes_code hexec _ _)
    fun r hdepth => .handler recv hdepth

end Exec

/-- What is done with the result of host code can be done outside of its frame. -/
theorem inHostFrame_map (frame : Frame) (act : Run α) (g : α → β) :
    Run.inHostFrame frame (act >>= fun x => pure (g x)) =
      Run.inHostFrame frame act >>= fun x => pure (g x) := by
  have hsame (s : State) : (Run.inHostFrame frame (act >>= fun x => pure (g x))).outcome s =
      (Run.inHostFrame frame act >>= fun x => pure (g x)).outcome s := by
    rw [outcome_bind, Run.inHostFrame, Run.inHostFrame, outcome_get_bind, outcome_get_bind]
    split
    · rfl
    · rw [outcome_within, outcome_within, outcome_bind]
      rcases act.outcome { s with frames := frame :: s.frames, hostDepth := s.hostDepth + 1 } with
        ⟨result, t⟩
      match result with
      | .ok x => rfl
      | .error (.raised e) => rfl
      | .error .exhausted => rfl
  exact funext hsame

/-! ## Lists -/

/-- An operation on every value of a list. -/
theorem takes_mapHeld {f : Value → Run Value} (hf : ∀ v u, Takes C (f v) u) (vs : List Value) :
    Takes C (mapHeld f vs) s := by
  induction vs generalizing s with
  | nil => exact takes_pure _
  | cons v rest ih =>
      refine (hf v _).holding.bind fun u t _ _ => ?_
      exact ih.holding.map

end Run

end ObjectBridge
