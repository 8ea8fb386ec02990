import Mathlib.Data.List.Forall2
import Mathlib.Logic.Relation
import ObjectBridge.Run

/-!
# Bodies inside of bodies

A body that starts brings its frame along, if bodies of its sort have one, and a body that ends takes it
away.  So the frames are those of the bodies that run, innermost body first.

* `State.running` — who runs in a state.
* `Running.Enters` — a body starts.
* `Running.Nested` — all that runs was started, one body inside of the other.
* `Nested.enter` and `Nested.leave` — what a body that starts and a body that ends leave nested.
-/

namespace ObjectBridge

namespace Frame

/-- Whether a frame counts as host code. -/
def isHost : Frame → Bool
  | native => false
  | override _ | host => true

end Frame

/-- Who runs: the frames, how many of them are host code, and the bodies, by their sort and the object that
they work on. -/
structure Running where
  options : Options
  frames : List Frame := []
  hostDepth : Nat := 0
  bodies : List (Mode × Option Handle) := []

/-- Who runs in a state. -/
def State.running (s : State) : Running where
  options := s.options
  frames := s.frames
  hostDepth := s.hostDepth
  bodies := s.activations.map fun a => (a.mode, a.receiver)

namespace Running

/-- A body starts. A native body, an override, a handler and a block start in a frame of their own, and the
last three only below the limit. Host code that is invoked for no object, and what is evaluated outside of any
body, have no frame. -/
inductive Enters (r : Running) : Running → Prop
  | native (recv : Option Handle) :
      Enters r { r with frames := .native :: r.frames, bodies := (.native, recv) :: r.bodies }
  | override (recv : Handle) (hdepth : r.hostDepth < r.options.maxDepth) :
      Enters r { r with
        frames := .override recv.target :: r.frames, hostDepth := r.hostDepth + 1
        bodies := (.host, some recv) :: r.bodies }
  | handler (recv : Handle) (hdepth : r.hostDepth < r.options.maxDepth) :
      Enters r { r with
        frames := .host :: r.frames, hostDepth := r.hostDepth + 1
        bodies := (.host, some recv) :: r.bodies }
  | block (hdepth : r.hostDepth < r.options.maxDepth) :
      Enters r { r with
        frames := .host :: r.frames, hostDepth := r.hostDepth + 1
        bodies := (.block, none) :: r.bodies }
  | direct : Enters r { r with bodies := (.host, none) :: r.bodies }
  | outside : Enters r { r with bodies := (.outside, none) :: r.bodies }

variable {r r' t : Running}

theorem Enters.options_eq (h : r.Enters t) : t.options = r.options := by
  cases h <;> rfl

theorem Enters.bodies_ne_nil (h : r.Enters t) : t.bodies ≠ [] := by
  cases h <;> exact List.cons_ne_nil _ _

/-- The body that started last tells what ran before. -/
theorem Enters.unique (h : r.Enters t) (h' : r'.Enters t) : r = r' := by
  obtain ⟨options, frames, hostDepth, bodies⟩ := r
  obtain ⟨options', frames', hostDepth', bodies'⟩ := r'
  generalize hsame : t = t' at h'
  cases h <;> cases h' <;> simp_all

/-- All that runs was started, one body inside of the other. -/
def Nested (r : Running) : Prop :=
  Relation.ReflTransGen Enters { options := r.options } r

theorem nested_idle (options : Options) : Nested { options := options } :=
  Relation.ReflTransGen.refl

/-- A body that starts is nested in those that run. -/
theorem Nested.enter (hr : r.Nested) (henter : r.Enters t) : t.Nested := by
  rw [Nested, henter.options_eq]
  exact hr.tail henter

/-- A body that ends leaves those that ran before it. -/
theorem Nested.leave (ht : t.Nested) (henter : r.Enters t) : r.Nested := by
  rw [Nested, ← henter.options_eq]
  rcases Relation.ReflTransGen.cases_tail ht with hidle | ⟨r', hr', henter'⟩
  · -- Nothing runs at the beginning, so nothing can end there.
    exact absurd (congrArg bodies hidle) henter.bodies_ne_nil
  · rwa [henter.unique henter']

/-- What holds when nothing runs and is kept by every body that starts holds of all that is nested. -/
theorem Nested.induction {P : Running → Prop} (hidle : ∀ options, P { options := options })
    (henter : ∀ r t, r.Enters t → P r → P t) (hr : r.Nested) : P r := by
  have hall : ∀ t, Relation.ReflTransGen Enters { options := r.options } t → P t := by
    intro t ht
    induction ht with
    | refl => exact hidle _
    | tail _ hlast ih => exact henter _ _ hlast ih
  exact hall r hr

/-- The depth is the number of frames of host code. -/
theorem Nested.hostDepth_eq (hr : r.Nested) : r.hostDepth = r.frames.countP Frame.isHost := by
  refine hr.induction (P := fun r => r.hostDepth = r.frames.countP Frame.isHost) (fun _ => rfl) ?_
  intro r t henter hdepth
  cases henter <;> simp [List.countP_cons, Frame.isHost, hdepth]

/-- Host code is never nested deeper than the limit. -/
theorem Nested.hostDepth_le (hr : r.Nested) : r.hostDepth ≤ r.options.maxDepth := by
  refine hr.induction (P := fun r => r.hostDepth ≤ r.options.maxDepth) (fun _ => Nat.zero_le _) ?_
  intro r t henter hdepth
  cases henter with
  | native | direct | outside => exact hdepth
  | override _ hbelow | handler _ hbelow | block hbelow => exact hbelow

/-- Whether a frame is the one of a body of a sort, for the object that the body works on. -/
def Belongs : Frame → Mode × Option Handle → Prop
  | .native, body => body.1 = .native
  | .override target, body => ∃ h : Handle, body = (.host, some h) ∧ h.target = target
  | .host, body => body = (.block, none) ∨ ∃ h, body = (.host, some h)

/-- Whether bodies of a sort run in a frame of their own. -/
def hasFrame : Mode × Option Handle → Bool
  | (.native, _) | (.block, _) | (.host, some _) => true
  | (.host, none) | (.outside, _) => false

/-- The frames are those of the bodies that have one, in the same order. -/
theorem Nested.forall₂_frames (hr : r.Nested) :
    List.Forall₂ Belongs r.frames (r.bodies.filter hasFrame) := by
  refine hr.induction (P := fun r => List.Forall₂ Belongs r.frames (r.bodies.filter hasFrame))
    (fun _ => .nil) ?_
  intro r t henter hframes
  cases henter with
  | native recv => exact .cons rfl hframes
  | override recv _ => exact .cons ⟨recv, rfl, rfl⟩ hframes
  | handler recv _ => exact .cons (Or.inr ⟨recv, rfl⟩) hframes
  | block _ => exact .cons (Or.inl rfl) hframes
  | direct | outside => exact hframes

end Running

end ObjectBridge
