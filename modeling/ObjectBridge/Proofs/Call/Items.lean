import ObjectBridge.Call.Stream
import ObjectBridge.Proofs.Run.Success
import ObjectBridge.Proofs.Value.Alike

/-!
# Items without objects

To deliver an item of a type without objects is to look at the boxes that it leads to, and nothing else.  So the item
is delivered alike in states in which these look alike.

* `Run.Sees` — a run changes nothing, and ends alike in states that are alike.
* `Delivery.Legible` — values that are converted alike in states that are alike.
* `Delivery.sees_giveBack` — they are delivered alike.
* `Stream.delivered` — what an item is delivered as.
-/

namespace ObjectBridge

namespace Run

variable {α β : Type} {same : State → State → Prop} {s t : State}

/-- A run that changes nothing and cannot be stopped, and that ends alike in states that are alike. -/
structure Sees (same : State → State → Prop) (act : Run α) : Prop where
  reads : Reads act
  result_eq : ∀ {s t}, same s t → (act.outcome s).1 = (act.outcome t).1

theorem Reads.state_eq {act : Run α} (hact : Reads act) (s : State) : (act.outcome s).2 = s := by
  obtain ⟨r, hr⟩ := hact s
  rw [hr]

theorem sees_pure (x : α) : Sees same (pure x : Run α) :=
  ⟨reads_pure x, fun _ => rfl⟩

theorem sees_fail (e : Error) : Sees same (Run.fail e : Run α) :=
  ⟨reads_fail e, fun _ => rfl⟩

theorem Sees.bind {act : Run α} {f : α → Run β} (hact : Sees same act) (hf : ∀ x, Sees same (f x)) :
    Sees same (act >>= f) where
  reads := hact.reads.bind fun x => (hf x).reads
  result_eq := by
    intro s t hsame
    have hfirst := hact.result_eq hsame
    have hs := hact.reads.state_eq s
    have ht := hact.reads.state_eq t
    rw [outcome_bind, outcome_bind]
    rcases hrun : act.outcome s with ⟨result, u⟩
    rcases hrun' : act.outcome t with ⟨result', u'⟩
    rw [hrun] at hfirst hs
    rw [hrun'] at hfirst ht
    obtain rfl : result = result' := hfirst
    obtain rfl : u = s := hs
    obtain rfl : u' = t := ht
    cases result with
    | ok x => exact (hf x).result_eq hsame
    | error fault => rfl

/-- A run that only reads comes to its end. -/
theorem ended_of_reads {act : Run α} (hact : Reads act) (leave : State → State) (s : State) :
    ended leave (act.outcome s) = ((act.outcome s).1, leave s) := by
  obtain ⟨r, hr⟩ := hact s
  rw [hr]
  cases r <;> rfl

theorem outcome_holding_of_reads {act : Run α} (hact : Reads act) (values : List Value) (s : State) :
    (holding values act).outcome s = ((act.outcome (withHeld s values)).1, s) :=
  ended_of_reads hact withoutHeld (withHeld s values)

/-- Whether states are alike does not depend on the values in the hands of unfinished operations. -/
def UpToHeld (same : State → State → Prop) : Prop :=
  ∀ s t values, same s t → same (withHeld s values) (withHeld t values)

theorem Sees.holding {act : Run α} (hact : Sees same act) (hheld : UpToHeld same) (values : List Value) :
    Sees same (holding values act) where
  reads s := by
    obtain ⟨r, hr⟩ := hact.reads (withHeld s values)
    exact ⟨r, by rw [outcome_holding_of_reads hact.reads, hr]⟩
  result_eq hsame := by
    rw [outcome_holding_of_reads hact.reads, outcome_holding_of_reads hact.reads]
    exact hact.result_eq (hheld _ _ values hsame)

theorem sees_mapHeld {f : Value → Run Value} {vs : List Value} (hheld : UpToHeld same)
    (hf : ∀ v ∈ vs, Sees same (f v)) : Sees same (mapHeld f vs) := by
  induction vs with
  | nil => exact sees_pure []
  | cons v rest ih =>
      obtain ⟨hv, hrest⟩ := List.forall_mem_cons.mp hf
      refine (hv.holding hheld rest).bind fun u => ?_
      exact ((ih hrest).holding hheld [u]).bind fun us => sees_pure (u :: us)

end Run

namespace Delivery

open Run Conversion

variable {exec : Exec} {same : State → State → Prop} {P : Value → Prop} {owner method : String} {v : Value}

/-- Values of a sort, and the items of those that are lists, are alike in states that are alike. -/
structure Legible (same : State → State → Prop) (P : Value → Prop) : Prop where
  held : UpToHeld same
  item : ∀ items, P (.list items) → ∀ v ∈ items, P v
  alike : ∀ s t, same s t → Alike P s.toWorld t.toWorld

/-- In one world all values are alike. -/
theorem legible_toWorld : Legible (fun s t => s.toWorld = t.toWorld) fun _ => True where
  held _ _ _ hsame := hsame
  item _ _ _ _ := trivial
  alike s t hsame := by
    rw [hsame]
    exact ⟨⟨fun _ => trivial, ⟨fun _ _ _ => trivial, fun _ => trivial⟩,
      ⟨fun _ _ _ => ⟨trivial, trivial⟩, fun _ => trivial⟩, fun _ => trivial⟩, fun _ _ => Or.inl rfl, fun _ _ _ _ => rfl⟩

/-- Values without boxes are alike everywhere. -/
theorem legible_withoutBoxes : Legible (fun _ _ => True) fun v => ∀ b ∈ v.boxes, False where
  held _ _ _ _ := trivial
  item _ h := (alike_withoutBoxes {} {}).carried.list_iff.mp h
  alike s t _ := alike_withoutBoxes s.toWorld t.toWorld

/-- Values are alike as long as they are not disturbed. -/
theorem legible_undisturbed {u : State} {values : List Value} (hclosed : u.cells.Closed)
    (hbelow : ∀ v ∈ values, ∀ b ∈ v.boxes, b < u.cells.size) :
    Legible (fun s t => s.toWorld = u.toWorld ∧ Cells.Undisturbed values u.cells t.cells)
      fun v => ∀ b ∈ v.boxes, u.cells.Leads values (.box b) where
  held _ _ _ hsame := hsame
  item _ h := (Cells.carried_boxes fun _ _ hb hc => hb.holds hc).list_iff.mp h
  alike s t hsame := by
    rw [hsame.1]
    have hundisturbed : Cells.Undisturbed values u.toWorld.cells t.toWorld.cells := hsame.2
    exact hundisturbed.alike hclosed hbelow

variable (hlegible : Legible same P)

include hlegible

theorem sees_converted {type : Ty} (htype : WithoutObjects type) (hv : P v) : Sees same (give.converted type v) where
  reads s := by
    rw [give.converted, outcome_get_bind]
    split
    · exact ⟨.ok _, rfl⟩
    · exact ⟨.error _, rfl⟩
  result_eq {s t} hsame := by
    rw [give.converted, outcome_get_bind, outcome_get_bind, (hlegible.alike s t hsame).convert_eq htype hv]
    split <;> rfl

theorem sees_give {type : Ty} (passing : Passing) (htype : WithoutObjects type) (hv : P v) :
    Sees same (give exec owner method type passing v) := by
  induction type generalizing v with
  | any => exact sees_pure v
  | object cls => exact htype.elim
  | list item ih =>
      cases v with
      | list items =>
          refine Sees.bind ?_ fun us => sees_pure (Value.list us)
          exact sees_mapHeld hlegible.held fun u hu => ih htype (hlegible.item items hv u hu)
      | _ => exact sees_converted hlegible htype hv
  | _ => exact sees_converted hlegible htype hv

/-- A result of a type without objects is delivered alike in states that are alike. -/
theorem sees_giveBack {result : Result} (hresult : ∀ declared ∈ result, WithoutObjects declared.1) (hv : P v) :
    Sees same (giveBack exec result owner method v) := by
  cases result with
  | none => exact sees_pure Value.nil
  | some declared => exact sees_give hlegible declared.2 (hresult declared rfl) hv

end Delivery

namespace Stream

open Run Delivery Conversion

variable {exec : Exec} {result : Result} {owner method : String} {s t : State} {item : Except Error Value}
  {same : State → State → Prop} {P : Value → Prop}

/-- Deliver an item, or raise the error that is in its place. -/
def deliver (exec : Exec) (result : Result) (owner method : String) (item : Except Error Value) : Run Value := do
  giveBack exec result owner method (← Run.ofExcept item)

/-- What an item is delivered as in a state. -/
def delivered (exec : Exec) (result : Result) (owner method : String) (s : State) (item : Except Error Value) :
    Except Fault Value :=
  ((deliver exec result owner method item).outcome s).1

/-- An item that is not an error is of a sort. -/
def OfSort (P : Value → Prop) (item : Except Error Value) : Prop :=
  ∀ v, item = .ok v → P v

theorem sees_deliver (hlegible : Legible same P) (hresult : ∀ declared ∈ result, WithoutObjects declared.1)
    (hitem : OfSort P item) : Sees same (deliver exec result owner method item) := by
  cases item with
  | error e => exact sees_fail e
  | ok v => exact sees_giveBack hlegible hresult (hitem v rfl)

/-- An item of a type without objects changes nothing when it is delivered. -/
theorem reads_deliver (hresult : ∀ declared ∈ result, WithoutObjects declared.1) (item : Except Error Value) :
    Reads (deliver exec result owner method item) :=
  (sees_deliver legible_toWorld hresult fun _ _ => trivial).reads

theorem outcome_deliver (hresult : ∀ declared ∈ result, WithoutObjects declared.1) (item : Except Error Value)
    (s : State) :
    (deliver exec result owner method item).outcome s = (delivered exec result owner method s item, s) :=
  Prod.ext rfl ((reads_deliver hresult item).state_eq s)

/-- An item is delivered alike in states that are alike for its sort. -/
theorem delivered_eq (hlegible : Legible same P) (hresult : ∀ declared ∈ result, WithoutObjects declared.1)
    (hitem : OfSort P item) (hsame : same s t) :
    delivered exec result owner method s item = delivered exec result owner method t item :=
  (sees_deliver hlegible hresult hitem).result_eq hsame

/-- What is delivered does not depend on the values in the hands of unfinished operations. -/
theorem delivered_withHeld (hresult : ∀ declared ∈ result, WithoutObjects declared.1) (values : List Value)
    (s : State) (item : Except Error Value) :
    delivered exec result owner method (withHeld s values) item = delivered exec result owner method s item :=
  delivered_eq legible_toWorld hresult (fun _ _ => trivial) rfl

end Stream

end ObjectBridge
