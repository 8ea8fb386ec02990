import ObjectBridge.Call.Delivery

/-!
# Streams of items

An enumerable body yields a stream, which gives its items one at a time. A list gives its items in
order, with errors in the place of some of them; a count gives the numbers from zero on, below a
limit.
-/

namespace ObjectBridge

/-- Items that are given one at a time. -/
inductive Stream where
  /-- The items left of a list, each with the error that is given in its place, if there is one. -/
  | items (rest : List (Value × Option Error))
  /-- The next number and how many numbers are left. -/
  | counting (next : Int) (left : Nat)

namespace Stream

/-- The number of items left. -/
def size : Stream → Nat
  | items rest => rest.length
  | counting _ left => left

/-- The next item, or its error, and the rest of the stream. -/
def next? : Stream → Option (Except Error Value × Stream)
  | items [] => none
  | items ((v, failure) :: rest) => some (failure.elim (.ok v) .error, items rest)
  | counting _ 0 => none
  | counting n (left + 1) => some (.ok (.int (Int64.ofInt n)), counting (n + 1) left)

/-- The values that are in use by a stream, those included that an error is given for. -/
def values : Stream → List Value
  | items rest => rest.map Prod.fst
  | counting _ _ => []

/-- Giving an item leaves fewer items. -/
theorem size_lt_of_next? {s rest : Stream} {item : Except Error Value}
    (h : s.next? = some (item, rest)) : rest.size < s.size := by
  cases s with
  | items left =>
      cases left with
      | nil => simp [next?] at h
      | cons first left =>
          simp only [next?, Option.some.injEq, Prod.mk.injEq] at h
          obtain ⟨-, rfl⟩ := h
          simp [size]
  | counting n left =>
      cases left with
      | zero => simp [next?] at h
      | succ left =>
          simp only [next?, Option.some.injEq, Prod.mk.injEq] at h
          obtain ⟨-, rfl⟩ := h
          simp [size]

/-- The items of a list, each with the error that is given in its place. -/
def withFailures (failures : List (Nat × Error)) (items : List Value) :
    List (Value × Option Error) :=
  items.zipIdx.map fun (v, position) => (v, failures.lookup position)

/-- The stream that the value of an enumerable body stands for. -/
def ofValue (source : ItemSource) (v : Value) : Except Error Stream :=
  match source with
  | .items failures => v.asList.map fun items => .items (withFailures failures items)
  | .counting => v.asInt64.map fun n => .counting 0 n.toInt.toNat

/-- Run while a stream is in use. Streams that count are counted. -/
def opened (source : ItemSource) (act : Run α) : Run α :=
  match source with
  | .items _ => act
  | .counting =>
      Run.within (fun s => { s with openStreams := s.openStreams + 1 })
        (fun s => { s with openStreams := s.openStreams - 1 }) act

section Bodies

variable (exec : Exec)

/-- Deliver the items one by one to a block, until it stops with a value or an error arises. -/
def drive (result : Result) (owner method : String) (block : Value → Run (Option Value))
    (stream : Stream) : Run (Option Value) :=
  match _h : stream.next? with
  | none => return none
  | some (item, rest) => do
      let stopped ← Run.holding rest.values do
        let item ← Delivery.giveBack exec result owner method (← Run.ofExcept item)
        Run.inHostFrame .host (block item)
      match stopped with
      | some v => return some v
      | none => drive result owner method block rest
  termination_by stream.size
  decreasing_by exact size_lt_of_next? _h

/-- Deliver the items one by one and collect them. -/
def collect (result : Result) (owner method : String) (stream : Stream) : Run (List Value) :=
  match _h : stream.next? with
  | none => return []
  | some (item, rest) => do
      let item ← Run.holding rest.values do
        Delivery.giveBack exec result owner method (← Run.ofExcept item)
      return item :: (← Run.holding [item] (collect result owner method rest))
  termination_by stream.size
  decreasing_by exact size_lt_of_next? _h

/-- Run an enumerable body, and then an operation on the stream it yields. -/
def withStream (recv : Handle) (overload : Overload) (method : String) (values : List Value)
    (act : Stream → Run α) : Run α := do
  match overload.body with
  | .iterator code source =>
      let values ← Delivery.prepare exec overload.sig.params values
      let body ← Lifetime.runNative exec (some recv) values code
      let stream ← Run.ofExcept (ofValue source body.result)
      opened source (act stream)
  | _ =>
      let _ ← Delivery.prepare exec overload.sig.params values
      Run.fail (.native (recv.className ++ "::" ++ method ++ " is not enumerable"))

end Bodies

end Stream

end ObjectBridge
