import ObjectBridge.Proofs.Call.Dispatch
import ObjectBridge.Proofs.Call.Items
import ObjectBridge.Proofs.Call.Overriding
import ObjectBridge.Proofs.Run.Rounds

/-!
# Iterations and collected calls

An enumerable body yields a stream.  A call collects the items of the stream into a list, and an iteration gives them
to a block one by one.

* `Stream.pulls` — the items of a stream, in the order in which they are pulled.
* `Stream.untilError` — the items before the first error, and the error.
* `Stream.outcome_collect` — what a call collects.
* `Stream.Visit` — what an iteration does for one item.
-/

namespace ObjectBridge.Stream

open Run

/-! ## The items of a stream -/

/-- The next items that a stream gives, as many as are asked for, each with the stream that is left after it. -/
def pullsUpTo : Nat → Stream → List (Except Error Value × Stream)
  | 0, _ => []
  | n + 1, stream =>
      match stream.next? with
      | none => []
      | some (item, rest) => (item, rest) :: pullsUpTo n rest

/-- The items that a stream gives until it ends, each with the stream that is left after it. -/
def pulls (stream : Stream) : List (Except Error Value × Stream) :=
  pullsUpTo stream.size stream

/-- The items that a stream gives until it ends. -/
def contents (stream : Stream) : List (Except Error Value) :=
  stream.pulls.map Prod.fst

/-- The items of a stream that are not errors. -/
def offers (stream : Stream) : List Value :=
  stream.contents.filterMap Except.toOption

/-- The results before the first failure, and the failure. -/
def untilError : List (Except Fault Value) → List Value × Option Fault
  | [] => ([], none)
  | .ok v :: rest => (v :: (untilError rest).1, (untilError rest).2)
  | .error fault :: _ => ([], some fault)

variable {stream rest : Stream} {item : Except Error Value}

/-- Giving an item leaves one item less. -/
theorem size_eq_of_next? (h : stream.next? = some (item, rest)) : stream.size = rest.size + 1 := by
  cases stream with
  | items left =>
      cases left with
      | nil => cases h
      | cons first left =>
          obtain ⟨-, rfl⟩ := Prod.mk.inj (Option.some.inj h)
          rfl
  | counting n left =>
      cases left with
      | zero => cases h
      | succ left =>
          obtain ⟨-, rfl⟩ := Prod.mk.inj (Option.some.inj h)
          rfl

theorem pulls_of_none (h : stream.next? = none) : stream.pulls = [] := by
  rw [pulls]
  cases stream.size with
  | zero => rfl
  | succ n => rw [pullsUpTo, h]

theorem pulls_of_some (h : stream.next? = some (item, rest)) : stream.pulls = (item, rest) :: rest.pulls := by
  rw [pulls, size_eq_of_next? h, pullsUpTo, h]
  rfl

theorem contents_of_some (h : stream.next? = some (item, rest)) : stream.contents = item :: rest.contents := by
  rw [contents, pulls_of_some h]
  rfl

theorem untilError_append (vs : List Value) (results : List (Except Fault Value)) :
    untilError (vs.map .ok ++ results) = (vs ++ (untilError results).1, (untilError results).2) := by
  induction vs with
  | nil => rfl
  | cons v rest ih => rw [List.map_cons, List.cons_append, untilError, ih, List.cons_append]

/-! ## Collecting -/

variable {exec : Exec} {result : Result} {owner method : String} {block : Value → Run (Option Value)} {s t : State}

/-- The items of a stream as a state delivers them, up to the first one that is an error or becomes one. -/
def collected (exec : Exec) (result : Result) (owner method : String) (s : State) (stream : Stream) :
    List Value × Option Fault :=
  untilError (stream.contents.map (delivered exec result owner method s))

/-- What is delivered does not depend on the values in the hands of unfinished operations. -/
theorem collected_withHeld (hresult : ∀ declared ∈ result, Conversion.WithoutObjects declared.1)
    (values : List Value) (s : State) (stream : Stream) :
    collected exec result owner method (withHeld s values) stream = collected exec result owner method s stream := by
  rw [collected, collected, List.map_congr_left fun item _ => delivered_withHeld hresult values s item]

theorem outcome_holding_deliver (hresult : ∀ declared ∈ result, Conversion.WithoutObjects declared.1)
    (values : List Value) (item : Except Error Value) (s : State) :
    (holding values (deliver exec result owner method item)).outcome s =
      (delivered exec result owner method s item, s) := by
  have hreads : Reads (deliver exec result owner method item) := reads_deliver hresult item
  rw [outcome_holding_of_reads hreads, ← delivered_withHeld hresult values s item]
  rfl

theorem sees_collect (hresult : ∀ declared ∈ result, Conversion.WithoutObjects declared.1) (stream : Stream) :
    Sees (fun s t => s.toWorld = t.toWorld) (collect exec result owner method stream) := by
  have hheld := Delivery.legible_toWorld.held
  induction stream using collect.induct with
  | case1 stream hnext =>
      rw [collect_of_none hnext]
      exact sees_pure []
  | case2 stream item rest hnext ih =>
      have hitem : Sees (fun s t => s.toWorld = t.toWorld) (deliver exec result owner method item) :=
        sees_deliver Delivery.legible_toWorld hresult fun _ _ => trivial
      rw [collect_of_some hnext]
      exact (hitem.holding hheld rest.values).bind fun u => (ih.holding hheld [u]).bind fun us => sees_pure (u :: us)

/-- What a call ends with that has delivered some items before an error, or all of them. -/
def outcomeOf {α : Type} (f : List Value → α) (delivery : List Value × Option Fault) : Except Fault α :=
  delivery.2.elim (.ok (f delivery.1)) .error

/-- A call collects all items, or fails with the first error. -/
theorem result_collect (hresult : ∀ declared ∈ result, Conversion.WithoutObjects declared.1) (stream : Stream)
    (s : State) : ((collect exec result owner method stream).outcome s).1 =
      outcomeOf id (collected exec result owner method s stream) := by
  induction stream using collect.induct generalizing s with
  | case1 stream hnext =>
      rw [collect_of_none hnext, collected, contents, pulls_of_none hnext]
      rfl
  | case2 stream item rest hnext ih =>
      have hfirst : (holding rest.values (deliver exec result owner method item)).outcome s =
          (delivered exec result owner method s item, s) := outcome_holding_deliver hresult rest.values item s
      have hlater (u : Value) : (holding [u] (collect exec result owner method rest)).outcome s =
          (outcomeOf id (collected exec result owner method s rest), s) := by
        rw [outcome_holding_of_reads (sees_collect hresult rest).reads, ih, collected_withHeld hresult]
      have hsplit : (collect exec result owner method stream).outcome s =
          (holding rest.values (deliver exec result owner method item) >>= fun u =>
            holding [u] (collect exec result owner method rest) >>= fun us => pure (u :: us)).outcome s :=
        congrArg (outcome · s) (collect_of_some hnext)
      rw [hsplit, collected, contents_of_some hnext, List.map_cons, outcome_bind, hfirst]
      cases hitem : delivered exec result owner method s item with
      | error fault => rfl
      | ok u =>
          dsimp only
          rw [outcome_bind, hlater, untilError]
          rcases hrest : collected exec result owner method s rest with ⟨us, stop⟩
          rw [collected] at hrest
          rw [hrest]
          cases stop <;> rfl

/-! ## One item after the other -/

/-- Deliver an item that was pulled, and run the block for it. -/
def turn (exec : Exec) (result : Result) (owner method : String) (block : Value → Run (Option Value))
    (pull : Except Error Value × Stream) : Run (Option Value) :=
  holding pull.2.values do
    let item ← deliver exec result owner method pull.1
    inHostFrame .host (block item)

theorem drive_eq (exec : Exec) (result : Result) (owner method : String) (block : Value → Run (Option Value))
    (stream : Stream) :
    drive exec result owner method block stream = untilStop (turn exec result owner method block) stream.pulls := by
  induction stream using drive.induct with
  | case1 stream hnext =>
      rw [drive_of_none hnext, pulls_of_none hnext]
      rfl
  | case2 stream item rest hnext ih =>
      have hfirst : turn exec result owner method block (item, rest) = holding rest.values (do
          let item ← Delivery.giveBack exec result owner method (← Run.ofExcept item)
          inHostFrame .host (block item)) := by
        rw [turn, deliver, bind_assoc]
      rw [drive_of_some hnext, pulls_of_some hnext, untilStop, hfirst]
      refine bind_congr fun stopped => ?_
      cases stopped with
      | none => exact ih
      | some v => rfl

/-- A pull, and what was done with it. -/
abbrev Pulled := Round (Except Error Value × Stream) Value

/-- The state in which a block starts for an item: the items to come stay in use. -/
def visiting (s : State) (rest : Stream) : State :=
  { s with frames := .host :: s.frames, hostDepth := s.hostDepth + 1, held := rest.values :: s.held }

/-- The state after a block has come to its end. -/
def leaving (s : State) : State :=
  { s with frames := s.frames.tail, hostDepth := s.hostDepth - 1, held := s.held.tail }

/-- What an iteration does for one item: it runs the block once, for the item as it is delivered, or it does nothing,
because the item is an error or becomes one. -/
inductive Visit (exec : Exec) (result : Result) (owner method : String) (block : Value → Run (Option Value))
    (x : Pulled) : Prop
  | answered {v : Value} {stopped : Option Value} {t : State}
      (hitem : delivered exec result owner method x.before x.given.1 = .ok v)
      (hrun : (block v).outcome (visiting x.before x.given.2) = (.ok stopped, t))
      (hresult : x.result = .ok stopped) (hafter : x.after = leaving t)
  | failed {v : Value} {e : Error} {t : State}
      (hitem : delivered exec result owner method x.before x.given.1 = .ok v)
      (hrun : (block v).outcome (visiting x.before x.given.2) = (.error (.raised e), t))
      (hresult : x.result = .error (.raised e)) (hafter : x.after = leaving t)
  | exhausted {v : Value} (hitem : delivered exec result owner method x.before x.given.1 = .ok v)
      (hrun : (block v).outcome (visiting x.before x.given.2) = (.error .exhausted, x.after))
      (hresult : x.result = .error .exhausted)
  | refused {e : Error} (hitem : delivered exec result owner method x.before x.given.1 = .error (.raised e))
      (hresult : x.result = .error (.raised e)) (hafter : x.after = x.before)

/-- A turn runs the block for an item that is delivered. -/
theorem outcome_turn (hresult : ∀ declared ∈ result, Conversion.WithoutObjects declared.1) {v : Value}
    (hitem : delivered exec result owner method s item = .ok v) (hbelow : s.hostDepth < s.options.maxDepth) :
    (turn exec result owner method block (item, rest)).outcome s =
      ended leaving ((block v).outcome (visiting s rest)) := by
  have hdeliver : (deliver exec result owner method item).outcome (withHeld s rest.values) =
      (.ok v, withHeld s rest.values) := by
    rw [outcome_deliver hresult, delivered_withHeld hresult, hitem]
  have hinner : (deliver exec result owner method item >>= fun v => inHostFrame .host (block v)).outcome
      (withHeld s rest.values) = (Dispatch.inFrame .host (block v)).outcome (withHeld s rest.values) := by
    rw [outcome_bind_of_ok hdeliver]
    exact Dispatch.outcome_inHostFrame_of_below .host _ hbelow
  calc (turn exec result owner method block (item, rest)).outcome s
      = ended withoutHeld ((deliver exec result owner method item >>= fun v => inHostFrame .host (block v)).outcome
          (withHeld s rest.values)) := rfl
    _ = ended withoutHeld (ended (fun t => { t with frames := t.frames.tail, hostDepth := t.hostDepth - 1 })
          ((block v).outcome (visiting s rest))) := by
        rw [hinner]
        rfl
    _ = ended leaving ((block v).outcome (visiting s rest)) := ended_ended ..

/-- An item that is an error, or becomes one, ends the iteration before the block runs. -/
theorem outcome_turn_of_error (hresult : ∀ declared ∈ result, Conversion.WithoutObjects declared.1) {fault : Fault}
    (block : Value → Run (Option Value)) (rest : Stream)
    (hitem : delivered exec result owner method s item = .error fault) :
    ∃ e, fault = .raised e ∧
      (turn exec result owner method block (item, rest)).outcome s = (.error (.raised e), s) := by
  have hreads : Reads (deliver exec result owner method item) := reads_deliver hresult item
  obtain ⟨r, hr⟩ := hreads (withHeld s rest.values)
  have hsame : delivered exec result owner method (withHeld s rest.values) item =
      delivered exec result owner method s item := delivered_withHeld hresult rest.values s item
  rw [delivered, hr, hitem] at hsame
  cases r with
  | ok v => cases hsame
  | error e => exact ⟨e, (Except.error.inj hsame).symm, outcome_holding_of_raised (outcome_bind_of_error hr _)⟩

/-- Below the limit an iteration visits the item of a pull. -/
theorem visit_of_runs (hresult : ∀ declared ∈ result, Conversion.WithoutObjects declared.1) {x : Pulled}
    (hbelow : x.before.hostDepth < x.before.options.maxDepth) (hruns : x.Runs (turn exec result owner method block)) :
    Visit exec result owner method block x := by
  obtain ⟨⟨item, rest⟩, s, ending, t⟩ := x
  have hturn : (turn exec result owner method block (item, rest)).outcome s = (ending, t) := hruns
  cases hitem : delivered exec result owner method s item with
  | ok v =>
      rw [outcome_turn hresult hitem hbelow] at hturn
      rcases hrun : (block v).outcome (visiting s rest) with ⟨answer, u⟩
      rw [hrun] at hturn
      match answer with
      | .ok stopped =>
          obtain ⟨rfl, rfl⟩ := Prod.mk.inj hturn
          exact .answered hitem hrun rfl rfl
      | .error (.raised e) =>
          obtain ⟨rfl, rfl⟩ := Prod.mk.inj hturn
          exact .failed hitem hrun rfl rfl
      | .error .exhausted =>
          obtain ⟨rfl, rfl⟩ := Prod.mk.inj hturn
          exact .exhausted hitem hrun rfl
  | error fault =>
      obtain ⟨e, rfl, hends⟩ := outcome_turn_of_error hresult block rest hitem
      obtain ⟨rfl, rfl⟩ := Prod.mk.inj (hturn.symm.trans hends)
      exact .refused hitem rfl rfl

/-! ## The rounds of an iteration -/

/-- The items that the block was run for, as they were delivered to it. -/
def passed (exec : Exec) (result : Result) (owner method : String) (rounds : List Pulled) : List Value :=
  rounds.filterMap fun x => (delivered exec result owner method x.before x.given.1).toOption

/-- The stream does not depend on the block: in its round every item is delivered as it is when the stream is
opened. -/
def Independent (exec : Exec) (result : Result) (owner method : String) (u : State) (rounds : List Pulled) : Prop :=
  ∀ x ∈ rounds, delivered exec result owner method x.before x.given.1 = delivered exec result owner method u x.given.1

/-- An iteration over a stream that is opened in the state `u`.  Every round pulls one item and visits it, and no other
items are pulled.  Nothing is done after the last round. -/
structure Iterates (exec : Exec) (result : Result) (owner method : String) (block : Value → Run (Option Value))
    (recv : Handle) (stream : Stream) (u : State) (rounds : List Pulled) (left : Except Fault Value × State) :
    Prop where
  pulls : Rounds (turn exec result owner method block) stream.pulls u rounds
  visits : ∀ x ∈ rounds, Visit exec result owner method block x
  result_eq : left.1 = (Round.ending u rounds).1.map fun stopped => stopped.getD (.object recv)
  state_eq : left.2 = (Round.ending u rounds).2

/-- How an iteration ends, by the block and by what a call collects from the stream. -/
inductive Agrees (exec : Exec) (result : Result) (owner method : String) (recv : Handle) (stream : Stream) (u : State)
    (rounds : List Pulled) : Except Fault Value → Prop
  /-- The block goes on every time.  It has run for the items of the list that a call returns, and the object is the
  result. -/
  | finished (hgoesOn : ∀ x ∈ rounds, x.GoesOn)
      (hcollected : collected exec result owner method u stream = (passed exec result owner method rounds, none)) :
      Agrees exec result owner method recv stream u rounds (.ok (.object recv))
  /-- The block goes on every time until an item is an error or becomes one.  It has run for the items before, and the
  error is the one with which a call fails. -/
  | interrupted {before : List Pulled} {last : Pulled} {fault : Fault} (hrounds : rounds = before ++ [last])
      (hgoesOn : ∀ x ∈ before, x.GoesOn)
      (hlast : delivered exec result owner method last.before last.given.1 = .error fault)
      (hcollected : collected exec result owner method u stream =
        (passed exec result owner method rounds, some fault)) :
      Agrees exec result owner method recv stream u rounds (.error fault)
  /-- The block stops with a value.  It has run in every round, for the first items of those that a call collects. -/
  | stopped {before : List Pulled} {last : Pulled} {v : Value} (hrounds : rounds = before ++ [last])
      (hgoesOn : ∀ x ∈ before, x.GoesOn) (hlast : last.result = .ok (some v))
      (hcount : (passed exec result owner method rounds).length = rounds.length)
      (hpassed : passed exec result owner method rounds =
        (collected exec result owner method u stream).1.take rounds.length) :
      Agrees exec result owner method recv stream u rounds (.ok v)
  /-- The block fails.  It has run in every round, for the first items of those that a call collects. -/
  | failed {before : List Pulled} {last : Pulled} {fault : Fault} (hrounds : rounds = before ++ [last])
      (hgoesOn : ∀ x ∈ before, x.GoesOn) (hlast : last.result = .error fault)
      (hcount : (passed exec result owner method rounds).length = rounds.length)
      (hpassed : passed exec result owner method rounds =
        (collected exec result owner method u stream).1.take rounds.length) :
      Agrees exec result owner method recv stream u rounds (.error fault)

variable {rounds : List Pulled} {u : State} {recv : Handle}

/-- A block has run for every item of rounds that go on. -/
theorem delivered_of_goesOn (hvisits : ∀ x ∈ rounds, Visit exec result owner method block x)
    (hgoesOn : ∀ x ∈ rounds, x.GoesOn) :
    rounds.map (fun x => delivered exec result owner method x.before x.given.1) =
      (passed exec result owner method rounds).map .ok := by
  induction rounds with
  | nil => rfl
  | cons x rest ih =>
      obtain ⟨hvisit, hvisitsRest⟩ := List.forall_mem_cons.mp hvisits
      obtain ⟨hgoes, hgoesOnRest⟩ := List.forall_mem_cons.mp hgoesOn
      obtain ⟨v, hitem⟩ : ∃ v, delivered exec result owner method x.before x.given.1 = .ok v := by
        cases hvisit with
        | answered hitem => exact ⟨_, hitem⟩
        | failed hitem | exhausted hitem => exact ⟨_, hitem⟩
        | refused _ hresult => cases hgoes.symm.trans hresult
      rw [List.map_cons, ih hvisitsRest hgoesOnRest, passed, passed, List.filterMap_cons, hitem]
      rfl

/-- What a call collects, item by item as an iteration delivers them, and then the items that it has not pulled. -/
theorem collected_eq (hindependent : Independent exec result owner method u rounds)
    {after : List (Except Error Value × Stream)} (hpulls : rounds.map Round.given ++ after = stream.pulls) :
    collected exec result owner method u stream =
      untilError (rounds.map (fun x => delivered exec result owner method x.before x.given.1) ++
        after.map fun pull => delivered exec result owner method u pull.1) := by
  rw [List.map_congr_left hindependent, collected, contents, ← hpulls]
  simp only [List.map_append, List.map_map, Function.comp_def]

theorem passed_concat (before : List Pulled) (last : Pulled) :
    passed exec result owner method (before ++ [last]) = passed exec result owner method before ++
      (delivered exec result owner method last.before last.given.1).toOption.toList := by
  rw [passed, passed, List.filterMap_append, List.filterMap_cons]
  cases hitem : delivered exec result owner method last.before last.given.1 <;> rfl

/-- A block that has run in every round has run for the first items that a call collects. -/
theorem passed_eq_take {before : List Pulled} {last : Pulled} {v : Value}
    (hvisits : ∀ x ∈ before, Visit exec result owner method block x) (hgoesOn : ∀ x ∈ before, x.GoesOn)
    (hitem : delivered exec result owner method last.before last.given.1 = .ok v)
    (hindependent : Independent exec result owner method u (before ++ [last]))
    (hstart : (before ++ [last]).map Round.given <+: stream.pulls) :
    (passed exec result owner method (before ++ [last])).length = (before ++ [last]).length ∧
      passed exec result owner method (before ++ [last]) =
        (collected exec result owner method u stream).1.take (before ++ [last]).length := by
  have hdelivered := delivered_of_goesOn hvisits hgoesOn
  have hlength : (passed exec result owner method before).length = before.length := by
    simpa using (congrArg List.length hdelivered).symm
  have hpassed :
      passed exec result owner method (before ++ [last]) = passed exec result owner method before ++ [v] := by
    rw [passed_concat, hitem]
    rfl
  obtain ⟨after, hpulls⟩ := hstart
  rw [collected_eq hindependent hpulls, List.map_append, hdelivered, List.append_assoc, untilError_append,
    List.map_singleton, hitem, List.singleton_append, untilError, hpassed]
  simp [hlength, List.take_append]

/-- An item that was pulled is one of those that the stream offers, unless it is an error. -/
theorem mem_offers {x : Pulled} {v : Value} (hx : x ∈ rounds) (hstart : rounds.map Round.given <+: stream.pulls)
    (hitem : x.given.1 = .ok v) : v ∈ stream.offers := by
  have hpull : x.given ∈ stream.pulls := hstart.subset (List.mem_map_of_mem hx)
  exact List.mem_filterMap.mpr ⟨x.given.1, List.mem_map_of_mem hpull, by rw [hitem]; rfl⟩

/-- A stream of items without boxes does not depend on the block, whatever this does. -/
theorem independent_of_withoutBoxes (hresult : ∀ declared ∈ result, Conversion.WithoutObjects declared.1)
    (hstart : rounds.map Round.given <+: stream.pulls) (hboxes : ∀ v ∈ stream.offers, v.boxes = []) :
    Independent exec result owner method u rounds := by
  intro x hx
  refine delivered_eq Delivery.legible_withoutBoxes hresult (fun v hv => ?_) trivial
  exact List.eq_nil_iff_forall_not_mem.mp (hboxes v (mem_offers hx hstart hv))

/-- A stream does not depend on a block that leaves the boxes alone to which the items lead. -/
theorem independent_of_undisturbed (hresult : ∀ declared ∈ result, Conversion.WithoutObjects declared.1)
    (hstart : rounds.map Round.given <+: stream.pulls) (hclosed : u.cells.Closed)
    (hbelow : ∀ v ∈ stream.offers, ∀ b ∈ v.boxes, b < u.cells.size)
    (hundisturbed : ∀ x ∈ rounds, Cells.Undisturbed stream.offers u.cells x.before.cells) :
    Independent exec result owner method u rounds := by
  intro x hx
  refine (delivered_eq (Delivery.legible_undisturbed hclosed hbelow) hresult (fun v hv => ?_)
    ⟨rfl, hundisturbed x hx⟩).symm
  exact fun b hb => (Cells.closed_leads u.cells stream.offers).box (.start (mem_offers hx hstart hv)) hb

/-- If the stream does not depend on the block, an iteration ends in one of four ways. -/
theorem Iterates.agrees {left : Except Fault Value × State}
    (h : Iterates exec result owner method block recv stream u rounds left)
    (hindependent : Independent exec result owner method u rounds) :
    Agrees exec result owner method recv stream u rounds left.1 := by
  obtain ⟨hrounds, hvisits, hending, -⟩ := h
  -- Either all rounds go on, or the last one ends the iteration, and the visit says how.
  rcases hrounds.cases with ⟨hall, hgiven, hok⟩ | ⟨before, last, rfl, hbefore, hlast, hend⟩
  · rw [hok] at hending
    rw [hending]
    refine .finished hall ?_
    have hcollected := collected_eq hindependent ((List.append_nil _).trans hgiven)
    rw [delivered_of_goesOn hvisits hall, untilError_append] at hcollected
    simpa [untilError] using hcollected
  · obtain ⟨hvisitsBefore, hvisitsLast⟩ := List.forall_mem_append.mp hvisits
    have hvisit := hvisitsLast last (List.mem_singleton_self last)
    rw [hend] at hending
    cases hvisit with
    | answered hitem _ hresult =>
        obtain ⟨hcount, htake⟩ := passed_eq_take hvisitsBefore hbefore hitem hindependent hrounds.given_prefix
        rename_i v stopped t _ _
        cases stopped with
        | none => exact absurd hresult hlast
        | some w =>
            rw [hresult] at hending
            rw [hending]
            exact .stopped rfl hbefore hresult hcount htake
    | failed hitem _ hresult | exhausted hitem _ hresult =>
        obtain ⟨hcount, htake⟩ := passed_eq_take hvisitsBefore hbefore hitem hindependent hrounds.given_prefix
        rw [hresult] at hending
        rw [hending]
        exact .failed rfl hbefore hresult hcount htake
    | refused hitem hresult _ =>
        rw [hresult] at hending
        rw [hending]
        obtain ⟨after, hpulls⟩ := hrounds.given_prefix
        refine .interrupted rfl hbefore hitem ?_
        rw [collected_eq hindependent hpulls, List.map_append, delivered_of_goesOn hvisitsBefore hbefore,
          List.append_assoc, untilError_append, List.map_singleton, hitem, List.singleton_append, untilError,
          passed_concat, hitem]
        rfl

end ObjectBridge.Stream

namespace ObjectBridge.Dispatch

open Run ObjectBridge.Stream

variable {exec : Exec} {s t u : State} {recv : Handle} {method : String} {args : CallArgs} {chosen : Selected}
  {stream : Stream} {code : Code} {source : ItemSource} {block : Value → Run (Option Value)} {α : Type}

/-! ## From the call to the stream -/

/-- Run the enumerable body of an overload that was selected. -/
def opening (exec : Exec) (recv : Handle) (chosen : Selected) (code : Code) (source : ItemSource) : Run Stream := do
  let values ← Delivery.prepare exec chosen.overload.sig.params chosen.binding.values
  let body ← Lifetime.runNative exec (some recv) values code
  Run.ofExcept (Stream.ofValue source body.result)

/-- The state in which a stream is gone through. -/
def underway (source : ItemSource) (t : State) : State :=
  match source with
  | .items _ => t
  | .counting => { t with openStreams := t.openStreams + 1 }

/-- An enumerable overload is selected for a call, or for an iteration, in the state `s`, and its body yields a stream,
which is gone through in the state `u`. -/
structure Opens (exec : Exec) (s : State) (recv : Handle) (method : String) (args : CallArgs) (chosen : Selected)
    (stream : Stream) (u : State) : Prop where
  exists_opening : ∃ code source s₀ t, chosen.overload.body = .iterator code source ∧
    (choose exec recv method args).outcome (withHeld s args.values) = (.ok chosen, s₀) ∧
    (opening exec recv chosen code source).outcome s₀ = (.ok stream, t) ∧ u = underway source t

/-- The state after an operation on the stream of an overload has come to its end. -/
def shut (chosen : Selected) (t : State) : State :=
  match chosen.overload.body with
  | .iterator _ .counting => withoutHeld { t with openStreams := t.openStreams - 1 }
  | _ => withoutHeld t

theorem withStream_eq (hbody : chosen.overload.body = .iterator code source) (act : Stream → Run α) :
    withStream exec recv chosen.overload method chosen.binding.values act =
      (opening exec recv chosen code source >>= fun stream => opened source (act stream)) := by
  simp only [withStream, hbody, opening, bind_assoc]

/-- What is done with the stream decides how the operation ends that has opened it. -/
theorem outcome_withStream (hbody : chosen.overload.body = .iterator code source)
    (hopening : (opening exec recv chosen code source).outcome s = (.ok stream, t)) (act : Stream → Run α) :
    ended withoutHeld
        ((withStream exec recv chosen.overload method chosen.binding.values act).outcome s) =
      ended (shut chosen) ((act stream).outcome (underway source t)) := by
  rw [withStream_eq hbody, outcome_bind_of_ok hopening]
  cases source with
  | items failures =>
      have hshut : shut chosen = withoutHeld := by
        funext v
        rw [shut, hbody]
      rw [hshut]
      rfl
  | counting =>
      have hshut : shut chosen = withoutHeld ∘ fun v => { v with openStreams := v.openStreams - 1 } := by
        funext v
        rw [shut, hbody]
        rfl
      rw [hshut, ← ended_ended]
      rfl

/-- A call collects the items as they are delivered when the stream is opened, and changes nothing by that. -/
theorem Opens.outcome_invoke (hexec : ConservesAll exec) (hopens : Opens exec s recv method args chosen stream u)
    (hresult : ∀ declared ∈ chosen.overload.sig.result, Conversion.WithoutObjects declared.1) (allowOverride : Bool) :
    (invoke exec recv method args allowOverride).outcome s =
      (outcomeOf (fun us => (.list us, args))
        (collected exec chosen.overload.sig.result chosen.owner method u stream), shut chosen u) := by
  obtain ⟨code, source, s₀, t, hbody, hchoose, hopening, rfl⟩ := hopens.exists_opening
  have hcollect : ended withoutHeld
      ((withStream exec recv chosen.overload method chosen.binding.values
        (collect exec chosen.overload.sig.result chosen.owner method)).outcome s₀) =
      (outcomeOf id (collected exec chosen.overload.sig.result chosen.owner method (underway source t) stream),
        shut chosen (underway source t)) := by
    rw [outcome_withStream hbody hopening, ended_of_reads (sees_collect hresult stream).reads, result_collect hresult]
  rw [invoke, outcome_bind_of_ok (outcome_holding_of_ok hchoose)]
  simp only [hbody]
  rw [outcome_map, outcome_holding_eq, held_of_outcome_choose hexec hchoose, hcollect, outcomeOf, outcomeOf]
  cases (collected exec chosen.overload.sig.result chosen.owner method (underway source t) stream).2 <;> rfl

/-- An iteration goes through the stream, and answers with the value that the block stopped with, or with the
object. -/
theorem Opens.outcome_each (hopens : Opens exec s recv method args chosen stream u)
    (block : Value → Run (Option Value)) :
    (each exec recv method args block).outcome s =
      ended (shut chosen)
        (((untilStop (turn exec chosen.overload.sig.result chosen.owner method block) stream.pulls).outcome u).map
          (Except.map fun stopped => stopped.getD (.object recv)) id) := by
  obtain ⟨code, source, s₀, t, hbody, hchoose, hopening, rfl⟩ := hopens.exists_opening
  rw [each, outcome_holding_eq, outcome_bind_of_ok hchoose, outcome_map, ← ended_map,
    outcome_withStream hbody hopening, drive_eq, ended_map]

/-- The bodies that run when a stream is gone through are those that run when the operation starts. -/
theorem Opens.running_eq (hexec : OrderlyAll exec) (hnum : s.classes.Numbered)
    (hopens : Opens exec s recv method args chosen stream u) : u.classes.Numbered ∧ u.running = s.running := by
  obtain ⟨code, source, s₀, t, hbody, hchoose, hopening, rfl⟩ := hopens.exists_opening
  have hselects := (takes_choose hexec.takes recv method args (s := withHeld s args.values)).orderly hnum
  rw [hchoose] at hselects
  have hnum₀ : s₀.classes.Numbered := hselects.1.numbered hnum
  have hruns : Takes .orderly (opening exec recv chosen code source) s₀ :=
    (Delivery.takes_prepare hexec.takes _ _).bind fun values v _ _ =>
      (Lifetime.takes_runNative hexec.takes _ _ _).bind fun body v' _ _ => takes_of_reads (reads_ofExcept _)
  obtain ⟨hpath, hrestored⟩ := hruns.orderly hnum₀
  rw [hopening] at hpath hrestored
  have hsame : t.running = s.running := (hrestored (by simp)).trans (hselects.2 (by simp))
  have hnumT : t.classes.Numbered := hpath.numbered hnum₀
  cases source <;> exact ⟨hnumT, hsame⟩

/-- Below the limit an iteration takes rounds, one for each item that it pulls. -/
theorem Opens.exists_iterates (hexec : OrderlyAll exec) (hnum : s.classes.Numbered)
    (hbelow : s.hostDepth < s.options.maxDepth) (hopens : Opens exec s recv method args chosen stream u)
    (hresult : ∀ declared ∈ chosen.overload.sig.result, Conversion.WithoutObjects declared.1)
    (hblock : ∀ item u, Orderly (inHostFrame .host (block item)) u) :
    ∃ rounds left, Iterates exec chosen.overload.sig.result chosen.owner method block recv stream u rounds left ∧
      (each exec recv method args block).outcome s = ended (shut chosen) left := by
  obtain ⟨hnumU, hrunning⟩ := hopens.running_eq hexec hnum
  have hdepth : u.hostDepth = s.hostDepth := congrArg Running.hostDepth hrunning
  have hoptions : u.options = s.options := congrArg Running.options hrunning
  have hturn (pull : Except Error Value × Stream) (v : State) :
      Orderly (turn exec chosen.overload.sig.result chosen.owner method block pull) v := by
    refine (Takes.holding (Takes.bind ?_ fun item v' _ _ => (hblock item v').takes)).orderly
    exact takes_bind_ofExcept fun w _ => Delivery.takes_giveBack hexec.takes _ _ _ _
  obtain ⟨rounds, hrounds, hending⟩ :=
    exists_rounds (turn exec chosen.overload.sig.result chosen.owner method block) stream.pulls u
  refine ⟨rounds, (Round.ending u rounds).map (Except.map fun stopped => stopped.getD (.object recv)) id,
    ⟨hrounds, fun x hx => visit_of_runs hresult ?_ (hrounds.runs x hx), rfl, rfl⟩, ?_⟩
  · exact hrounds.below hturn hnumU (by rwa [hdepth, hoptions]) x hx
  · rw [hopens.outcome_each, hending]

end ObjectBridge.Dispatch
