import ObjectBridge.Proofs.Call.Iteration
import ObjectBridge.Proofs.Session.Moments

/-!
# Iterations agree with collected calls

A call of an enumerable method returns the items that an iteration over it gives to its block, in the same order, and
fails with the error with which the iteration is interrupted.

* `Dispatch.Enumerates` — calls and iterations of enumerable methods whose items hold no objects.
* `Reachable.enumerates` — all moments of sessions, all streams and all blocks.
* `shelf_enumerated` — a block that stops at the second of three items.
-/

namespace ObjectBridge

open Run Dispatch

/-- What calls of enumerable methods and iterations over them do from a state on, where the items hold no objects. -/
structure Dispatch.Enumerates (I : Script.Interpreter) (s : State) : Prop where
  /-- A call returns the list of all items as they are delivered, or fails with the first error.  Nothing else happens
  to the state. -/
  collects : ∀ recv method args chosen stream u, Opens I.exec s recv method args chosen stream u →
    (∀ declared ∈ chosen.overload.sig.result, Conversion.WithoutObjects declared.1) →
    (call I.exec recv method args).outcome s =
      (Stream.outcomeOf (fun us => (.list us, args))
        (Stream.collected I.exec chosen.overload.sig.result chosen.owner method u stream), shut chosen u)
  /-- Below the limit an iteration visits the items one by one, and ends with the last visit, which leaves the state
  that it ends in.  If the stream does not depend on the block, it ends by what the block does and by what a call
  collects.  Streams of items without boxes do not depend on any block, and others do not as long as the block leaves
  the boxes alone to which the items lead. -/
  iterates : ∀ recv method args chosen stream u, Opens I.exec s recv method args chosen stream u →
    (∀ declared ∈ chosen.overload.sig.result, Conversion.WithoutObjects declared.1) →
    s.hostDepth < s.options.maxDepth → ∀ code, ∃ rounds left,
      Stream.Iterates I.exec chosen.overload.sig.result chosen.owner method (I.runBlock code) recv stream u rounds
        left ∧
      (each I.exec recv method args (I.runBlock code)).outcome s = ended (shut chosen) left ∧
      (Stream.Independent I.exec chosen.overload.sig.result chosen.owner method u rounds →
        Stream.Agrees I.exec chosen.overload.sig.result chosen.owner method recv stream u rounds left.1) ∧
      ((∀ v ∈ stream.offers, v.boxes = []) →
        Stream.Independent I.exec chosen.overload.sig.result chosen.owner method u rounds) ∧
      (u.cells.Closed → (∀ v ∈ stream.offers, ∀ b ∈ v.boxes, b < u.cells.size) →
        (∀ x ∈ rounds, Cells.Undisturbed stream.offers u.cells x.before.cells) →
        Stream.Independent I.exec chosen.overload.sig.result chosen.owner method u rounds)

namespace Session

variable {s : State}

/-- At every moment of a session an iteration over an enumerable method agrees with a call of it, whatever stream its
body yields and whatever the block does. -/
theorem Reachable.enumerates (hs : Reachable s) (budget : Nat) : Enumerates (Script.interpreter budget) s where
  collects recv method args chosen stream u hopens hresult :=
    hopens.outcome_invoke (Script.interpreter_conservesAll budget).exec hresult true
  iterates recv method args chosen stream u hopens hresult hbelow code := by
    have hI := Script.interpreter_orderly budget
    obtain ⟨rounds, left, hiterates, hleft⟩ := hopens.exists_iterates hI.exec hs.numbered hbelow hresult
      fun item u => (Script.Interpreter.takes_block hI.exec.takes code item).orderly
    have hstart := hiterates.pulls.given_prefix
    exact ⟨rounds, left, hiterates, hleft, hiterates.agrees, Stream.independent_of_withoutBoxes hresult hstart,
      Stream.independent_of_undisturbed hresult hstart⟩

/-! ## A block that stops early -/

/-- The body of an enumerable method that yields three numbers. -/
def threeNumbers : Code :=
  [.ret (.list [.lit (.int 1), .lit (.int 2), .lit (.int 3)])]

/-- A class with two enumerable methods that yield three numbers.  The stream of the second one gives an error in the
place of the second number. -/
def shelfClass : Script.ClassSpec Script.Expr Script.Stmt := {
  name := "Node"
  shape := .script
  members := [
    .iterator "items" { result := some (.int .int32, .value) } threeNumbers [],
    .iterator "torn" { result := some (.int .int32, .value) } threeNumbers [(1, .host "torn")]] }

/-- A session that creates an object of the class. -/
@[irreducible]
def shelfRun : Except Fault Value × State :=
  andThen (start {} []) 6 (.list [
    .perform (.defineClass shelfClass) none,
    .perform (.create (.named "Node") .script (.map []) false) (some "x")])

/-- The object in the variable `x` of the session. -/
def shelf : Handle := ⟨⟨0, ⟨0, ⟨0, 0⟩⟩, 0, "Node"⟩, false⟩

/-- A block that logs its items, and stops with the number two. -/
def untilTwo : Code := [
  .perform (.log (.arg 0)) none,
  .branch (.primitive .equal [.arg 0, .lit (.int 2)]) [.brk (.arg 0)] []]

/-- The iteration over the items of a method with the block. -/
def shelfIterated (method : String) : Except Fault Value × State :=
  (each (Script.interpreter 6).exec shelf method {} ((Script.interpreter 6).runBlock untilTwo)).outcome shelfRun.2

/-- Select an enumerable method, and run its body.  What a call collects from the stream is told with it. -/
def shelfOpening (method : String) : Run (Selected × Stream × (List Value × Option Fault)) := do
  let chosen ← choose (Script.interpreter 6).exec shelf method {}
  match chosen.overload.body with
  | .iterator code source =>
      let stream ← opening (Script.interpreter 6).exec shelf chosen code source
      let collected := Stream.collected (Script.interpreter 6).exec chosen.overload.sig.result chosen.owner method
        (underway source (← get)) stream
      return (chosen, stream, collected)
  | _ => Run.fail (.host "not enumerable")

/-- Whether the items are declared as numbers and hold no boxes, and the numbers that a call collects, with the error
that keeps it from collecting more. -/
def openingFacts (opened : Selected × Stream × (List Value × Option Fault)) :
    Bool × List (Option Int64) × Option Fault :=
  (opened.1.overload.sig.result == some (.int .int32, .value) && opened.2.1.offers.all fun v => v.boxes.isEmpty,
    opened.2.2.1.map Value.int64?, opened.2.2.2)

/-- The numbers hold no boxes, and a call collects three of them, or the one before the error.  The block has logged the
first two, the later one first, and the iteration ends with the second, or it has logged the one before the error. -/
theorem shelfRun_spec :
    shelfRun.1.isOk = true ∧ shelfRun.2.hostDepth < shelfRun.2.options.maxDepth ∧
      ((shelfOpening "items").outcome (withHeld shelfRun.2 [])).1.toOption.map openingFacts =
        some (true, [some 1, some 2, some 3], none) ∧
      ((shelfOpening "torn").outcome (withHeld shelfRun.2 [])).1.toOption.map openingFacts =
        some (true, [some 1], some (.raised (.host "torn"))) ∧
      (shelfIterated "items").1.toOption.map Value.int64? = some (some 2) ∧
      (shelfIterated "items").2.log.map (fun entry => entry.2.int64?) = [some 2, some 1] ∧
      (shelfIterated "torn").1.map (fun _ => ()) = .error (.raised (.host "torn")) ∧
      (shelfIterated "torn").2.log.map (fun entry => entry.2.int64?) = [some 1] := by
  decide +kernel

theorem between_shelfRun : Between shelfRun.2 := by
  have hok := shelfRun_spec.1
  unfold shelfRun at hok ⊢
  exact (Between.start {} []).andThen hok

/-- A call of an enumerable method of the object collects numbers until it comes to the end of the stream or to an
error, and an iteration with the block agrees with it. -/
structure Shelved (method : String) (numbers : List (Option Int64)) (stop : Option Fault) (chosen : Selected)
    (stream : Stream) (u : State) (rounds : List Stream.Pulled) (left : Except Fault Value × State) : Prop where
  opens : Opens (Script.interpreter 6).exec shelfRun.2 shelf method {} chosen stream u
  called : ∃ us, us.map Value.int64? = numbers ∧
    (call (Script.interpreter 6).exec shelf method {}).outcome shelfRun.2 =
      (Stream.outcomeOf (fun us => (.list us, {})) (us, stop), shut chosen u)
  iterates : Stream.Iterates (Script.interpreter 6).exec chosen.overload.sig.result chosen.owner method
    ((Script.interpreter 6).runBlock untilTwo) shelf stream u rounds left
  iterated : shelfIterated method = ended (shut chosen) left
  agrees : Stream.Agrees (Script.interpreter 6).exec chosen.overload.sig.result chosen.owner method shelf stream u rounds
    left.1

/-- An enumerable method is selected, and its body yields a stream. -/
theorem exists_opens_shelf {method : String} {facts : Bool × List (Option Int64) × Option Fault}
    (hopening : ((shelfOpening method).outcome (withHeld shelfRun.2 [])).1.toOption.map openingFacts = some facts) :
    ∃ chosen stream u, Opens (Script.interpreter 6).exec shelfRun.2 shelf method {} chosen stream u ∧
      openingFacts (chosen, stream, Stream.collected (Script.interpreter 6).exec chosen.overload.sig.result chosen.owner
        method u stream) = facts := by
  obtain ⟨opened, t, hrun, hfacts⟩ := exists_of_toOption hopening
  obtain ⟨selected, s₀, hchoose, hrun⟩ := exists_of_outcome_bind hrun
  cases hbody : selected.overload.body with
  | iterator code source =>
      rw [hbody] at hrun
      obtain ⟨stream, t', hopens, hrun⟩ := exists_of_outcome_bind hrun
      obtain ⟨rfl, rfl⟩ := eq_of_outcome_pure hrun
      exact ⟨selected, stream, _, ⟨code, source, s₀, t', hbody, hchoose, hopens, rfl⟩, hfacts⟩
  | _ =>
      rw [hbody] at hrun
      cases hrun

theorem exists_shelved {method : String} {numbers : List (Option Int64)} {stop : Option Fault}
    (henumerates : Enumerates (Script.interpreter 6) shelfRun.2)
    (hopening : ((shelfOpening method).outcome (withHeld shelfRun.2 [])).1.toOption.map openingFacts =
      some (true, numbers, stop)) :
    ∃ chosen stream u rounds left, Shelved method numbers stop chosen stream u rounds left := by
  obtain ⟨chosen, stream, u, hopens, hfacts⟩ := exists_opens_shelf hopening
  obtain ⟨hitems, hfacts⟩ := Prod.mk.inj hfacts
  obtain ⟨hnumbers, hstop⟩ := Prod.mk.inj hfacts
  obtain ⟨hresult, hboxes⟩ := Bool.and_eq_true_iff.mp hitems
  have hdeclared : ∀ declared ∈ chosen.overload.sig.result, Conversion.WithoutObjects declared.1 := by
    rw [eq_of_beq hresult]
    rintro declared ⟨⟩
    trivial
  obtain ⟨rounds, left, hiterates, hleft, hagrees, hindependent, -⟩ :=
    henumerates.iterates shelf method {} chosen stream u hopens hdeclared shelfRun_spec.2.1 untilTwo
  refine ⟨chosen, stream, u, rounds, left, hopens, ?_, hiterates, hleft, hagrees (hindependent fun v hv => ?_)⟩
  · refine ⟨_, hnumbers, ?_⟩
    rw [henumerates.collects shelf method {} chosen stream u hopens hdeclared, ← hstop]
  · exact List.isEmpty_iff.mp (List.all_eq_true.mp hboxes v hv)

/-- The call of the first method returns the three numbers, and the iteration runs the block for the first two of them,
the second of which is its result.  The call of the second method fails with the error in its stream, and so does the
iteration, after the block has run for the number before. -/
theorem shelf_enumerated :
    Reachable shelfRun.2 ∧
      (∃ chosen stream u rounds left v,
        Shelved "items" [some 1, some 2, some 3] none chosen stream u rounds left ∧ left.1 = .ok v ∧
        v.int64? = some 2 ∧ (shelfIterated "items").2.log.map (fun entry => entry.2.int64?) = [some 2, some 1]) ∧
      ∃ chosen stream u rounds left,
        Shelved "torn" [some 1] (some (.raised (.host "torn"))) chosen stream u rounds left ∧
        left.1 = .error (.raised (.host "torn")) ∧
        (shelfIterated "torn").2.log.map (fun entry => entry.2.int64?) = [some 1] := by
  obtain ⟨-, -, hitems, htorn, hiterated, hlog, hfailed, htornLog⟩ := shelfRun_spec
  have hs : Reachable shelfRun.2 := .between between_shelfRun
  have henumerates := hs.enumerates 6
  obtain ⟨chosen, stream, u, rounds, left, hshelved⟩ := exists_shelved henumerates hitems
  obtain ⟨v, hv, htwo⟩ := Option.map_eq_some_iff.mp hiterated
  have hleft : left.1 = .ok v := by
    rw [← fst_ended (shut chosen), ← hshelved.iterated]
    exact eq_ok_of_toOption hv
  refine ⟨hs, ⟨chosen, stream, u, rounds, left, v, hshelved, hleft, htwo, hlog⟩, ?_⟩
  obtain ⟨chosen, stream, u, rounds, left, hshelved⟩ := exists_shelved henumerates htorn
  refine ⟨chosen, stream, u, rounds, left, hshelved, ?_, htornLog⟩
  rw [hshelved.iterated, fst_ended] at hfailed
  cases hleft : left.1 with
  | ok v =>
      rw [hleft] at hfailed
      cases hfailed
  | error fault =>
      rw [hleft] at hfailed
      exact congrArg Except.error (Except.error.inj hfailed)

end Session

end ObjectBridge
