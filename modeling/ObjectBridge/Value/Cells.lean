import ObjectBridge.Value.Basic

/-!
# Cells in use

A cell is in use as long as something mentions it: a value in use, or the content of another cell in
use. `Cells.live` finds the cells in use by counting mentions. It drops the cells without a mention,
which takes away the mentions that their contents make, until no more cells are to be dropped.

Cells that mention each other in a circle keep their mentions, so they stay in use with everything
they hold.
-/

namespace ObjectBridge.Cells

/-- Count mentions of cells. -/
def countMentions (counts : Array Nat) (mentions : List BoxId) : Array Nat :=
  mentions.foldl (fun counts b => counts.modify b (· + 1)) counts

/-- How often values in use and the contents of all cells mention each cell. -/
def mentionCounts (cells : Cells) (values : List Value) : Array Nat :=
  cells.foldl (fun counts v => countMentions counts v.boxes)
    (countMentions (Array.replicate cells.size 0) (Value.listBoxes values))

/-- Take mentions away. A cell that has none left joins those to be dropped; a number without a cell
never does. -/
def forget (counts : Array Nat) (dropped : List BoxId) : List BoxId → Array Nat × List BoxId
  | [] => (counts, dropped)
  | b :: rest =>
      let counts := counts.modify b (· - 1)
      forget counts (if counts.getD b 1 = 0 then b :: dropped else dropped) rest

/-- Drop cells, and then the cells that thereby lose their last mention, at most as many as told.
Answers with the mentions that are left. -/
def drop (cells : Cells) : Nat → Array Nat → List BoxId → Array Nat
  | 0, counts, _ => counts
  | _, counts, [] => counts
  | steps + 1, counts, b :: rest =>
      let (counts, dropped) := forget counts rest (cells.content b).boxes
      drop cells steps counts dropped

/-- The cells in use, given the values in use. No cell is dropped twice, so the number of cells
bounds how many are dropped. -/
def live (cells : Cells) (values : List Value) : List BoxId :=
  let numbers := List.range cells.size
  let counts := cells.mentionCounts values
  let counts := cells.drop cells.size counts (numbers.filter fun b => counts.getD b 0 = 0)
  numbers.filter fun b => counts.getD b 0 ≠ 0

end ObjectBridge.Cells
