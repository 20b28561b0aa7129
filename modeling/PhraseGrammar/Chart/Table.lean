import PhraseGrammar.Chart.Basic

namespace PhraseGrammar

/-- A chart whose cells are counted and found with 64-bit words, in which a number that is too great
begins again at zero. -/
structure Table extends Chart

/-- A place behind the last cell was asked for, which ends the program. -/
structure OutOfBounds where
  index : Nat
deriving DecidableEq

namespace Table

/-- The number of cells for `size` tokens. -/
def cellCount (size : UInt64) : UInt64 :=
  size * (size + 1) / 2

/-- The place of a span among the cells for `size` tokens. -/
def place (size first last : UInt64) : UInt64 :=
  first * (2 * size + 1 - first) / 2 + (last - first)

/-- The table of a sentence of `size` tokens in which no tree has been found. -/
def empty (size : Nat) : Table :=
  ⟨⟨size, Array.replicate (cellCount (.ofNat size)).toNat []⟩⟩

/-- The place of a span, if the span lies in the sentence. -/
def place? (table : Table) (first last : Nat) : Option Nat :=
  if first ≤ last ∧ last < table.size then
    some (place (.ofNat table.size) (.ofNat first) (.ofNat last)).toNat
  else none

/-- The cell of a span, if the span lies in the sentence. -/
def cell? (table : Table) (first last : Nat) : Except OutOfBounds (Option Cell) :=
  match table.place? first last with
  | none => .ok none
  | some index =>
    match table.cells[index]? with
    | none => .error ⟨index⟩
    | some cell => .ok (some cell)

/-- The trees of a symbol over a span, in the order in which they were found. -/
def trees (table : Table) (first last : Nat) (symbol : Symbol) :
    Except OutOfBounds (Array Tree) :=
  (table.cell? first last).map fun
    | none => #[]
    | some cell => cell.trees symbol

/-- Puts a tree into the cell of its span. A tree outside the sentence is left out. -/
def add (table : Table) (tree : Tree) : Except OutOfBounds Table :=
  match table.place? tree.first tree.last with
  | none => .ok table
  | some index =>
    if index < table.cells.size then
      .ok { table with cells := table.cells.modify index (Cell.add tree) }
    else .error ⟨index⟩

/-- Puts trees into their cells, one after the other. -/
def addAll (table : Table) (trees : List Tree) : Except OutOfBounds Table :=
  trees.foldlM add table

end Table

end PhraseGrammar
