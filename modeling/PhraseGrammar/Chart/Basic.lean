import PhraseGrammar.Chart.Tree

namespace PhraseGrammar

/-- The trees over one span, sorted by their symbols. The trees of one symbol stay in the order in
which they were found. -/
abbrev Cell := List (Symbol × Array Tree)

namespace Cell

def trees (cell : Cell) (symbol : Symbol) : Array Tree :=
  (cell.lookup symbol).getD #[]

/-- Puts a tree behind the other trees of its symbol. -/
def add (tree : Tree) : Cell → Cell
  | [] => [(tree.symbol, #[tree])]
  | (symbol, trees) :: cell =>
    if tree.symbol < symbol then (tree.symbol, #[tree]) :: (symbol, trees) :: cell
    else if tree.symbol = symbol then (symbol, trees.push tree) :: cell
    else (symbol, trees) :: add tree cell

end Cell

/-- The cells of the spans of a sentence, which run from a first to a last position. They are laid
out row by row: the spans that begin at 0, then those that begin at 1, and so on. -/
structure Chart where
  size : Nat
  cells : Array Cell

namespace Chart

/-- The chart of a sentence of `size` tokens in which no tree has been found. -/
def empty (size : Nat) : Chart :=
  ⟨size, Array.replicate (size * (size + 1) / 2) []⟩

/-- The place of a span among the cells. The rows before row `first` hold `size`, `size - 1`, …
cells. -/
def index? (chart : Chart) (first last : Nat) : Option Nat :=
  if first ≤ last ∧ last < chart.size then
    some (first * (2 * chart.size + 1 - first) / 2 + (last - first))
  else none

/-- The cell of a span, if the span lies in the sentence. -/
def cell? (chart : Chart) (first last : Nat) : Option Cell :=
  (chart.index? first last).bind (chart.cells[·]?)

/-- The trees of a symbol over a span, in the order in which they were found. -/
def trees (chart : Chart) (first last : Nat) (symbol : Symbol) : Array Tree :=
  match chart.cell? first last with
  | none => #[]
  | some cell => cell.trees symbol

/-- Puts a tree into the cell of its span. A tree outside the sentence is left out. -/
def add (chart : Chart) (tree : Tree) : Chart :=
  match chart.index? tree.first tree.last with
  | none => chart
  | some index => { chart with cells := chart.cells.modify index (Cell.add tree) }

/-- The spans of the chart, row by row. -/
def spans (chart : Chart) : List (Nat × Nat) :=
  (List.range chart.size).flatMap fun first =>
    (List.range' first (chart.size - first)).map fun last => (first, last)

@[simp]
theorem size_add (chart : Chart) (tree : Tree) : (chart.add tree).size = chart.size := by
  rw [add]
  split <;> rfl

end Chart

end PhraseGrammar
