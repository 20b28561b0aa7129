import PhraseGrammar.Normal.NamePool

namespace PhraseGrammar

/-- The nonterminals that stand for terminals, in the order in which they were named. -/
structure Preterminals where
  pool : NamePool
  names : List (Symbol × Symbol)

namespace Preterminals

/-- The name that stands for a terminal. A terminal gets its name when it is first met. -/
def nameOf (table : Preterminals) (terminal : Symbol) : Symbol × Preterminals :=
  match table.names.lookup terminal with
  | some name => (name, table)
  | none =>
    let fresh := table.pool.fresh ("T_" ++ terminal)
    (fresh.1, ⟨fresh.2, table.names ++ [(terminal, fresh.1)]⟩)

/-- Puts names in the places of the terminals of a right side. -/
def separate (table : Preterminals) : List Symbol → List Symbol × Preterminals
  | [] => ([], table)
  | s :: right =>
    let first := if isNonterminal s then (s, table) else table.nameOf s
    let rest := first.2.separate right
    (first.1 :: rest.1, rest.2)

/-- Puts names in the places of the terminals of all right sides longer than one symbol. -/
def separateAll (table : Preterminals) : List Production → List Production × Preterminals
  | [] => ([], table)
  | p :: productions =>
    let first := if p.right.length < 2 then (p.right, table) else table.separate p.right
    let rest := first.2.separateAll productions
    (⟨p.left, first.1⟩ :: rest.1, rest.2)

/-- A production for each name, with its terminal on the right. -/
def productions (table : Preterminals) : List Production :=
  table.names.map fun entry => ⟨entry.2, [entry.1]⟩

end Preterminals

/-- In right sides longer than one symbol, a nonterminal of its own stands for each terminal. -/
def Grammar.separateTerminals (g : Grammar) : Grammar :=
  let separated := Preterminals.separateAll ⟨.ofGrammar g, []⟩ g.productions
  ofProductions g.start (separated.1 ++ separated.2.productions)

end PhraseGrammar
