import PhraseGrammar.Chart.Basic
import PhraseGrammar.Grammar.Basic

namespace PhraseGrammar

/-- A production of two nonterminals from `parent`. -/
structure BranchRule where
  parent : Symbol
  left : Symbol
  right : Symbol

/-- A production of one terminal from `parent`. -/
structure LeafRule where
  parent : Symbol
  token : Token

/-- The productions of a grammar that a chart can be filled with. -/
structure Parser where
  start : Symbol
  leafRules : List LeafRule
  branchRules : List BranchRule

def Production.leafRule? (p : Production) : Option LeafRule :=
  match p.right with
  | [a] => if isTerminal a then some ⟨p.left, a⟩ else none
  | _ => none

def Production.branchRule? (p : Production) : Option BranchRule :=
  match p.right with
  | [b, c] => if isNonterminal b && isNonterminal c then some ⟨p.left, b, c⟩ else none
  | _ => none

/-- The chart of a sentence, filled from shorter spans to longer ones. -/
structure Parse where
  start : Symbol
  chart : Chart

namespace Parser

/-- Productions that have neither shape of Chomsky normal form play no part. -/
def ofGrammar (g : Grammar) : Parser :=
  ⟨g.start, g.productions.filterMap (·.leafRule?), g.productions.filterMap (·.branchRule?)⟩

/-- The trees over one token. -/
def leaves (parser : Parser) (position : Nat) (token : Token) : List Tree :=
  (parser.leafRules.filter (·.token == token)).map fun rule => .ofToken rule.parent position token

/-- The trees whose left parts come from one cell and whose right parts come from another. -/
def branches (parser : Parser) (lefts rights : Cell) : List Tree :=
  lefts.flatMap fun (b, bTrees) =>
    let rules := parser.branchRules.filter (·.left == b)
    rights.flatMap fun (c, cTrees) =>
      (rules.filter (·.right == c)).flatMap fun rule =>
        bTrees.toList.flatMap fun left =>
          cTrees.toList.map fun right => .ofParts rule.parent left right

/-- The trees over a span of two tokens or more, by the last position of the left part. -/
def treesOver (parser : Parser) (chart : Chart) (first last : Nat) : List Tree :=
  (List.range' first (last - first)).flatMap fun middle =>
    match chart.cell? first middle, chart.cell? (middle + 1) last with
    | some lefts, some rights => parser.branches lefts rights
    | _, _ => []

/-- Fills the cell of a span for which the cells of all shorter spans are complete. -/
def fillSpan (parser : Parser) (chart : Chart) (span : Nat × Nat) : Chart :=
  (parser.treesOver chart span.1 span.2).foldl Chart.add chart

/-- The spans of two positions or more in a sentence, the shorter ones first. -/
def spansByLength (size : Nat) : List (Nat × Nat) :=
  (List.range' 2 (size - 1)).flatMap fun length =>
    (List.range (size + 1 - length)).map fun first => (first, first + length - 1)

/-- The chart in which only single tokens have been looked at. -/
def leafChart (parser : Parser) (tokens : List Token) : Chart :=
  (tokens.zipIdx.flatMap fun (token, position) => parser.leaves position token).foldl
    Chart.add (.empty tokens.length)

/-- Finds every derivation of every span of a sentence. -/
def parse (parser : Parser) (tokens : List Token) : Parse :=
  ⟨parser.start, (spansByLength tokens.length).foldl parser.fillSpan (parser.leafChart tokens)⟩

end Parser

namespace Parse

/-- The derivations of the whole sentence from the start symbol. -/
def derivations (parse : Parse) : Array Tree :=
  parse.chart.trees 0 (parse.chart.size - 1) parse.start

/-- The first derivation of the whole sentence. -/
def root? (parse : Parse) : Option Tree :=
  parse.derivations[0]?

def accepted (parse : Parse) : Bool :=
  parse.root?.isSome

end Parse

end PhraseGrammar
