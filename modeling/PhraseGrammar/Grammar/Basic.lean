import PhraseGrammar.Distinct
import PhraseGrammar.Grammar.Production
import PhraseGrammar.Location

namespace PhraseGrammar

/-- A start symbol and the productions in the order in which they were given. -/
structure Grammar where
  start : Symbol
  productions : List Production
deriving DecidableEq

/-- Why a list of productions is no grammar, or a symbol cannot be its start. -/
inductive GrammarError where
  | nonterminalExpected (symbol : Symbol)
  | emptySymbol
  | invalidStart (symbol : Symbol)
  | undefinedStart (symbol : Symbol)
deriving DecidableEq

def GrammarError.message : GrammarError → String
  | .nonterminalExpected symbol => "`" ++ symbol ++ "` is not a nonterminal and cannot be rewritten"
  | .emptySymbol => "Empty symbol on the right side of a production"
  | .invalidStart symbol => "Start symbol `" ++ symbol ++ "` is not a nonterminal"
  | .undefinedStart symbol => "Could not find definition for start symbol `" ++ symbol ++ "`"

/-- The left side is judged before the right side. -/
def Production.error? (p : Production) : Option GrammarError :=
  if isTerminal p.left then some (.nonterminalExpected p.left)
  else if "" ∈ p.right then some .emptySymbol
  else none

namespace Grammar

/-- Collects productions, of which only the first of several equal ones is kept. -/
def ofProductions (start : Symbol) (productions : List Production) : Grammar :=
  ⟨start, distinct productions⟩

/-- The first of the productions that has a fault, when they are numbered from `number` on. -/
def firstFault? (number : Nat) : List Production → Option (Fault GrammarError)
  | [] => none
  | p :: productions =>
    match p.error? with
    | some cause => some ⟨.inGrammar number, cause⟩
    | none => firstFault? (number + 1) productions

/-- A grammar, provided that the start symbol and every left side are nonterminals and no right
side holds the empty string. Otherwise the first problem, the start symbol's before all others. -/
def validate (start : Symbol) (productions : List Production) :
    Except (Fault GrammarError) Grammar :=
  if isTerminal start then .error ⟨.inGrammar 0, .invalidStart start⟩
  else
    match firstFault? 1 productions with
    | some fault => .error fault
    | none => .ok (ofProductions start productions)

/-- The left sides in increasing order. -/
def nonterminals (g : Grammar) : List Symbol :=
  (SymbolSet.ofList (g.productions.map (·.left))).toList

/-- The symbols of all right sides, in order of first appearance. -/
def symbolsUsed (g : Grammar) : List Symbol :=
  distinct (g.productions.flatMap (·.right))

/-- The terminals of all right sides in increasing order. -/
def terminals (g : Grammar) : List Symbol :=
  (SymbolSet.ofList (g.symbolsUsed.filter isTerminal)).toList

/-- The right sides of one nonterminal, in the order of the productions. -/
def rightSides (g : Grammar) (symbol : Symbol) : List (List Symbol) :=
  (g.productions.filter (·.left == symbol)).map (·.right)

def isEmpty (g : Grammar) : Bool :=
  g.productions.isEmpty

/-- Every production has one of the two shapes of Chomsky normal form. -/
def isNormal (g : Grammar) : Bool :=
  g.productions.all (·.isNormal)

/-- The same productions with another of their left sides as start symbol. -/
def startingAt (g : Grammar) (start : Symbol) : Except (Fault GrammarError) Grammar :=
  if isTerminal start then .error ⟨.inGrammar 0, .invalidStart start⟩
  else if g.productions.any (·.left == start) then .ok { g with start }
  else .error ⟨.inGrammar 0, .undefinedStart start⟩

/-- One line for the start symbol, and one for each production. -/
def render (g : Grammar) : String :=
  "start: " ++ g.start ++ "\n" ++ String.join (g.productions.map fun p => p.render ++ "\n")

end Grammar

end PhraseGrammar
