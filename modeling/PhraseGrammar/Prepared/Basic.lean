import PhraseGrammar.Bnf.Document
import Std.Data.ExtTreeMap
import Std.Data.ExtTreeSet

namespace PhraseGrammar

/-- The right sides that belong to each left side. -/
abbrev RightSideIndex := Std.ExtTreeMap Symbol (List (List Symbol)) compare

/-- Puts the right side of a production behind the others of its left side. -/
def RightSideIndex.file (index : RightSideIndex) (p : Production) : RightSideIndex :=
  index.alter p.left fun rights => some (rights.getD [] ++ [p.right])

/-- A grammar that is kept together with what is often looked up in it. Equality is that of all
parts. -/
structure PreparedGrammar extends Grammar where
  nonterminals : Std.ExtTreeSet Symbol compare
  terminals : Std.ExtTreeSet Symbol compare
  rightSides : RightSideIndex
deriving DecidableEq

/-- Looks up everything in the productions. -/
def Grammar.prepare (g : Grammar) : PreparedGrammar where
  toGrammar := g
  nonterminals := .ofList (g.productions.map (·.left))
  terminals := .ofList ((g.productions.flatMap (·.right)).filter isTerminal)
  rightSides := g.productions.foldl RightSideIndex.file ∅

namespace PreparedGrammar

/-- What is looked up is looked up in the productions that are left when repeated ones are gone. -/
def ofProductions (start : Symbol) (productions : List Production) : PreparedGrammar :=
  (Grammar.ofProductions start productions).prepare

def validate (start : Symbol) (productions : List Production) :
    Except (Fault GrammarError) PreparedGrammar :=
  (Grammar.validate start productions).map Grammar.prepare

def read (path : String) (bytes : List UInt8) :
    Except (List (Fault Bnf.ReadError)) PreparedGrammar :=
  (Bnf.readDocument path bytes).map Grammar.prepare

/-- The right sides of one nonterminal, of which there may be none. -/
def rightSidesOf (x : PreparedGrammar) (symbol : Symbol) : List (List Symbol) :=
  x.rightSides.getD symbol []

/-- Another of the left sides becomes the start symbol, and nothing is looked up again. -/
def startingAt (x : PreparedGrammar) (start : Symbol) :
    Except (Fault GrammarError) PreparedGrammar :=
  if isTerminal start then .error ⟨.inGrammar 0, .invalidStart start⟩
  else if x.nonterminals.contains start then .ok { x with start }
  else .error ⟨.inGrammar 0, .undefinedStart start⟩

end PreparedGrammar

end PhraseGrammar
