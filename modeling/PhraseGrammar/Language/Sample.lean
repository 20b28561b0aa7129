import PhraseGrammar.Grammar.Basic
import PhraseGrammar.Language.Tape

namespace PhraseGrammar

/-- Why a random derivation came to no end. -/
inductive SampleError where
  | undefinedNonterminal (symbol : Symbol)
  | tooDeep
deriving DecidableEq

def SampleError.message : SampleError → String
  | .undefinedNonterminal symbol => "No definition for nonterminal `" ++ symbol ++ "`"
  | .tooDeep => "Derivation went too deep"

/-- The tokens of a derivation, or why there are none, and what is left of the random words. -/
abbrev Sample := Except SampleError (List Token) × Tape

/-- Expands the symbols of a right side one after the other, up to the first that fails. -/
def expandAll (expand : Symbol → Tape → Sample) : List Symbol → Tape → Sample
  | [], tape => (.ok [], tape)
  | s :: right, tape =>
    match expand s tape with
    | (.error cause, tape) => (.error cause, tape)
    | (.ok tokens, tape) =>
      match expandAll expand right tape with
      | (.error cause, tape) => (.error cause, tape)
      | (.ok rest, tape) => (.ok (tokens ++ rest), tape)

namespace Grammar

/-- Expands a symbol at random until only terminals are left, with at most `depth` nonterminals one
below the other. -/
def expand (g : Grammar) : Nat → Symbol → Tape → Sample
  | 0, s, tape => if isTerminal s then (.ok [s], tape) else (.error .tooDeep, tape)
  | depth + 1, s, tape =>
    if isTerminal s then (.ok [s], tape)
    else
      match tape.choose? (g.rightSides s) with
      | none => (.error (.undefinedNonterminal s), tape)
      | some (right, tape) => expandAll (g.expand depth) right tape

/-- A random sentence. -/
def sample (g : Grammar) (depth : Nat) (tape : Tape) : Sample :=
  g.expand depth g.start tape

/-- Random sentences one after the other, each drawing on what the one before has left. -/
def samples (g : Grammar) (depth : Nat) : Nat → Tape → List Sample
  | 0, _ => []
  | count + 1, tape =>
    let first := g.sample depth tape
    first :: g.samples depth count first.2

end Grammar

end PhraseGrammar
