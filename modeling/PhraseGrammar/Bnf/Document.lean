import PhraseGrammar.Bnf.Rule
import PhraseGrammar.Text.Lines

namespace PhraseGrammar.Bnf

/-- The nonterminals of a rule that are not among the defined ones, in order of appearance. -/
def Rule.undefinedSymbols (defined : List Symbol) (rule : Rule) : List Symbol :=
  (rule.alternatives.flatten.filter fun s => isNonterminal s && !defined.contains s).eraseDups

/-- Each rule answers for its own undefined nonterminals, once for each. -/
def undefinedFaults (rules : List Rule) : List (Fault ReadError) :=
  let defined := rules.map (·.symbol)
  rules.flatMap fun rule =>
    (rule.undefinedSymbols defined).map fun s => ⟨rule.location, .undefinedNonterminal s⟩

/-- The grammar that begins with the first rule's nonterminal. Faults that belong to no single
rule are placed at the whole file. -/
def assemble (path : String) (rules : List Rule) : Except (List (Fault ReadError)) Grammar :=
  match rules with
  | [] => .error [⟨.inFile path 0, .noRules⟩]
  | first :: _ =>
    match undefinedFaults rules with
    | [] =>
      match Grammar.validate first.symbol (rules.flatMap (·.productions)) with
      | .error fault => .error [⟨.inFile path 0, .invalidGrammar fault.cause⟩]
      | .ok g => .ok g
    | faults => .error faults

/-- What a line of a file holds, if it holds anything: a rule, or a fault. -/
def readLine? (path : String) (number : Nat) :
    Option String → Option (Except (Fault ReadError) Rule)
  | none => some (.error ⟨.inFile path 0, .fileError .invalidText⟩)
  | some line =>
    if holdsRule line then some (Rule.ofLine line (.inFile path number)) else none

/-- Reads every line of a file, the first of which has the given number. -/
def readLines (path : String) : Nat → List (Option String) → List (Except (Fault ReadError) Rule)
  | _, [] => []
  | number, line :: lines =>
    (readLine? path number line).toList ++ readLines path (number + 1) lines

/-- The faults among the outcomes of reading lines. -/
def faultsOf (outcomes : List (Except (Fault ReadError) Rule)) : List (Fault ReadError) :=
  outcomes.filterMap fun
    | .error fault => some fault
    | .ok _ => none

/-- The rules among the outcomes of reading lines. -/
def rulesOf (outcomes : List (Except (Fault ReadError) Rule)) : List Rule :=
  outcomes.filterMap fun
    | .error _ => none
    | .ok rule => some rule

/-- Reads a grammar from the bytes of a file. Every bad line is told; only when there is none are
the rules judged together. -/
def readDocument (path : String) (bytes : List UInt8) : Except (List (Fault ReadError)) Grammar :=
  let outcomes := readLines path 1 (decodedLines bytes)
  match faultsOf outcomes with
  | [] => assemble path (rulesOf outcomes)
  | faults => .error faults

end PhraseGrammar.Bnf
