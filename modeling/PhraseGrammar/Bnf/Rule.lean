import PhraseGrammar.Bnf.Lexeme

namespace PhraseGrammar.Bnf

/-- One rule line: a nonterminal and the right sides that may take its place. -/
structure Rule where
  symbol : Symbol
  alternatives : List (List Symbol)
  location : Location
deriving DecidableEq

/-- The symbol that a lexeme stands for, which is none for a quoted empty text. -/
def symbolOf : Lexeme → Except ReadError (Option Symbol)
  | .equals => .error .unexpectedEquals
  | .bar => .error .unsplitAlternatives
  | .word text => if isNonterminal text then .ok (some text) else .error (.unquotedTerminal text)
  | .quoted text =>
    if text = "" then .ok none
    else if isNonterminal text then .error (.quotedNonterminal text)
    else .ok (some text)

/-- The symbols of one right side. It has to hold some lexeme, and its first bad one is told. -/
def alternativeOf (parts : List Lexeme) : Except ReadError (List Symbol) :=
  if parts.isEmpty then .error .emptyAlternative
  else (parts.mapM symbolOf).map fun symbols => symbols.filterMap id

/-- The right sides between the bars. -/
def alternativesOf (parts : List Lexeme) : Except ReadError (List (List Symbol)) :=
  (parts.splitOn .bar).mapM alternativeOf

/-- A rule is a nonterminal, an equals sign and its right sides. -/
def Rule.ofLexemes (location : Location) : List Lexeme → Except ReadError Rule
  | [] => .error .unexpectedBlankLine
  | .word text :: rest =>
    if isTerminal text then .error .missingNonterminal
    else
      match rest with
      | .equals :: parts =>
        (alternativesOf parts).map fun alternatives => ⟨text, alternatives, location⟩
      | _ => .error .missingEquals
  | _ :: _ => .error .missingNonterminal

/-- Reads one line, whose faults are found at its own place. -/
def Rule.ofLine (line : String) (location : Location) : Except (Fault ReadError) Rule :=
  match lexemes line.toList with
  | .error cause => .error ⟨location, cause⟩
  | .ok parts =>
    match Rule.ofLexemes location parts with
    | .error cause => .error ⟨location, cause⟩
    | .ok rule => .ok rule

/-- A line that is blank or whose first visible character is a semicolon holds no rule. -/
def holdsRule (line : String) : Bool :=
  match line.toList.dropWhile isBlank with
  | [] => false
  | c :: _ => c != ';'

/-- The productions that a rule stands for. -/
def Rule.productions (rule : Rule) : List Production :=
  rule.alternatives.map fun right => ⟨rule.symbol, right⟩

end PhraseGrammar.Bnf
