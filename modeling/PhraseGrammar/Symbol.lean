import PhraseGrammar.Text.Uppercase
import Std.Data.TreeSet

namespace PhraseGrammar

/-- A symbol of a grammar. Its first character tells a nonterminal from a terminal. -/
abbrev Symbol := String

/-- A set of symbols that is quick to search. -/
abbrev SymbolSet := Std.TreeSet Symbol compare

abbrev SymbolSet.ofList (symbols : List Symbol) : SymbolSet :=
  Std.TreeSet.ofList symbols

/-- A word of a sentence, as the parser compares it with terminals. -/
abbrev Token := String

/-- Nonterminals begin with an upper-case character. -/
def isNonterminal (symbol : Symbol) : Bool :=
  match symbol.toList with
  | [] => false
  | c :: _ => isUppercase c

/-- Every symbol that is not a nonterminal is a terminal, the empty string included. -/
def isTerminal (symbol : Symbol) : Bool :=
  !isNonterminal symbol

end PhraseGrammar
