import PhraseGrammar.Symbol
import PhraseGrammar.Text.Blank
import PhraseGrammar.Text.LowerCase

namespace PhraseGrammar

/-- The marks that separate words as a space does. -/
def isPunctuation (c : Char) : Bool :=
  c ∈ [',', '.', ';', ':', '!', '?', '"', '\x27', '(', ')', '[', ']', '\x7b', '\x7d']

/-- Writes a space in place of each punctuation mark. -/
def blankPunctuation (text : List Char) : List Char :=
  text.map fun c => if isPunctuation c then ' ' else c

/-- The words of a sentence in lower case, without punctuation. The sentence is lower-cased as a
whole, before its punctuation is taken away. -/
def tokenize (sentence : String) : List Token :=
  (words (blankPunctuation (lowerCase (trimBlanks sentence.toList)))).map String.ofList

end PhraseGrammar
