import PhraseGrammar.Grammar.Basic

namespace PhraseGrammar

/-- One production for each word, with the word as its whole right side. -/
def lexicalProductions (left : Symbol) (tokens : List Token) : List Production :=
  tokens.map fun token => ⟨left, [token]⟩

def englishVerbs : List Token :=
  ["cooks", "drinks", "eats", "cuts"]

def englishNouns : List Token :=
  ["cat", "dog", "beer", "cake", "juice", "meat", "soup", "fork", "knife", "oven", "spoon"]

def englishProductions : List Production :=
  [⟨"S", ["NP", "VP"]⟩, ⟨"VP", ["VP", "PP"]⟩, ⟨"VP", ["V", "NP"]⟩]
    ++ lexicalProductions "VP" englishVerbs
    ++ [⟨"PP", ["P", "NP"]⟩, ⟨"NP", ["Det", "N"]⟩]
    ++ lexicalProductions "NP" ["he", "she"]
    ++ lexicalProductions "V" englishVerbs
    ++ lexicalProductions "P" ["in", "with"]
    ++ lexicalProductions "N" englishNouns
    ++ lexicalProductions "Det" ["a", "the"]

/-- A small grammar of English, for use when no other is given. -/
def Grammar.english : Grammar :=
  ⟨"S", englishProductions⟩

end PhraseGrammar
