import PhraseGrammar.Normal.Chain
import PhraseGrammar.Normal.Preterminal
import PhraseGrammar.Normal.Reduction

namespace PhraseGrammar.Grammar

/-- Gives a start symbol that occurs on a right side its place to a new one with the same right
sides. -/
def freshenStart (g : Grammar) : Grammar :=
  if g.symbolsUsed.contains g.start then
    let start := ((NamePool.ofGrammar g).fresh "S0").1
    ofProductions start (g.productions ++ (g.rightSides g.start).map fun right => ⟨start, right⟩)
  else g

/-- Leaves out all empty right sides, and what is useless without them. -/
def dropEpsilon (g : Grammar) : Grammar :=
  (g.keeping (!·.isEpsilon)).withoutUseless

/-- A grammar in Chomsky normal form for the same sentences, the empty one excepted. -/
def normalize (g : Grammar) : Grammar :=
  g.withoutUseless.withoutEpsilon.withoutUnits.separateTerminals.binarize.freshenStart.dropEpsilon

end PhraseGrammar.Grammar
