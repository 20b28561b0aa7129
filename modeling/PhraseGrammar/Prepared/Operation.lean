import PhraseGrammar.Normal.Form
import PhraseGrammar.Prepared.Basic

namespace PhraseGrammar

namespace PreparedGrammar

/-- The names in use, those of the left sides as they are kept. -/
def namePool (x : PreparedGrammar) : NamePool where
  used := .ofList (x.nonterminals.toList ++ x.symbolsUsed.filter isNonterminal)
  spent := ∅
  mem_of_lt_spent := fun _ _ h => by simp at h

def withoutUseless (x : PreparedGrammar) : PreparedGrammar :=
  x.toGrammar.withoutUseless.prepare

def withoutEpsilon (x : PreparedGrammar) : PreparedGrammar :=
  x.toGrammar.withoutEpsilon.prepare

def dropEpsilon (x : PreparedGrammar) : PreparedGrammar :=
  x.toGrammar.dropEpsilon.prepare

/-- Goes through the left sides in the order in which they are kept. -/
def withoutUnits (x : PreparedGrammar) : PreparedGrammar :=
  ofProductions x.start <| x.nonterminals.toList.flatMap fun a =>
    (x.unitClosure a).flatMap fun b =>
      (x.productions.filter fun p => p.left == b && !p.isUnit).map fun p => ⟨a, p.right⟩

def separateTerminals (x : PreparedGrammar) : PreparedGrammar :=
  let separated := Preterminals.separateAll ⟨x.namePool, []⟩ x.productions
  ofProductions x.start (separated.1 ++ separated.2.productions)

def binarize (x : PreparedGrammar) : PreparedGrammar :=
  ofProductions x.start (chains x.namePool x.productions).1

/-- The new start symbol gets the right sides that are kept for the old one. A grammar that needs no
new start symbol stays as it is. -/
def freshenStart (x : PreparedGrammar) : PreparedGrammar :=
  if x.symbolsUsed.contains x.start then
    let start := (x.namePool.fresh "S0").1
    ofProductions start
      (x.productions ++ (x.rightSidesOf x.start).map fun right => ⟨start, right⟩)
  else x

def normalize (x : PreparedGrammar) : PreparedGrammar :=
  x.withoutUseless.withoutEpsilon.withoutUnits.separateTerminals.binarize.freshenStart.dropEpsilon

end PreparedGrammar

/-- What makes a grammar from another one. -/
inductive Operation where
  | startingAt (symbol : Symbol)
  | withoutUseless
  | withoutEpsilon
  | withoutUnits
  | separateTerminals
  | binarize
  | freshenStart
  | dropEpsilon
  | normalize

/-- Only another start symbol can be refused. -/
def Operation.apply (x : PreparedGrammar) :
    Operation → Except (Fault GrammarError) PreparedGrammar
  | startingAt symbol => x.startingAt symbol
  | withoutUseless => .ok x.withoutUseless
  | withoutEpsilon => .ok x.withoutEpsilon
  | withoutUnits => .ok x.withoutUnits
  | separateTerminals => .ok x.separateTerminals
  | binarize => .ok x.binarize
  | freshenStart => .ok x.freshenStart
  | dropEpsilon => .ok x.dropEpsilon
  | normalize => .ok x.normalize

end PhraseGrammar
