import PhraseGrammar.Normal.NamePool

namespace PhraseGrammar

/-- A chain of productions with two symbols on the right that together derive the given right side
from `left`. A right side of two symbols or fewer needs no chain. -/
def chain (pool : NamePool) (base left : Symbol) : List Symbol → List Production × NamePool
  | a :: b :: c :: right =>
    let link := pool.fresh base
    let rest := chain link.2 base link.1 (b :: c :: right)
    (⟨left, [a, link.1]⟩ :: rest.1, rest.2)
  | right => ([⟨left, right⟩], pool)

/-- The chains of all productions, the links of each named after its left side. -/
def chains (pool : NamePool) : List Production → List Production × NamePool
  | [] => ([], pool)
  | p :: productions =>
    let first := chain pool ("BIN_" ++ p.left) p.left p.right
    let rest := chains first.2 productions
    (first.1 ++ rest.1, rest.2)

/-- Splits right sides longer than two symbols. -/
def Grammar.binarize (g : Grammar) : Grammar :=
  ofProductions g.start (chains (.ofGrammar g) g.productions).1

end PhraseGrammar
