import PhraseGrammar.Ascending
import PhraseGrammar.Grammar.Basic

namespace PhraseGrammar

/-- For each nonterminal, the lists of terminals found to be derivable from it so far, in increasing
order. -/
abbrev Yields := List (Symbol × List (List Token))

/-- What a single symbol is known to yield. A terminal yields itself alone. -/
def Yields.ofSymbol (known : Yields) (s : Symbol) : List (List Token) :=
  if isTerminal s then [[s]] else (known.lookup s).getD []

/-- The lists of at most `bound` tokens that begin with one of the first lists and go on with one of
the second, when both kinds are given in increasing order. -/
def joinWithin (bound : Nat) (firsts seconds : List (List Token)) : List (List Token) :=
  mergeAll <| firsts.map fun first =>
    (seconds.filter (first.length + ·.length ≤ bound)).map (first ++ ·)

/-- What a right side is known to yield in at most `bound` tokens, in increasing order. It is put
together from the left, so that nothing is found twice. -/
def Yields.ofRight (known : Yields) (bound : Nat) (right : List Symbol) : List (List Token) :=
  right.foldl (fun firsts s => joinWithin bound firsts (known.ofSymbol s)) [[]]

namespace Grammar

/-- What each nonterminal yields in at most `bound` tokens by one production, when the symbols of
the right side yield what is known of them. -/
def extendYields (g : Grammar) (bound : Nat) (known : Yields) : Yields :=
  g.nonterminals.map fun a => (a, mergeAll ((g.rightSides a).map (known.ofRight bound)))

/-- Extends what is known until nothing new comes, for at most `limit` rounds. -/
def growYields (g : Grammar) (bound : Nat) : Nat → Yields → Yields
  | 0, known => known
  | limit + 1, known =>
    let next := g.extendYields bound known
    if next = known then known else growYields g bound limit next

/-- What each nonterminal yields in at most `bound` tokens. In a smallest derivation no nonterminal
derives the same tokens twice on one path, so there are no more rounds to go than nonterminals for
each possible length. -/
def yieldsUpTo (g : Grammar) (bound : Nat) : Yields :=
  g.growYields bound (g.nonterminals.length * (bound + 1)) []

/-- The sentences of at most `bound` tokens, in increasing order. -/
def sentencesUpTo (g : Grammar) (bound : Nat) : List (List Token) :=
  (g.yieldsUpTo bound).ofSymbol g.start

end Grammar

end PhraseGrammar
