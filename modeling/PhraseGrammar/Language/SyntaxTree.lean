import PhraseGrammar.Grammar.Basic

namespace PhraseGrammar

/-- A terminal, or a nonterminal with a tree below it for each symbol that took its place. -/
inductive SyntaxTree where
  | leaf (token : Token)
  | node (symbol : Symbol) (below : List SyntaxTree)

namespace SyntaxTree

def root : SyntaxTree → Symbol
  | leaf token => token
  | node symbol _ => symbol

mutual

/-- The tokens of the leaves, from left to right. -/
def tokens : SyntaxTree → List Token
  | leaf token => [token]
  | node _ below => tokensOfAll below

def tokensOfAll : List SyntaxTree → List Token
  | [] => []
  | tree :: trees => tree.tokens ++ tokensOfAll trees

end

mutual

/-- The greatest number of nonterminals on a path down from the root. -/
def height : SyntaxTree → Nat
  | leaf _ => 0
  | node _ below => heightOfAll below + 1

def heightOfAll : List SyntaxTree → Nat
  | [] => 0
  | tree :: trees => max tree.height (heightOfAll trees)

end

/-- The leaves are terminals, and every other symbol stands with those just below it as the left and
the right side of a production. -/
inductive DerivedBy (g : Grammar) : SyntaxTree → Prop where
  | leaf {a : Symbol} (ha : isTerminal a = true) : DerivedBy g (.leaf a)
  | node {a : Symbol} {below : List SyntaxTree} (rule : ⟨a, below.map root⟩ ∈ g.productions)
    (parts : ∀ tree ∈ below, DerivedBy g tree) : DerivedBy g (.node a below)

end SyntaxTree

end PhraseGrammar
