import PhraseGrammar.Symbol

namespace PhraseGrammar

/-- A nonterminal, and a list of symbols that may take its place. -/
structure Production where
  left : Symbol
  right : List Symbol
deriving DecidableEq

namespace Production

/-- The left side before the symbols of the right side. -/
def symbols (p : Production) : List Symbol :=
  p.left :: p.right

/-- Productions are ordered by their symbols. -/
instance : Ord Production :=
  ⟨compareOn symbols⟩

instance : Std.TransOrd Production :=
  inferInstanceAs (Std.TransCmp (compareOn symbols))

instance : Std.LawfulEqOrd Production where
  compare_self := Std.ReflCmp.compare_self
  eq_of_compare {p q} h := by
    have hc : compare p.symbols q.symbols = .eq := h
    have hs := Std.LawfulEqCmp.eq_of_compare hc
    cases p
    cases q
    simpa [symbols] using hs

/-- The right side is empty. -/
def isEpsilon (p : Production) : Bool :=
  p.right.isEmpty

/-- The right side is a single nonterminal. -/
def isUnit (p : Production) : Bool :=
  match p.right with
  | [b] => isNonterminal b
  | _ => false

/-- The two shapes of Chomsky normal form: one terminal, or two nonterminals. -/
def isNormal (p : Production) : Bool :=
  match p.right with
  | [a] => isTerminal a
  | [b, c] => isNonterminal b && isNonterminal c
  | _ => false

/-- Writes an empty right side as `ε` and separates symbols by spaces. -/
def render (p : Production) : String :=
  p.left ++ " -> " ++ if p.right.isEmpty then "ε" else " ".intercalate p.right

end Production

end PhraseGrammar
