import PhraseGrammar.Symbol

namespace PhraseGrammar

/-- A derivation in Chomsky normal form, with the first and the last position that it spans: a
symbol that became one token, or a symbol that became two symbols with derivations of their own. -/
inductive Tree where
  | leaf (symbol : Symbol) (first last : Nat) (token : Token)
  | branch (symbol : Symbol) (first last : Nat) (left right : Tree)
deriving DecidableEq, Inhabited

namespace Tree

def symbol : Tree → Symbol
  | leaf symbol _ _ _ => symbol
  | branch symbol _ _ _ _ => symbol

/-- The first position of the span. -/
def first : Tree → Nat
  | leaf _ first _ _ => first
  | branch _ first _ _ _ => first

/-- The last position of the span. -/
def last : Tree → Nat
  | leaf _ _ last _ => last
  | branch _ _ last _ _ => last

/-- A symbol over the token at a position. -/
def ofToken (symbol : Symbol) (position : Nat) (token : Token) : Tree :=
  leaf symbol position position token

/-- A symbol over two parts, from where the left one begins to where the right one ends. Whether
they meet is not asked. -/
def ofParts (symbol : Symbol) (left right : Tree) : Tree :=
  branch symbol left.first right.last left right

/-- The tokens of the leaves, from left to right. -/
def tokens : Tree → List Token
  | leaf _ _ _ token => [token]
  | branch _ _ _ left right => left.tokens ++ right.tokens

/-- Writes one pair of brackets around each symbol with what it became. -/
def render : Tree → String
  | leaf symbol _ _ token => "(" ++ symbol ++ " " ++ token ++ ")"
  | branch symbol _ _ left right =>
    "(" ++ symbol ++ " " ++ left.render ++ " " ++ right.render ++ ")"

variable {a b : Symbol} {left right left' right' : Tree} {position position' : Nat}
  {token token' : Token}

@[simp]
theorem symbol_ofToken : (ofToken a position token).symbol = a := rfl

@[simp]
theorem first_ofToken : (ofToken a position token).first = position := rfl

@[simp]
theorem last_ofToken : (ofToken a position token).last = position := rfl

@[simp]
theorem symbol_ofParts : (ofParts a left right).symbol = a := rfl

@[simp]
theorem first_ofParts : (ofParts a left right).first = left.first := rfl

@[simp]
theorem last_ofParts : (ofParts a left right).last = right.last := rfl

theorem ofToken_inj (h : ofToken a position token = ofToken b position' token') :
    a = b ∧ position = position' ∧ token = token' := by
  obtain ⟨ha, hp, _, ht⟩ := leaf.inj h
  exact ⟨ha, hp, ht⟩

theorem ofParts_inj (h : ofParts a left right = ofParts b left' right') :
    a = b ∧ left = left' ∧ right = right' := by
  obtain ⟨ha, _, _, hl, hr⟩ := branch.inj h
  exact ⟨ha, hl, hr⟩

end Tree

end PhraseGrammar
