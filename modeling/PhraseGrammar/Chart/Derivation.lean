import PhraseGrammar.Chart.Tree
import PhraseGrammar.Grammar.Basic

namespace PhraseGrammar.Tree

/-- The derivations of parts of a sentence by those productions of a grammar that have a shape of
Chomsky normal form. A leaf holds the token at its position, and the right part of a branch begins
just after its left part. -/
inductive DerivedBy (g : Grammar) (tokens : List Token) : Tree → Prop where
  | leaf {a : Symbol} {position : Nat} {token : Token} (found : tokens[position]? = some token)
    (terminal : isTerminal token = true) (rule : ⟨a, [token]⟩ ∈ g.productions) :
    DerivedBy g tokens (.ofToken a position token)
  | branch {a : Symbol} {left right : Tree} (hl : DerivedBy g tokens left)
    (hr : DerivedBy g tokens right) (adjacent : right.first = left.last + 1)
    (nonterminals : isNonterminal left.symbol = true ∧ isNonterminal right.symbol = true)
    (rule : ⟨a, [left.symbol, right.symbol]⟩ ∈ g.productions) :
    DerivedBy g tokens (.ofParts a left right)

variable {g : Grammar} {tokens : List Token} {tree left right : Tree} {a : Symbol}

theorem DerivedBy.first_le_last (h : tree.DerivedBy g tokens) : tree.first ≤ tree.last := by
  induction h with
  | leaf => exact Nat.le_refl _
  | branch _ _ adjacent _ _ ihl ihr =>
    rw [first_ofParts, last_ofParts]
    omega

theorem DerivedBy.last_lt (h : tree.DerivedBy g tokens) : tree.last < tokens.length := by
  induction h with
  | leaf found => exact (List.getElem?_eq_some_iff.1 found).1
  | branch _ _ _ _ _ _ ihr => exact ihr

/-- The parts of a derivation are derivations, and its own production joins them. -/
theorem DerivedBy.parts (h : (ofParts a left right).DerivedBy g tokens) :
    left.DerivedBy g tokens ∧ right.DerivedBy g tokens ∧ right.first = left.last + 1 ∧
      (isNonterminal left.symbol = true ∧ isNonterminal right.symbol = true) ∧
        ⟨a, [left.symbol, right.symbol]⟩ ∈ g.productions := by
  generalize he : ofParts a left right = tree at h
  cases h with
  | leaf => cases he
  | branch hl hr adjacent nonterminals rule =>
    obtain ⟨rfl, rfl, rfl⟩ := ofParts_inj he
    exact ⟨hl, hr, adjacent, nonterminals, rule⟩

end PhraseGrammar.Tree
