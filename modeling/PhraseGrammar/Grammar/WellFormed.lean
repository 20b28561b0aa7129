import PhraseGrammar.Grammar.Basic

namespace PhraseGrammar.Grammar

/-- The start symbol and the left sides are nonterminals, no right side holds the empty string, and
no production is there twice. -/
structure WellFormed (g : Grammar) : Prop where
  start : isNonterminal g.start = true
  left : ∀ p ∈ g.productions, isNonterminal p.left = true
  right : ∀ p ∈ g.productions, "" ∉ p.right
  nodup : g.productions.Nodup

theorem mem_ofProductions {start : Symbol} {productions : List Production} {p : Production} :
    p ∈ (ofProductions start productions).productions ↔ p ∈ productions :=
  mem_distinct

theorem WellFormed.of_productions {start : Symbol} {productions : List Production}
    (hs : isNonterminal start = true) (hl : ∀ p ∈ productions, isNonterminal p.left = true)
    (hr : ∀ p ∈ productions, "" ∉ p.right) : (ofProductions start productions).WellFormed where
  start := hs
  left p hp := hl p (mem_ofProductions.1 hp)
  right p hp := hr p (mem_ofProductions.1 hp)
  nodup := nodup_distinct

theorem error?_eq_none_iff {p : Production} :
    p.error? = none ↔ isNonterminal p.left = true ∧ "" ∉ p.right := by
  rw [Production.error?, isTerminal]
  cases isNonterminal p.left <;> simp

theorem firstFault?_eq_none_iff {productions : List Production} {number : Nat} :
    firstFault? number productions = none ↔ ∀ p ∈ productions, p.error? = none := by
  induction productions generalizing number with
  | nil => simp [firstFault?]
  | cons p rest ih => cases h : p.error? <;> simp [firstFault?, h, ih]

/-- A grammar that passes the check is what its productions make, and is well formed. -/
theorem validate_eq_ok_iff {start : Symbol} {productions : List Production} {g : Grammar} :
    validate start productions = .ok g ↔ g = ofProductions start productions ∧ g.WellFormed := by
  constructor
  · intro h
    rw [validate] at h
    split at h
    · simp at h
    · rename_i hs
      split at h
      · simp at h
      · rename_i hf
        cases h
        have hp := firstFault?_eq_none_iff.1 hf
        have hn : isNonterminal start = true := by simpa [isTerminal] using hs
        refine ⟨rfl, ⟨hn, ?_, ?_, nodup_distinct⟩⟩
        · intro p hm
          exact (error?_eq_none_iff.1 (hp p (mem_ofProductions.1 hm))).1
        · intro p hm
          exact (error?_eq_none_iff.1 (hp p (mem_ofProductions.1 hm))).2
  · rintro ⟨rfl, hw⟩
    have hs : isNonterminal start = true := hw.start
    have hf : firstFault? 1 productions = none := firstFault?_eq_none_iff.2 fun p hm =>
      error?_eq_none_iff.2
        ⟨hw.left p (mem_ofProductions.2 hm), hw.right p (mem_ofProductions.2 hm)⟩
    simp [validate, isTerminal, hs, hf]

theorem WellFormed.validate_eq {g : Grammar} (hw : g.WellFormed) :
    validate g.start g.productions = .ok g := by
  apply validate_eq_ok_iff.2 ⟨?_, hw⟩
  rw [ofProductions, distinct_of_nodup hw.nodup]

end PhraseGrammar.Grammar
