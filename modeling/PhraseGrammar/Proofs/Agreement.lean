import PhraseGrammar.Proofs.Chart.Recognition
import PhraseGrammar.Proofs.Language.Enumeration
import PhraseGrammar.Proofs.Normal.Form

namespace PhraseGrammar

variable {g : Grammar} {tokens : List Token}

/-- By way of its normal form, a grammar's sentences are recognised, except the empty one. -/
theorem accepted_normalize_iff (hw : g.WellFormed) :
    ((Parser.ofGrammar g.normalize).parse tokens).accepted = true ↔
      tokens ≠ [] ∧ g.Yields [g.start] tokens := by
  have hn : ∀ p ∈ g.normalize.productions, p.isNormal = true :=
    fun _ => Grammar.isNormal_of_mem_normalize
  rw [Parser.accepted_iff_yields hw.normalize hn, Grammar.yields_normalize_iff hw]

/-- The parser and the enumeration agree on every list of tokens. -/
theorem accepted_iff_mem_sentencesUpTo {start : Symbol} {productions : List Production}
    {bound : Nat} (h : Grammar.validate start productions = .ok g)
    (hl : tokens.length ≤ bound) :
    ((Parser.ofGrammar g.normalize).parse tokens).accepted = true ↔
      tokens ≠ [] ∧ tokens ∈ g.sentencesUpTo bound := by
  obtain ⟨_, hw⟩ := Grammar.validate_eq_ok_iff.1 h
  rw [accepted_normalize_iff hw, Grammar.mem_sentencesUpTo_iff hw]
  simp only [hl, true_and]

theorem accepted_circular :
    ((Parser.ofGrammar Grammar.circular.normalize).parse ["a", "b", "a", "b"]).accepted = true ∧
      ((Parser.ofGrammar Grammar.circular.normalize).parse ["a", "A", "b"]).accepted ≠ true := by
  have hv := Grammar.validate_circular
  have ha : ["a", "b", "a", "b"] ∈ Grammar.circular.sentencesUpTo 4 := by decide +kernel
  have hr : ["a", "A", "b"] ∉ Grammar.circular.sentencesUpTo 3 := by decide +kernel
  refine ⟨?_, ?_⟩
  · exact (accepted_iff_mem_sentencesUpTo hv (by decide)).2 ⟨by decide, ha⟩
  · intro h
    exact hr ((accepted_iff_mem_sentencesUpTo hv (by decide)).1 h).2

end PhraseGrammar
