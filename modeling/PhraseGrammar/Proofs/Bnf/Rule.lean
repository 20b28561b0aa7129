import PhraseGrammar.Bnf.Rule
import PhraseGrammar.Proofs.Pointwise

namespace PhraseGrammar.Bnf

variable {part : Lexeme} {parts : List Lexeme} {symbol? : Option Symbol} {right : List Symbol}
  {rule : Rule} {location : Location} {line : String}

/-- A lexeme of a right side, and the symbol that it stands for. -/
inductive Denotes : Lexeme → Option Symbol → Prop where
  | word {s : Symbol} (hs : isNonterminal s = true) : Denotes (.word s) (some s)
  | nothing : Denotes (.quoted "") none
  | quoted {s : Symbol} (hs : isTerminal s = true) (hne : s ≠ "") : Denotes (.quoted s) (some s)

/-- An alternative holds some lexeme, and stands for the symbols that its lexemes denote. -/
def IsAlternative (parts : List Lexeme) (right : List Symbol) : Prop :=
  parts ≠ [] ∧ ∃ symbols, List.Forall₂ Denotes parts symbols ∧ symbols.filterMap id = right

theorem symbolOf_eq_ok_iff : symbolOf part = .ok symbol? ↔ Denotes part symbol? := by
  apply Iff.intro
  · intro h
    cases part with
    | equals => cases h
    | bar => cases h
    | word s =>
      rw [symbolOf] at h
      split at h
      · rename_i hs
        cases h
        exact .word hs
      · cases h
    | quoted s =>
      rw [symbolOf] at h
      split at h
      · rename_i he
        cases h
        rw [he]
        exact .nothing
      · rename_i hne
        split at h
        · cases h
        · rename_i hs
          cases h
          exact .quoted (by simpa [isTerminal] using hs) hne
  · intro h
    cases h with
    | word hs => exact if_pos hs
    | nothing => rfl
    | quoted hs hne =>
      rw [isTerminal, Bool.not_eq_true'] at hs
      rw [symbolOf, if_neg hne, hs]
      rfl

theorem Denotes.ne_empty {s : Symbol} (h : Denotes part (some s)) : s ≠ "" := by
  cases h with
  | word hs =>
    rintro rfl
    cases hs
  | quoted _ hne => exact hne

theorem alternativeOf_eq_ok_iff : alternativeOf parts = .ok right ↔ IsAlternative parts right := by
  have hd : ∀ symbols, parts.mapM symbolOf = .ok symbols ↔ List.Forall₂ Denotes parts symbols := by
    intro symbols
    rw [mapM_eq_ok_iff]
    simp only [symbolOf_eq_ok_iff]
  rw [alternativeOf, IsAlternative]
  split
  · rename_i he
    simp [List.isEmpty_iff.1 he]
  · rename_i hne
    have hne : parts ≠ [] := by simpa using hne
    simp only [map_eq_ok_iff, hd, ne_eq, hne, not_false_eq_true, true_and]

theorem IsAlternative.bar_not_mem (h : IsAlternative parts right) : Lexeme.bar ∉ parts := by
  obtain ⟨_, symbols, hf, _⟩ := h
  intro hb
  obtain ⟨_, _, hd⟩ := (exists_mem_of_forall₂ hf).1 _ hb
  cases hd

theorem IsAlternative.empty_not_mem (h : IsAlternative parts right) : "" ∉ right := by
  obtain ⟨_, symbols, hf, rfl⟩ := h
  intro he
  obtain ⟨_, hm, rfl⟩ := List.mem_filterMap.1 he
  obtain ⟨_, _, hd⟩ := (exists_mem_of_forall₂ hf).2 _ hm
  exact hd.ne_empty rfl

/-- The right sides are those of the alternatives, which have bars between them. -/
theorem alternativesOf_eq_ok_iff {rights : List (List Symbol)} :
    alternativesOf parts = .ok rights ↔ ∃ alternatives, alternatives ≠ [] ∧
      parts = [.bar].intercalate alternatives ∧
        List.Forall₂ IsAlternative alternatives rights := by
  rw [alternativesOf, mapM_eq_ok_iff]
  simp only [alternativeOf_eq_ok_iff]
  apply Iff.intro
  · intro h
    exact ⟨_, List.splitOn_ne_nil _ _, (List.intercalate_splitOn _).symm, h⟩
  · rintro ⟨alternatives, hne, rfl, h⟩
    have hb : ∀ piece ∈ alternatives, Lexeme.bar ∉ piece := by
      intro piece hp
      obtain ⟨_, _, ha⟩ := (exists_mem_of_forall₂ h).1 piece hp
      exact ha.bar_not_mem
    rwa [List.splitOn_intercalate _ hb hne]

theorem Rule.ofLexemes_eq_ok_iff : Rule.ofLexemes location parts = .ok rule ↔
    isNonterminal rule.symbol = true ∧ rule.location = location ∧ ∃ rest,
      parts = .word rule.symbol :: .equals :: rest ∧
        alternativesOf rest = .ok rule.alternatives := by
  apply Iff.intro
  · intro h
    unfold Rule.ofLexemes at h
    split at h
    · cases h
    · split at h
      · cases h
      · rename_i s _ hs
        have hs : isNonterminal s = true := by simpa [isTerminal] using hs
        split at h
        · rename_i rest
          obtain ⟨_, ha, rfl⟩ := map_eq_ok_iff.1 h
          exact ⟨hs, rfl, rest, rfl, ha⟩
        · cases h
    · cases h
  · intro h
    obtain ⟨hs, rfl, rest, rfl, ha⟩ := h
    rw [Rule.ofLexemes, isTerminal, hs, ha]
    rfl

theorem Rule.ofLine_eq_ok_iff : Rule.ofLine line location = .ok rule ↔
    ∃ parts, lexemes line.toList = .ok parts ∧ Rule.ofLexemes location parts = .ok rule := by
  rw [Rule.ofLine]
  cases lexemes line.toList with
  | error => simp
  | ok parts =>
    simp only [Except.ok.injEq, exists_eq_left']
    cases Rule.ofLexemes location parts <;> simp

theorem Rule.location_of_ofLine_eq_error {fault : Fault ReadError}
    (h : Rule.ofLine line location = .error fault) : fault.location = location := by
  rw [Rule.ofLine] at h
  split at h
  · cases h
    rfl
  · split at h
    · cases h
      rfl
    · cases h

theorem Rule.alternatives_ne_nil_of_ofLine (h : Rule.ofLine line location = .ok rule) :
    rule.alternatives ≠ [] := by
  obtain ⟨_, _, h⟩ := Rule.ofLine_eq_ok_iff.1 h
  obtain ⟨_, _, _, _, ha⟩ := Rule.ofLexemes_eq_ok_iff.1 h
  obtain ⟨_, hne, _, hf⟩ := alternativesOf_eq_ok_iff.1 ha
  intro hn
  rw [hn, List.forall₂_nil_right_iff] at hf
  exact hne hf

/-- What the productions of a rule need to be those of a grammar. -/
structure Rule.WellFormed (rule : Rule) : Prop where
  symbol : isNonterminal rule.symbol = true
  alternatives : ∀ right ∈ rule.alternatives, "" ∉ right

theorem Rule.wellFormed_of_ofLine (h : Rule.ofLine line location = .ok rule) :
    rule.WellFormed ∧ rule.location = location := by
  obtain ⟨_, _, h⟩ := Rule.ofLine_eq_ok_iff.1 h
  obtain ⟨hs, hl, _, _, ha⟩ := Rule.ofLexemes_eq_ok_iff.1 h
  obtain ⟨_, _, _, hf⟩ := alternativesOf_eq_ok_iff.1 ha
  refine ⟨⟨hs, ?_⟩, hl⟩
  intro right hr
  obtain ⟨_, _, ha⟩ := (exists_mem_of_forall₂ hf).2 right hr
  exact ha.empty_not_mem

end PhraseGrammar.Bnf
