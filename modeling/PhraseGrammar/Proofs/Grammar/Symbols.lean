import PhraseGrammar.Grammar.Basic

namespace PhraseGrammar

theorem mem_ofList {s : Symbol} {symbols : List Symbol} :
    s ∈ SymbolSet.ofList symbols ↔ s ∈ symbols := by
  simp [SymbolSet.ofList, Std.TreeSet.mem_ofList]

theorem Production.isUnit_eq_true_iff {p : Production} :
    p.isUnit = true ↔ ∃ b, p.right = [b] ∧ isNonterminal b = true := by
  rw [isUnit]
  apply Iff.intro
  · intro h
    split at h
    · exact ⟨_, by assumption, h⟩
    · cases h
  · intro h
    obtain ⟨b, hr, hb⟩ := h
    rw [hr]
    exact hb

theorem Production.isNormal_eq_true_iff {p : Production} :
    p.isNormal = true ↔ (∃ a, p.right = [a] ∧ isTerminal a = true) ∨
      ∃ b c, p.right = [b, c] ∧ isNonterminal b = true ∧ isNonterminal c = true := by
  rw [isNormal]
  apply Iff.intro
  · intro h
    split at h
    · exact .inl ⟨_, by assumption, h⟩
    · exact .inr ⟨_, _, by assumption, Bool.and_eq_true_iff.1 h⟩
    · cases h
  · intro h
    rcases h with ⟨a, hr, ha⟩ | ⟨b, c, hr, hbc⟩
    · rw [hr]
      exact ha
    · rw [hr]
      exact Bool.and_eq_true_iff.2 hbc

namespace Grammar

variable {g : Grammar} {s : Symbol}

theorem mem_nonterminals_iff : s ∈ g.nonterminals ↔ ∃ p ∈ g.productions, p.left = s := by
  rw [nonterminals, Std.TreeSet.mem_toList, mem_ofList, List.mem_map]

theorem mem_symbolsUsed_iff : s ∈ g.symbolsUsed ↔ ∃ p ∈ g.productions, s ∈ p.right := by
  rw [symbolsUsed, mem_distinct, List.mem_flatMap]

theorem mem_terminals_iff :
    s ∈ g.terminals ↔ isTerminal s = true ∧ ∃ p ∈ g.productions, s ∈ p.right := by
  rw [terminals, Std.TreeSet.mem_toList, mem_ofList, List.mem_filter, mem_symbolsUsed_iff, and_comm]

theorem mem_rightSides_iff {right : List Symbol} :
    right ∈ g.rightSides s ↔ ⟨s, right⟩ ∈ g.productions := by
  rw [rightSides, List.mem_map]
  apply Iff.intro
  · intro h
    obtain ⟨⟨left, _⟩, hp, rfl⟩ := h
    obtain ⟨hm, hl⟩ := List.mem_filter.1 hp
    obtain rfl : left = s := beq_iff_eq.1 hl
    exact hm
  · intro h
    exact ⟨⟨s, right⟩, List.mem_filter.2 ⟨h, beq_iff_eq.2 rfl⟩, rfl⟩

theorem rightSides_ne_nil_iff : g.rightSides s ≠ [] ↔ s ∈ g.nonterminals := by
  rw [mem_nonterminals_iff]
  apply Iff.intro
  · intro h
    obtain ⟨right, hr⟩ := List.exists_mem_of_ne_nil _ h
    exact ⟨⟨s, right⟩, mem_rightSides_iff.1 hr, rfl⟩
  · intro h
    obtain ⟨p, hp, rfl⟩ := h
    exact List.ne_nil_of_mem (mem_rightSides_iff.2 hp)

theorem startingAt_eq_ok_iff {g' : Grammar} : g.startingAt s = .ok g' ↔
    isNonterminal s = true ∧ s ∈ g.nonterminals ∧ g' = ⟨s, g.productions⟩ := by
  have hm : g.productions.any (·.left == s) = true ↔ s ∈ g.nonterminals := by
    rw [mem_nonterminals_iff, List.any_eq_true]
    simp only [beq_iff_eq]
  rw [startingAt, isTerminal, ← hm]
  cases isNonterminal s with
  | false => simp
  | true => cases g.productions.any (·.left == s) <;> simp [eq_comm]

end Grammar

end PhraseGrammar
