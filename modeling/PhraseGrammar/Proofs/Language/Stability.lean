import PhraseGrammar.Proofs.Ascending
import PhraseGrammar.Proofs.Language.Enumeration

namespace PhraseGrammar

variable {known known' : PhraseGrammar.Yields} {bound : Nat} {s : Symbol} {right : List Symbol}
  {firsts seconds : List (List Token)}

theorem ascending_joinWithin (h : Ascending seconds) :
    Ascending (joinWithin bound firsts seconds) := by
  apply ascending_mergeAll
  intro list hl
  obtain ⟨first, _, rfl⟩ := List.mem_map.1 hl
  apply List.Pairwise.map _ _ (h.filter _)
  intro second second' hlt
  exact List.append_left_lt hlt

namespace Yields

theorem ascending_ofRight (hk : ∀ s, Ascending (known.ofSymbol s)) :
    Ascending (known.ofRight bound right) := by
  have hf : ∀ firsts, Ascending firsts → Ascending
      (right.foldl (fun firsts s => joinWithin bound firsts (known.ofSymbol s)) firsts) := by
    induction right with
    | nil => exact fun _ h => h
    | cons s right ih => exact fun _ _ => ih _ (ascending_joinWithin (hk s))
  exact hf [[]] (List.pairwise_singleton _ _)

theorem ascending_ofSymbol_of_isTerminal (hs : isTerminal s = true) :
    Ascending (known.ofSymbol s) := by
  rw [ofSymbol_of_isTerminal hs]
  exact List.pairwise_singleton _ _

theorem ofRight_congr (h : ∀ s, known.ofSymbol s = known'.ofSymbol s) :
    known.ofRight bound right = known'.ofRight bound right := by
  simp only [ofRight, h]

end Yields

namespace Grammar

variable {g : Grammar} {rounds : Nat}

theorem ascending_extendYields (hk : ∀ s, Ascending (known.ofSymbol s)) (s : Symbol) :
    Ascending ((g.extendYields bound known).ofSymbol s) := by
  rcases isTerminal_or_isNonterminal s with hs | hs
  · exact Yields.ascending_ofSymbol_of_isTerminal hs
  · rw [Yields.ofSymbol_of_isNonterminal hs]
    by_cases hm : s ∈ g.nonterminals
    · rw [lookup_extendYields hm, Option.getD_some]
      apply ascending_mergeAll
      intro list hl
      obtain ⟨right, _, rfl⟩ := List.mem_map.1 hl
      exact Yields.ascending_ofRight hk
    · rw [lookup_extendYields_of_not_mem hm]
      exact .nil

theorem ascending_yieldsAfter (rounds : Nat) (s : Symbol) :
    Ascending ((g.yieldsAfter bound rounds).ofSymbol s) := by
  induction rounds generalizing s with
  | zero =>
    rcases isTerminal_or_isNonterminal s with hs | hs
    · exact Yields.ascending_ofSymbol_of_isTerminal hs
    · rw [Yields.ofSymbol_of_isNonterminal hs]
      exact .nil
  | succ rounds ih =>
    rw [yieldsAfter_succ]
    exact ascending_extendYields ih s

theorem ascending_yieldsUpTo (s : Symbol) : Ascending ((g.yieldsUpTo bound).ofSymbol s) := by
  rw [yieldsUpTo_eq]
  exact ascending_yieldsAfter _ s

theorem IsSettled.ofSymbol_succ (h : g.IsSettled bound rounds (bound + 1)) (s : Symbol) :
    (g.yieldsAfter bound (rounds + 1)).ofSymbol s = (g.yieldsAfter bound rounds).ofSymbol s := by
  rcases isTerminal_or_isNonterminal s with hs | hs
  · rw [Yields.ofSymbol_of_isTerminal hs, Yields.ofSymbol_of_isTerminal hs]
  · apply List.Pairwise.eq_of_mem_iff (ascending_yieldsAfter _ s) (ascending_yieldsAfter _ s)
    intro tokens
    apply Iff.intro
    · intro hm
      exact h tokens (Nat.lt_succ_of_le (length_le_of_mem_yieldsAfter hs hm)) s hm
    · exact mem_yieldsAfter_succ

theorem extendYields_congr (hw : g.WellFormed)
    (h : ∀ s, (g.extendYields bound known).ofSymbol s = (g.extendYields bound known').ofSymbol s) :
    g.extendYields bound known = g.extendYields bound known' := by
  apply List.map_congr_left
  intro a ha
  obtain ⟨p, hp, rfl⟩ := mem_nonterminals_iff.1 ha
  have he := h p.left
  rw [Yields.ofSymbol_of_isNonterminal (hw.left p hp),
    Yields.ofSymbol_of_isNonterminal (hw.left p hp), lookup_extendYields ha,
    lookup_extendYields ha, Option.getD_some, Option.getD_some] at he
  rw [he]

/-- The rounds come to rest before their number is up. -/
theorem extendYields_yieldsUpTo (hw : g.WellFormed) :
    g.extendYields bound (g.yieldsUpTo bound) = g.yieldsUpTo bound := by
  have hs := isSettled g bound (bound + 1)
  rw [yieldsUpTo_eq]
  cases hr : g.nonterminals.length * (bound + 1) with
  | zero =>
    have hn : g.nonterminals = [] :=
      List.length_eq_zero_iff.1 ((Nat.mul_eq_zero.1 hr).resolve_right (Nat.succ_ne_zero _))
    rw [extendYields, hn]
    rfl
  | succ rounds =>
    rw [hr] at hs
    rw [yieldsAfter_succ]
    apply extendYields_congr hw
    simpa only [yieldsAfter_succ] using hs.ofSymbol_succ

end Grammar

end PhraseGrammar
