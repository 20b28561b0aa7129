import PhraseGrammar.Language.Enumeration
import PhraseGrammar.Proofs.Grammar.Symbols
import PhraseGrammar.Proofs.Language.Yield

namespace PhraseGrammar

variable {known known' : PhraseGrammar.Yields} {bound : Nat} {s : Symbol} {right : List Symbol}
  {tokens : List Token} {firsts seconds : List (List Token)}

theorem Yields.ofSymbol_of_isTerminal (h : isTerminal s = true) : known.ofSymbol s = [[s]] :=
  if_pos h

theorem Yields.ofSymbol_of_isNonterminal (h : isNonterminal s = true) :
    known.ofSymbol s = (known.lookup s).getD [] := by
  rw [ofSymbol, isTerminal, h]
  rfl

/-- A list is put together from what is known of the symbols of a right side, one after another. -/
inductive Yields.Assembles (known : Yields) : List Symbol → List Token → Prop where
  | nil : Assembles known [] []
  | cons {s : Symbol} {right : List Symbol} {first second : List Token}
    (hf : first ∈ known.ofSymbol s) (hs : Assembles known right second) :
    Assembles known (s :: right) (first ++ second)

/-- Of what is known, no more matters than the list itself and what is shorter. -/
theorem Yields.Assembles.mono (h : known.Assembles right tokens)
    (hk : ∀ s list, list.length < tokens.length ∨ list = tokens → list ∈ known.ofSymbol s →
      list ∈ known'.ofSymbol s) : known'.Assembles right tokens := by
  induction h with
  | nil => exact .nil
  | @cons s right first second hf _ ih =>
    rw [List.length_append] at hk
    refine .cons (hk s first ?_ hf) (ih ?_)
    · cases second with
      | nil => exact .inr (List.append_nil first).symm
      | cons => exact .inl (by simp)
    · intro s list hl hm
      refine hk s list ?_ hm
      cases first with
      | nil => simpa using hl
      | cons =>
        left
        rw [List.length_cons]
        rcases hl with hl | rfl
        · omega
        · omega

theorem Yields.Assembles.yields {g : Grammar} (h : known.Assembles right tokens)
    (hk : ∀ s, ∀ list ∈ known.ofSymbol s, g.Yields [s] list) : g.Yields right tokens := by
  induction h with
  | nil => exact .nil
  | cons hf _ ih => exact (hk _ _ hf).append ih

theorem mem_joinWithin_iff : tokens ∈ joinWithin bound firsts seconds ↔
    ∃ first ∈ firsts, ∃ second ∈ seconds, first.length + second.length ≤ bound ∧
      first ++ second = tokens := by
  rw [joinWithin, mem_mergeAll]
  apply Iff.intro
  · intro h
    obtain ⟨_, hl, hm⟩ := h
    obtain ⟨first, hf, rfl⟩ := List.mem_map.1 hl
    obtain ⟨second, hs, rfl⟩ := List.mem_map.1 hm
    obtain ⟨hs, hle⟩ := List.mem_filter.1 hs
    exact ⟨first, hf, second, hs, of_decide_eq_true hle, rfl⟩
  · intro h
    obtain ⟨first, hf, second, hs, hle, rfl⟩ := h
    refine ⟨_, List.mem_map_of_mem hf, List.mem_map_of_mem ?_⟩
    exact List.mem_filter.2 ⟨hs, decide_eq_true hle⟩

theorem mem_foldl_joinWithin_iff (hf : ∀ first ∈ firsts, first.length ≤ bound) :
    tokens ∈ right.foldl (fun firsts s => joinWithin bound firsts (known.ofSymbol s)) firsts ↔
      tokens.length ≤ bound ∧ ∃ first ∈ firsts, ∃ second, known.Assembles right second ∧
        first ++ second = tokens := by
  induction right generalizing firsts with
  | nil =>
    rw [List.foldl_nil]
    apply Iff.intro
    · intro h
      exact ⟨hf tokens h, tokens, h, [], .nil, List.append_nil tokens⟩
    · intro h
      obtain ⟨_, first, hm, second, hs, rfl⟩ := h
      cases hs
      rwa [List.append_nil]
  | cons s right ih =>
    have hj : ∀ first ∈ joinWithin bound firsts (known.ofSymbol s), first.length ≤ bound := by
      intro first hm
      obtain ⟨_, _, _, _, hle, rfl⟩ := mem_joinWithin_iff.1 hm
      rwa [List.length_append]
    rw [List.foldl_cons, ih hj]
    apply Iff.intro
    · intro h
      obtain ⟨hl, _, hm, second, hs, rfl⟩ := h
      obtain ⟨first, hf, middle, hk, _, rfl⟩ := mem_joinWithin_iff.1 hm
      exact ⟨hl, first, hf, middle ++ second, .cons hk hs, (List.append_assoc _ _ _).symm⟩
    · intro h
      obtain ⟨hl, first, hf, second, hs, rfl⟩ := h
      cases hs with
      | @cons _ _ middle second hm hs =>
        rw [← List.append_assoc] at hl ⊢
        have hle : first.length + middle.length ≤ bound := by
          simp only [List.length_append] at hl
          omega
        exact ⟨hl, _, mem_joinWithin_iff.2 ⟨first, hf, middle, hm, hle, rfl⟩, second, hs, rfl⟩

theorem Yields.mem_ofRight_iff : tokens ∈ known.ofRight bound right ↔
    tokens.length ≤ bound ∧ known.Assembles right tokens := by
  rw [ofRight, mem_foldl_joinWithin_iff (by simp)]
  simp

theorem lookup_map_eq {α β : Type} [BEq α] [LawfulBEq α] {l : List α} {f : α → β} {a : α}
    (h : a ∈ l) : (l.map fun a => (a, f a)).lookup a = some (f a) := by
  induction l with
  | nil => cases h
  | cons b l ih =>
    rw [List.map_cons, List.lookup_cons]
    by_cases hb : a = b
    · simp [hb]
    · rw [beq_eq_false_iff_ne.2 hb]
      exact ih ((List.mem_cons.1 h).resolve_left hb)

namespace Grammar

variable {g : Grammar} {a : Symbol}

theorem lookup_extendYields (ha : a ∈ g.nonterminals) : (g.extendYields bound known).lookup a =
    some (mergeAll ((g.rightSides a).map (known.ofRight bound))) :=
  lookup_map_eq ha

theorem lookup_extendYields_of_not_mem (ha : a ∉ g.nonterminals) :
    (g.extendYields bound known).lookup a = none := by
  rw [List.lookup_eq_none_iff]
  intro entry he
  obtain ⟨b, hb, rfl⟩ := List.mem_map.1 he
  have hne : a ≠ b := fun h => ha (h ▸ hb)
  simpa using hne

/-- A round finds what can be put together from what was known before. -/
theorem mem_extendYields_iff (ha : isNonterminal a = true) :
    tokens ∈ (g.extendYields bound known).ofSymbol a ↔ tokens.length ≤ bound ∧
      ∃ p ∈ g.productions, p.left = a ∧ known.Assembles p.right tokens := by
  rw [Yields.ofSymbol_of_isNonterminal ha]
  by_cases hm : a ∈ g.nonterminals
  · rw [lookup_extendYields hm, Option.getD_some, mem_mergeAll]
    apply Iff.intro
    · intro h
      obtain ⟨_, hl, ht⟩ := h
      obtain ⟨right, hr, rfl⟩ := List.mem_map.1 hl
      obtain ⟨hle, hs⟩ := Yields.mem_ofRight_iff.1 ht
      exact ⟨hle, ⟨a, right⟩, mem_rightSides_iff.1 hr, rfl, hs⟩
    · intro h
      obtain ⟨hle, p, hp, rfl, hs⟩ := h
      have hr : p.right ∈ g.rightSides p.left := mem_rightSides_iff.2 hp
      exact ⟨_, List.mem_map_of_mem hr, Yields.mem_ofRight_iff.2 ⟨hle, hs⟩⟩
  · rw [lookup_extendYields_of_not_mem hm]
    apply iff_of_false List.not_mem_nil
    intro h
    obtain ⟨_, p, hp, hl, _⟩ := h
    exact hm (mem_nonterminals_iff.2 ⟨p, hp, hl⟩)

end Grammar

end PhraseGrammar
