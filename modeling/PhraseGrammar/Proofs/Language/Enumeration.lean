import Mathlib.Data.List.Basic
import Mathlib.Order.Monotone.Basic
import PhraseGrammar.Proofs.Language.Round

namespace PhraseGrammar.Grammar

variable {g : Grammar} {bound rounds rounds' length : Nat} {s : Symbol} {tokens : List Token}
  {form : List Symbol}

/-- What is known after a number of rounds. -/
def yieldsAfter (g : Grammar) (bound rounds : Nat) : PhraseGrammar.Yields :=
  (g.extendYields bound)^[rounds] []

theorem yieldsAfter_succ :
    g.yieldsAfter bound (rounds + 1) = g.extendYields bound (g.yieldsAfter bound rounds) :=
  Function.iterate_succ_apply' _ _ _

/-- When a round finds nothing new, neither do the rounds that are left. -/
theorem growYields_eq (known : PhraseGrammar.Yields) :
    g.growYields bound rounds known = (g.extendYields bound)^[rounds] known := by
  induction rounds generalizing known with
  | zero => rfl
  | succ rounds ih =>
    rw [growYields, Function.iterate_succ_apply]
    split
    · rename_i he
      rw [he, Function.iterate_fixed he]
    · exact ih _

theorem yieldsUpTo_eq :
    g.yieldsUpTo bound = g.yieldsAfter bound (g.nonterminals.length * (bound + 1)) :=
  growYields_eq []

theorem mem_yieldsAfter_zero_iff (hs : isNonterminal s = true) :
    tokens ∈ (g.yieldsAfter bound 0).ofSymbol s ↔ False := by
  rw [Yields.ofSymbol_of_isNonterminal hs]
  exact iff_of_false List.not_mem_nil id

theorem mem_yieldsAfter_succ_iff (hs : isNonterminal s = true) :
    tokens ∈ (g.yieldsAfter bound (rounds + 1)).ofSymbol s ↔ tokens.length ≤ bound ∧
      ∃ p ∈ g.productions, p.left = s ∧ (g.yieldsAfter bound rounds).Assembles p.right tokens := by
  rw [yieldsAfter_succ, mem_extendYields_iff hs]

theorem mem_yieldsAfter_of_isTerminal (hs : isTerminal s = true)
    (h : tokens ∈ (g.yieldsAfter bound rounds).ofSymbol s) :
    tokens ∈ (g.yieldsAfter bound rounds').ofSymbol s := by
  rwa [Yields.ofSymbol_of_isTerminal hs] at h ⊢

theorem isTerminal_or_isNonterminal (s : Symbol) :
    isTerminal s = true ∨ isNonterminal s = true := by
  rw [isTerminal]
  cases isNonterminal s <;> simp

theorem yields_of_mem_yieldsAfter (h : tokens ∈ (g.yieldsAfter bound rounds).ofSymbol s) :
    g.Yields [s] tokens := by
  induction rounds generalizing s tokens with
  | zero =>
    rcases isTerminal_or_isNonterminal s with hs | hs
    · rw [Yields.ofSymbol_of_isTerminal hs, List.mem_singleton] at h
      rw [h]
      exact .terminal hs .nil
    · exact ((mem_yieldsAfter_zero_iff hs).1 h).elim
  | succ rounds ih =>
    rcases isTerminal_or_isNonterminal s with hs | hs
    · exact ih (mem_yieldsAfter_of_isTerminal hs h)
    · obtain ⟨_, p, hp, rfl, ha⟩ := (mem_yieldsAfter_succ_iff hs).1 h
      exact .of_mem hp (ha.yields fun _ _ => ih)

theorem length_le_of_mem_yieldsAfter (hs : isNonterminal s = true)
    (h : tokens ∈ (g.yieldsAfter bound rounds).ofSymbol s) : tokens.length ≤ bound := by
  cases rounds with
  | zero => exact ((mem_yieldsAfter_zero_iff hs).1 h).elim
  | succ rounds => exact ((mem_yieldsAfter_succ_iff hs).1 h).1

/-- A round finds a list again if what the list could be put together from is still known. -/
theorem mem_yieldsAfter_succ_of (h : tokens ∈ (g.yieldsAfter bound (rounds + 1)).ofSymbol s)
    (hk : ∀ s list, list.length < tokens.length ∨ list = tokens →
      list ∈ (g.yieldsAfter bound rounds).ofSymbol s →
        list ∈ (g.yieldsAfter bound rounds').ofSymbol s) :
    tokens ∈ (g.yieldsAfter bound (rounds' + 1)).ofSymbol s := by
  rcases isTerminal_or_isNonterminal s with hs | hs
  · exact mem_yieldsAfter_of_isTerminal hs h
  · rw [mem_yieldsAfter_succ_iff hs] at h ⊢
    obtain ⟨hl, p, hp, he, ha⟩ := h
    exact ⟨hl, p, hp, he, ha.mono hk⟩

theorem mem_yieldsAfter_succ (h : tokens ∈ (g.yieldsAfter bound rounds).ofSymbol s) :
    tokens ∈ (g.yieldsAfter bound (rounds + 1)).ofSymbol s := by
  induction rounds generalizing s tokens with
  | zero =>
    rcases isTerminal_or_isNonterminal s with hs | hs
    · exact mem_yieldsAfter_of_isTerminal hs h
    · exact ((mem_yieldsAfter_zero_iff hs).1 h).elim
  | succ rounds ih => exact mem_yieldsAfter_succ_of h fun _ _ _ => ih

/-- No symbol is found to yield a list by the next round, if it was not before. -/
def Stays (g : Grammar) (bound rounds : Nat) (tokens : List Token) : Prop :=
  ∀ s, tokens ∈ (g.yieldsAfter bound (rounds + 1)).ofSymbol s →
    tokens ∈ (g.yieldsAfter bound rounds).ofSymbol s

/-- All is found of the lists that are shorter than a certain length. -/
def IsSettled (g : Grammar) (bound rounds length : Nat) : Prop :=
  ∀ tokens : List Token, tokens.length < length → g.Stays bound rounds tokens

theorem Stays.succ (h : g.Stays bound rounds tokens)
    (hs : g.IsSettled bound rounds tokens.length) : g.Stays bound (rounds + 1) tokens := by
  intro s hm
  apply mem_yieldsAfter_succ_of hm
  intro s list hl
  rcases hl with hl | rfl
  · exact hs list hl s
  · exact h s

theorem IsSettled.mono {length' : Nat} (h : g.IsSettled bound rounds length)
    (hl : length' ≤ length) : g.IsSettled bound rounds length' :=
  fun tokens ht => h tokens (Nat.lt_of_lt_of_le ht hl)

theorem IsSettled.add (h : g.IsSettled bound rounds length) (more : Nat) :
    g.IsSettled bound (rounds + more) length := by
  induction more with
  | zero => exact h
  | succ more ih =>
    intro tokens hl
    exact (ih tokens hl).succ (ih.mono (Nat.le_of_lt hl))

/-- The nonterminals that are found to yield a list. -/
def finders (g : Grammar) (bound rounds : Nat) (tokens : List Token) : List Symbol :=
  g.nonterminals.filter fun s => tokens ∈ (g.yieldsAfter bound rounds).ofSymbol s

theorem finders_sublist :
    (g.finders bound rounds tokens).Sublist (g.finders bound (rounds + 1) tokens) := by
  apply List.monotone_filter_right
  intro s hs
  exact decide_eq_true (mem_yieldsAfter_succ (of_decide_eq_true hs))

theorem stays_iff : g.Stays bound rounds tokens ↔
    (g.finders bound rounds tokens).length = (g.finders bound (rounds + 1) tokens).length := by
  apply Iff.intro
  · intro h
    have he : g.finders bound rounds tokens = g.finders bound (rounds + 1) tokens := by
      apply List.filter_congr
      intro s _
      exact decide_eq_decide.2 ⟨mem_yieldsAfter_succ, h s⟩
    rw [he]
  · intro h s hm
    have he := finders_sublist.eq_of_length h
    rcases isTerminal_or_isNonterminal s with hs | hs
    · exact mem_yieldsAfter_of_isTerminal hs hm
    · obtain ⟨_, p, hp, hl, _⟩ := (mem_yieldsAfter_succ_iff hs).1 hm
      have hf : s ∈ g.finders bound (rounds + 1) tokens :=
        List.mem_filter.2 ⟨mem_nonterminals_iff.2 ⟨p, hp, hl⟩, decide_eq_true hm⟩
      rw [← he] at hf
      exact of_decide_eq_true (List.mem_filter.1 hf).2

/-- Once all shorter lists are settled, the nonterminals that yield a list are found one round after
another, without a break before the last. -/
theorem IsSettled.step (h : g.IsSettled bound rounds length) :
    g.IsSettled bound (rounds + g.nonterminals.length) (length + 1) := by
  intro tokens hl
  rcases Nat.lt_or_eq_of_le (Nat.le_of_lt_succ hl) with hl | rfl
  · exact h.add _ tokens hl
  · have hs := Nat.stabilises_of_monotone
      (f := fun more => (g.finders bound (rounds + more) tokens).length)
      (b := g.nonterminals.length) (n := g.nonterminals.length + 1)
      (monotone_nat_of_le_succ fun more => finders_sublist.length_le)
      (fun more => List.length_filter_le _ _)
      (fun more he => stays_iff.1 ((stays_iff.2 he).succ (h.add more))) (Nat.le_succ _)
    exact stays_iff.2 hs.symm

theorem isSettled (g : Grammar) (bound length : Nat) :
    g.IsSettled bound (g.nonterminals.length * length) length := by
  induction length with
  | zero =>
    intro tokens hl
    exact absurd hl (Nat.not_lt_zero _)
  | succ length ih => exact ih.step

/-- Productions have nothing to add to what is known. -/
def IsClosed (bound : Nat) (productions : List Production) (known : PhraseGrammar.Yields) : Prop :=
  ∀ p ∈ productions, ∀ tokens ∈ known.ofRight bound p.right, tokens ∈ known.ofSymbol p.left

theorem IsSettled.isClosed (hw : g.WellFormed) (hs : g.IsSettled bound rounds (bound + 1)) :
    IsClosed bound g.productions (g.yieldsAfter bound rounds) := by
  intro p hp tokens hm
  obtain ⟨hl, ha⟩ := Yields.mem_ofRight_iff.1 hm
  have hn : tokens ∈ (g.yieldsAfter bound (rounds + 1)).ofSymbol p.left :=
    (mem_yieldsAfter_succ_iff (hw.left p hp)).2 ⟨hl, p, hp, rfl, ha⟩
  exact hs tokens (Nat.lt_succ_of_le hl) p.left hn

/-- Where the productions have nothing to add, all derivations have been followed. -/
theorem IsClosed.assembles {known : PhraseGrammar.Yields} {productions : List Production}
    (hc : IsClosed bound productions known) (hp : ∀ p ∈ g.productions, p ∈ productions)
    (h : g.Yields form tokens) (hl : tokens.length ≤ bound) : known.Assembles form tokens := by
  induction h with
  | nil => exact .nil
  | @terminal a _ tokens ha _ ih =>
    have hm : [a] ∈ known.ofSymbol a := by
      rw [Yields.ofSymbol_of_isTerminal ha]
      exact List.mem_singleton_self _
    rw [List.length_cons] at hl
    exact .cons hm (ih (Nat.le_of_succ_le hl))
  | @expand p _ first second hm _ _ ihf ihs =>
    rw [List.length_append] at hl
    have hf : first ∈ known.ofSymbol p.left :=
      hc p (hp p hm) first (Yields.mem_ofRight_iff.2 ⟨by omega, ihf (by omega)⟩)
    exact .cons hf (ihs (by omega))

theorem IsClosed.mem_ofSymbol {known : PhraseGrammar.Yields} {productions : List Production}
    (hc : IsClosed bound productions known) (hp : ∀ p ∈ g.productions, p ∈ productions)
    (h : g.Yields [s] tokens) (hl : tokens.length ≤ bound) : tokens ∈ known.ofSymbol s := by
  cases hc.assembles hp h hl with
  | cons hf hs =>
    cases hs
    rwa [List.append_nil]

/-- The enumeration misses nothing that a nonterminal yields within its bound, and holds nothing
else. -/
theorem mem_yieldsUpTo_iff (hw : g.WellFormed) (hs : isNonterminal s = true) :
    tokens ∈ (g.yieldsUpTo bound).ofSymbol s ↔ tokens.length ≤ bound ∧ g.Yields [s] tokens := by
  rw [yieldsUpTo_eq]
  apply Iff.intro
  · intro h
    exact ⟨length_le_of_mem_yieldsAfter hs h, yields_of_mem_yieldsAfter h⟩
  · intro h
    have hc := (isSettled g bound (bound + 1)).isClosed hw
    exact hc.mem_ofSymbol (fun _ hp => hp) h.2 h.1

theorem mem_sentencesUpTo_iff (hw : g.WellFormed) :
    tokens ∈ g.sentencesUpTo bound ↔ tokens.length ≤ bound ∧ g.Yields [g.start] tokens :=
  mem_yieldsUpTo_iff hw hw.start

end PhraseGrammar.Grammar
