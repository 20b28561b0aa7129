import PhraseGrammar.Normal.Form
import PhraseGrammar.Proofs.Normal.Extension

namespace PhraseGrammar.Grammar

variable {g : Grammar} {p q : Production} {tokens : List Token}

/-- The name that a new start symbol gets. -/
def newStart (g : Grammar) : Symbol :=
  ((NamePool.ofGrammar g).fresh "S0").1

theorem isNonterminal_newStart : isNonterminal g.newStart = true :=
  isNonterminal_candidate (by decide)

theorem areNew_newStart : g.AreNew [g.newStart] := by
  intro name hm
  rw [List.mem_singleton.1 hm]
  exact ⟨isNonterminal_newStart, NamePool.candidate_freshNumber_not_mem _ _⟩

theorem newStart_not_mem_right (hp : p ∈ g.productions) : g.newStart ∉ p.right :=
  fun hm => areNew_newStart.right_not_mem hp hm List.mem_cons_self

theorem freshenStart_of_mem (h : g.start ∈ g.symbolsUsed) : g.freshenStart =
    ofProductions g.newStart
      (g.productions ++ (g.rightSides g.start).map fun right => ⟨g.newStart, right⟩) :=
  if_pos (List.contains_iff_mem.2 h)

theorem start_freshenStart_of_mem (h : g.start ∈ g.symbolsUsed) :
    g.freshenStart.start = g.newStart := by
  rw [freshenStart_of_mem h]
  rfl

theorem freshenStart_of_not_mem (h : g.start ∉ g.symbolsUsed) : g.freshenStart = g :=
  if_neg (mt List.contains_iff_mem.1 h)

theorem mem_freshenStart_iff (h : g.start ∈ g.symbolsUsed) : q ∈ g.freshenStart.productions ↔
    q ∈ g.productions ∨ q.left = g.newStart ∧ ⟨g.start, q.right⟩ ∈ g.productions := by
  rw [freshenStart_of_mem h, mem_ofProductions, List.mem_append, List.mem_map]
  simp only [mem_rightSides_iff]
  apply or_congr_right
  apply Iff.intro
  · intro hm
    obtain ⟨right, hr, rfl⟩ := hm
    exact ⟨rfl, hr⟩
  · intro hm
    obtain ⟨hl, hr⟩ := hm
    exact ⟨q.right, hr, by rw [← hl]⟩

theorem exists_right_of_mem_freshenStart (hq : q ∈ g.freshenStart.productions) :
    ∃ p ∈ g.productions, p.right = q.right := by
  by_cases h : g.start ∈ g.symbolsUsed
  · rcases (mem_freshenStart_iff h).1 hq with hm | ⟨_, hm⟩
    · exact ⟨q, hm, rfl⟩
    · exact ⟨_, hm, rfl⟩
  · rw [freshenStart_of_not_mem h] at hq
    exact ⟨q, hq, rfl⟩

theorem start_freshenStart_not_mem_right (hq : q ∈ g.freshenStart.productions) :
    g.freshenStart.start ∉ q.right := by
  obtain ⟨p, hp, hr⟩ := exists_right_of_mem_freshenStart hq
  rw [← hr]
  by_cases h : g.start ∈ g.symbolsUsed
  · rw [freshenStart_of_mem h]
    exact newStart_not_mem_right hp
  · rw [freshenStart_of_not_mem h]
    intro hm
    exact h (mem_symbolsUsed_iff.2 ⟨p, hp, hm⟩)

theorem IsRooted.freshenStart (hr : g.IsRooted) : g.freshenStart.IsRooted := by
  by_cases h : g.start ∈ g.symbolsUsed
  · intro q hq
    obtain ⟨p, hp, _⟩ := exists_right_of_mem_freshenStart hq
    obtain ⟨⟨left, right⟩, hm, rfl⟩ := hr p hp
    rw [start_freshenStart_of_mem h]
    exact ⟨⟨g.newStart, right⟩, (mem_freshenStart_iff h).2 (.inr ⟨rfl, hm⟩), rfl⟩
  · rwa [freshenStart_of_not_mem h]

/-- The name of the new start symbol, if there has to be one. -/
def startNames (g : Grammar) : List Symbol :=
  if g.symbolsUsed.contains g.start then [g.newStart] else []

theorem startNames_of_mem (h : g.start ∈ g.symbolsUsed) : g.startNames = [g.newStart] :=
  if_pos (List.contains_iff_mem.2 h)

theorem startNames_of_not_mem (h : g.start ∉ g.symbolsUsed) : g.startNames = [] :=
  if_neg (mt List.contains_iff_mem.1 h)

theorem nodup_startNames : g.startNames.Nodup := by
  by_cases h : g.start ∈ g.symbolsUsed
  · rw [startNames_of_mem h]
    exact List.pairwise_singleton _ _
  · rw [startNames_of_not_mem h]
    exact List.nodup_nil

theorem areNew_startNames : g.AreNew g.startNames := by
  by_cases h : g.start ∈ g.symbolsUsed
  · rw [startNames_of_mem h]
    exact areNew_newStart
  · rw [startNames_of_not_mem h]
    exact fun _ hm => absurd hm List.not_mem_nil

theorem start_not_mem_startNames (hr : g.IsRooted) : g.start ∉ g.startNames := by
  by_cases h : g.start ∈ g.symbolsUsed
  · obtain ⟨p, hp, _⟩ := mem_symbolsUsed_iff.1 h
    exact areNew_startNames.start_not_mem hr hp
  · rw [startNames_of_not_mem h]
    exact List.not_mem_nil

theorem left_mem_freshenStart (hq : q ∈ g.freshenStart.productions) :
    (∃ p ∈ g.productions, p.left = q.left) ∨ q.left ∈ g.startNames := by
  by_cases h : g.start ∈ g.symbolsUsed
  · rcases (mem_freshenStart_iff h).1 hq with hm | ⟨hl, _⟩
    · exact .inl ⟨q, hm, rfl⟩
    · rw [startNames_of_mem h, hl]
      exact .inr List.mem_cons_self
  · rw [freshenStart_of_not_mem h] at hq
    exact .inl ⟨q, hq, rfl⟩

theorem mentions_freshenStart_iff {s : Symbol} (hr : g.IsRooted) :
    g.freshenStart.Mentions s ↔ g.Mentions s ∨ s ∈ g.startNames := by
  apply Iff.intro
  · intro h
    obtain ⟨hn, q, hq, hs⟩ := h
    rcases mem_symbols_iff.1 hs with rfl | hm
    · rcases left_mem_freshenStart hq with ⟨p, hp, hl⟩ | hm
      · exact .inl ⟨hn, p, hp, mem_symbols_iff.2 (.inl hl.symm)⟩
      · exact .inr hm
    · obtain ⟨p, hp, he⟩ := exists_right_of_mem_freshenStart hq
      exact .inl ⟨hn, p, hp, mem_symbols_iff.2 (.inr (he ▸ hm))⟩
  · intro hs
    by_cases h : g.start ∈ g.symbolsUsed
    · rw [startNames_of_mem h, List.mem_singleton] at hs
      rcases hs with ⟨hn, p, hp, hs⟩ | rfl
      · exact ⟨hn, p, (mem_freshenStart_iff h).2 (.inl hp), hs⟩
      · obtain ⟨p, hp, _⟩ := mem_symbolsUsed_iff.1 h
        obtain ⟨⟨left, right⟩, hq, rfl⟩ := hr p hp
        have hm := (mem_freshenStart_iff (q := ⟨g.newStart, right⟩) h).2 (.inr ⟨rfl, hq⟩)
        exact ⟨isNonterminal_newStart, _, hm, mem_symbols_iff.2 (.inl rfl)⟩
    · rw [startNames_of_not_mem h] at hs
      rw [freshenStart_of_not_mem h]
      exact hs.resolve_right List.not_mem_nil

theorem WellFormed.freshenStart (hw : g.WellFormed) : g.freshenStart.WellFormed := by
  by_cases h : g.start ∈ g.symbolsUsed
  · rw [freshenStart_of_mem h]
    refine ⟨isNonterminal_newStart, ?_, ?_, nodup_distinct⟩
    · intro q hq
      rw [← freshenStart_of_mem h, mem_freshenStart_iff h] at hq
      rcases hq with hq | ⟨hl, _⟩
      · exact hw.left q hq
      · exact hl ▸ isNonterminal_newStart
    · intro q hq
      rw [← freshenStart_of_mem h] at hq
      obtain ⟨p, hp, hr⟩ := exists_right_of_mem_freshenStart hq
      exact hr ▸ hw.right p hp
  · rw [freshenStart_of_not_mem h]
    exact hw

theorem expansion_newStart : expansion [(g.newStart, [g.start])] g.newStart = [g.start] :=
  expansion_of_mem (List.pairwise_singleton _ _) List.mem_cons_self

theorem extends_freshenStart (h : g.start ∈ g.symbolsUsed) :
    g.Extends [(g.newStart, [g.start])] g.freshenStart where
  areNew := areNew_newStart
  ne_nil entry he := by
    rw [List.mem_singleton.1 he]
    exact List.cons_ne_nil _ _
  reads q hq := by
    right
    have hn : q.right.flatMap (expansion [(g.newStart, [g.start])]) = q.right := by
      obtain ⟨p, hp, hr⟩ := exists_right_of_mem_freshenStart hq
      apply flatMap_expansion_of_not_mem
      intro s hs hm
      rw [List.mem_singleton.1 hm, ← hr] at hs
      exact newStart_not_mem_right hp hs
    rcases (mem_freshenStart_iff h).1 hq with hm | ⟨hl, hm⟩
    · exact ⟨q, hm, expansion_of_not_mem (areNew_newStart.left_not_mem hm), hn⟩
    · rw [hl]
      exact ⟨_, hm, expansion_newStart, hn⟩
  simulates p hp tokens hy := by
    obtain ⟨hm, hne⟩ := mem_solid.1 hp
    have hq : p ∈ g.freshenStart.productions := (mem_freshenStart_iff h).2 (.inl hm)
    exact .of_mem (mem_solid.2 ⟨hq, hne⟩) hy

theorem yields_solid_freshenStart_of_not_mem {s : Symbol} (hs : s ∉ g.startNames) :
    g.freshenStart.solid.Yields [s] tokens ↔ g.solid.Yields [s] tokens := by
  by_cases h : g.start ∈ g.symbolsUsed
  · rw [startNames_of_mem h] at hs
    exact (extends_freshenStart h).yields_solid_iff hs
  · rw [freshenStart_of_not_mem h]

theorem yields_solid_freshenStart_iff (hs : isNonterminal g.start = true) :
    g.freshenStart.solid.Yields [g.freshenStart.start] tokens ↔
      g.solid.Yields [g.start] tokens := by
  by_cases h : g.start ∈ g.symbolsUsed
  · rw [start_freshenStart_of_mem h]
    apply Iff.intro
    · intro hy
      have hx := (extends_freshenStart h).yields_expansion hy
      rwa [List.flatMap_singleton, expansion_newStart] at hx
    · intro hy
      obtain ⟨p, hp, hl, hr⟩ := (yields_nonterminal_iff hs).1 hy
      obtain ⟨hm, hne⟩ := mem_solid.1 hp
      have hq : ⟨g.newStart, p.right⟩ ∈ g.freshenStart.solid.productions :=
        mem_solid.2 ⟨(mem_freshenStart_iff h).2 (.inr ⟨rfl, hl ▸ hm⟩), hne⟩
      exact .of_mem hq (hr.simulate (extends_freshenStart h).simulates)
  · rw [freshenStart_of_not_mem h]

end PhraseGrammar.Grammar
