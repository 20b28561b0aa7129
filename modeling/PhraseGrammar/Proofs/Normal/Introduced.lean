import PhraseGrammar.Proofs.Normal.Stages

namespace PhraseGrammar.Grammar

variable {g : Grammar} {p : Production} {s : Symbol} {tokens : List Token}

/-- All names that are handed out on the way to normal form, in order. -/
def introducedNames (g : Grammar) : List Symbol :=
  g.reduced.preterminalNames ++ (g.separated.linkNames ++ g.paired.startNames)

theorem mem_introducedNames_iff : s ∈ g.introducedNames ↔
    s ∈ g.reduced.preterminalNames ∨ s ∈ g.separated.linkNames ∨ s ∈ g.paired.startNames := by
  rw [introducedNames, List.mem_append, List.mem_append]

theorem mentions_paired_iff_reduced : g.paired.Mentions s ↔
    g.reduced.Mentions s ∨ s ∈ g.reduced.preterminalNames ∨ s ∈ g.separated.linkNames := by
  rw [mentions_paired_iff, mentions_separated_iff, or_assoc]

theorem mentions_shaped_iff (hw : g.WellFormed) :
    g.shaped.Mentions s ↔ g.reduced.Mentions s ∨ s ∈ g.introducedNames := by
  have hs : g.shaped.Mentions s ↔ g.paired.Mentions s ∨ s ∈ g.paired.startNames :=
    mentions_freshenStart_iff (isRooted_paired hw)
  rw [hs, mentions_paired_iff_reduced, mem_introducedNames_iff, or_assoc, or_assoc]

/-- A name is new to the grammar that a stage receives, which has the names of the stages before. -/
theorem nodup_introducedNames : g.introducedNames.Nodup := by
  have hls : (g.separated.linkNames ++ g.paired.startNames).Nodup := by
    apply List.nodup_append.2 ⟨nodup_linkNames, nodup_startNames, ?_⟩
    intro s hs t ht he
    exact areNew_startNames.not_mentions ht (mentions_paired_iff_reduced.2 (.inr (.inr (he ▸ hs))))
  apply List.nodup_append.2 ⟨nodup_preterminalNames, hls, ?_⟩
  intro s hs t ht he
  rw [he] at hs
  rcases List.mem_append.1 ht with hl | hn
  · exact areNew_linkEntries.not_mentions hl (mentions_separated_iff.2 (.inr hs))
  · exact areNew_startNames.not_mentions hn (mentions_paired_iff_reduced.2 (.inr (.inl hs)))

theorem not_mentions_of_mem_introducedNames (h : s ∈ g.introducedNames) :
    isNonterminal s = true ∧ ¬g.reduced.Mentions s := by
  rcases mem_introducedNames_iff.1 h with hp | hl | hs
  · exact ⟨(areNew_preterminalNames s hp).1, areNew_preterminalNames.not_mentions hp⟩
  · have hn : ¬g.separated.Mentions s := areNew_linkEntries.not_mentions hl
    exact ⟨(areNew_linkEntries s hl).1, fun hm => hn (mentions_separated_iff.2 (.inl hm))⟩
  · have hn : ¬g.paired.Mentions s := areNew_startNames.not_mentions hs
    exact ⟨(areNew_startNames s hs).1, fun hm => hn (mentions_paired_iff_reduced.2 (.inl hm))⟩

theorem Mentions.of_withoutUseless (h : g.withoutUseless.Mentions s) : g.Mentions s := by
  obtain ⟨hn, p, hp, hs⟩ := h
  exact ⟨hn, p, mem_of_mem_withoutUseless hp, hs⟩

theorem Mentions.of_withoutEpsilon (h : g.withoutEpsilon.Mentions s) : g.Mentions s := by
  obtain ⟨hn, p, hp, hs⟩ := h
  obtain ⟨_, q, hq, hl, ho⟩ := mem_withoutEpsilon_iff.1 hp
  refine ⟨hn, q, hq, mem_symbols_iff.2 ?_⟩
  rw [hl]
  exact (mem_symbols_iff.1 hs).imp_right fun hm => ho.subset hm

theorem Mentions.of_withoutUnits (h : g.withoutUnits.Mentions s) : g.Mentions s := by
  obtain ⟨hn, p, hp, hs⟩ := h
  rcases mem_symbols_iff.1 hs with rfl | hm
  · obtain ⟨q, hq, hl⟩ := exists_left_of_mem_withoutUnits hp
    exact ⟨hn, q, hq, mem_symbols_iff.2 (.inl hl.symm)⟩
  · obtain ⟨_, q, hq, _, hr⟩ := (shortensUnits_withoutUnits p).1 hp
    exact ⟨hn, q, hq, mem_symbols_iff.2 (.inr (hr ▸ hm))⟩

theorem Mentions.of_reduced (h : g.reduced.Mentions s) : g.Mentions s :=
  h.of_withoutUnits.of_withoutEpsilon.of_withoutUseless

theorem Mentions.shaped (h : g.normalize.Mentions s) : g.shaped.Mentions s := by
  obtain ⟨hn, p, hp, hs⟩ := h
  exact ⟨hn, p, (mem_shaped_of_mem_normalize hp).1, hs⟩

theorem exists_left_of_mem_reduced (hp : p ∈ g.reduced.productions) :
    ∃ q ∈ g.withoutUseless.productions, q.left = p.left := by
  obtain ⟨q, hq, hl⟩ := exists_left_of_mem_withoutUnits hp
  obtain ⟨_, q', hq', hl', _⟩ := mem_withoutEpsilon_iff.1 hq
  exact ⟨q', hq', hl'.trans hl⟩

theorem exists_left_of_mem_paired (hp : p ∈ g.paired.productions)
    (hpre : p.left ∉ g.reduced.preterminalNames) (hlink : p.left ∉ g.separated.linkNames) :
    ∃ q ∈ g.withoutUseless.productions, q.left = p.left := by
  rcases mem_binarize hp with ⟨q, hq, hl, _⟩ | ⟨entry, he, hl, _⟩
  · rw [hl] at hpre ⊢
    have hm : q ∈ g.reduced.separateTerminals.productions := hq
    rcases exists_of_mem_separateTerminals hm with ⟨q', hq', hs⟩ | ⟨entry, he, rfl⟩
    · rw [hs.left_eq]
      exact exists_left_of_mem_reduced hq'
    · exact absurd (mem_preterminalNames he) hpre
  · rw [hl] at hlink
    exact absurd (mem_linkNames he) hlink

theorem exists_left_of_mem_normalize (hp : p ∈ g.normalize.productions)
    (hn : p.left ∉ g.introducedNames) : ∃ q ∈ g.withoutUseless.productions, q.left = p.left := by
  rw [mem_introducedNames_iff, not_or, not_or] at hn
  obtain ⟨hpre, hlink, hstart⟩ := hn
  have hm : p ∈ g.paired.freshenStart.productions := (mem_shaped_of_mem_normalize hp).1
  obtain ⟨q, hq, hl⟩ := (left_mem_freshenStart hm).resolve_right hstart
  rw [← hl] at hpre hlink ⊢
  exact exists_left_of_mem_paired hq hpre hlink

theorem yields_normalize_left_iff (hw : g.WellFormed) (hp : p ∈ g.normalize.productions)
    (hn : p.left ∉ g.introducedNames) :
    g.normalize.Yields [p.left] tokens ↔ g.Yields [p.left] tokens ∧ tokens ≠ [] := by
  obtain ⟨q, hq, hl⟩ := exists_left_of_mem_normalize hp hn
  rw [mem_introducedNames_iff, ← map_preterminalEntries, not_or, not_or] at hn
  obtain ⟨hpre, hlink, hstart⟩ := hn
  rw [normalize_eq, yields_left_withoutUseless_iff hw.shaped.solid hp]
  calc g.shaped.solid.Yields [p.left] tokens
      ↔ g.paired.solid.Yields [p.left] tokens := yields_solid_freshenStart_of_not_mem hstart
    _ ↔ g.separated.solid.Yields [p.left] tokens := (extends_binarize _).yields_solid_iff hlink
    _ ↔ g.reduced.solid.Yields [p.left] tokens :=
        (extends_separateTerminals _).yields_solid_iff hpre
    _ ↔ g.withoutUseless.withoutEpsilon.solid.Yields [p.left] tokens :=
        yields_solid_withoutUnits_iff
    _ ↔ g.withoutUseless.Yields [p.left] tokens ∧ tokens ≠ [] :=
        yields_solid_withoutEpsilon_iff hw.withoutUseless
    _ ↔ g.Yields [p.left] tokens ∧ tokens ≠ [] := by
        rw [← hl, yields_left_withoutUseless_iff hw hq]

/-- The names that are introduced are all different, and none occurs in what is left when useless
symbols, empty right sides and unit productions are gone. A symbol that has gone with these may give
its name to another one; all other symbols mean what they did. -/
theorem introducedNames_spec {start : Symbol} {productions : List Production}
    (h : validate start productions = .ok g) :
    g.introducedNames.Nodup ∧
      (∀ s ∈ g.introducedNames, isNonterminal s = true ∧ ¬g.reduced.Mentions s) ∧
      (∀ s, g.reduced.Mentions s → g.Mentions s) ∧
      (∀ s, g.shaped.Mentions s ↔ g.reduced.Mentions s ∨ s ∈ g.introducedNames) ∧
      (∀ s, g.normalize.Mentions s → g.shaped.Mentions s) ∧
      ∀ p ∈ g.normalize.productions, p.left ∉ g.introducedNames → ∀ tokens, tokens ≠ [] →
        (∀ token ∈ tokens, isTerminal token = true) →
          (g.normalize.Derives [p.left] tokens ↔ g.Derives [p.left] tokens) := by
  obtain ⟨_, hw⟩ := validate_eq_ok_iff.1 h
  refine ⟨nodup_introducedNames, fun _ => not_mentions_of_mem_introducedNames,
    fun _ => Mentions.of_reduced, fun _ => mentions_shaped_iff hw, fun _ => Mentions.shaped, ?_⟩
  intro p hp hn tokens hne ht
  have hy : g.normalize.Yields [p.left] tokens ↔ g.Yields [p.left] tokens := by
    rw [yields_normalize_left_iff hw hp hn, and_iff_left hne]
  rwa [yields_iff, yields_iff, and_iff_left ht, and_iff_left ht] at hy

/-- One of its nonterminals has no use, and its name is what stands for a terminal later on. -/
def reusing : Grammar :=
  ⟨"S", [⟨"S", ["a", "S"]⟩, ⟨"S", ["b"]⟩, ⟨"T_a", ["c"]⟩]⟩

theorem introducedNames_reusing : reusing.introducedNames = ["T_a", "S0"] ∧
    ¬reusing.reduced.Mentions "T_a" ∧
    (reusing.normalize.Derives ["S"] ["a", "b"] ↔ reusing.Derives ["S"] ["a", "b"]) := by
  have hv : validate "S" reusing.productions = .ok reusing := by decide +kernel
  have hi : reusing.introducedNames = ["T_a", "S0"] := by decide +kernel
  obtain ⟨_, hn, _, _, _, hd⟩ := introducedNames_spec hv
  have hs : "S" ∉ reusing.introducedNames := by
    rw [hi]
    decide
  exact ⟨hi, (hn "T_a" (by simp [hi])).2,
    hd ⟨"S", ["b"]⟩ (by decide +kernel) hs ["a", "b"] (by decide) (by decide)⟩

theorem name_given_again : validate "S" reusing.productions = .ok reusing ∧
    reusing.Mentions "T_a" ∧ "T_a" ∈ reusing.introducedNames ∧
    "T_a" ∈ reusing.normalize.nonterminals ∧
    reusing.normalize.Derives ["T_a"] ["a"] ∧ ¬reusing.Derives ["T_a"] ["a"] := by
  have hv : validate "S" reusing.productions = .ok reusing := by decide +kernel
  have hm : (⟨"T_a", ["a"]⟩ : Production) ∈ reusing.normalize.productions := by decide +kernel
  have hd : ¬reusing.Derives ["T_a"] ["a"] := by
    intro hd
    have hy : reusing.Yields ["T_a"] ["a"] := yields_iff.2 ⟨hd, by decide⟩
    obtain ⟨p, hp, hl, hr⟩ := (yields_nonterminal_iff rfl).1 hy
    have hc : ∀ p ∈ reusing.productions, p.left = "T_a" → "c" ∈ p.right := by decide
    have ha := hr.mem_of_isTerminal (validate_eq_ok_iff.1 hv).2 rfl (hc p hp hl)
    exact absurd ha (by decide)
  exact ⟨hv, ⟨rfl, ⟨"T_a", ["c"]⟩, by decide, by decide⟩, by decide +kernel,
    mem_nonterminals_iff.2 ⟨_, hm, rfl⟩, .of_mem hm, hd⟩

end PhraseGrammar.Grammar
