import PhraseGrammar.Proofs.Normal.Form

namespace PhraseGrammar.Grammar

variable {g : Grammar}

/-- The grammar when names stand for the terminals of long right sides. -/
def separated (g : Grammar) : Grammar :=
  g.reduced.separateTerminals

/-- The grammar when no right side is longer than two symbols. -/
def paired (g : Grammar) : Grammar :=
  g.separated.binarize

theorem start_separated : g.separated.start = g.start := by
  rw [separated, start_separateTerminals, start_reduced]

theorem start_paired : g.paired.start = g.start := by
  rw [paired, start_binarize, start_separated]

theorem nil_mem_reduced_iff {a : Symbol} : ⟨a, []⟩ ∈ g.reduced.productions ↔
    ⟨g.start, []⟩ ∈ g.withoutUseless.withoutEpsilon.productions ∧
      g.withoutUseless.withoutEpsilon.UnitReaches a g.start :=
  nil_mem_withoutUnits_iff fun _ => left_eq_of_mem_withoutEpsilon

theorem nil_mem_separated_iff {a : Symbol} :
    ⟨a, []⟩ ∈ g.separated.productions ↔ ⟨a, []⟩ ∈ g.reduced.productions :=
  nil_mem_separateTerminals_iff

theorem nil_mem_paired_iff {a : Symbol} :
    ⟨a, []⟩ ∈ g.paired.productions ↔ ⟨a, []⟩ ∈ g.reduced.productions :=
  nil_mem_binarize_iff.trans nil_mem_separated_iff

/-- No stage undoes what the earlier ones have done, with one exception: the empty right side of the
start symbol is handed on to the symbols that could become the start symbol. -/
theorem stages_keep_shape (g : Grammar) :
    (∀ p ∈ g.withoutUseless.withoutEpsilon.productions, p.right = [] → p.left = g.start) ∧
      (∀ stage ∈ [g.reduced, g.separated, g.paired], stage.start = g.start ∧
        (∀ a, ⟨a, []⟩ ∈ stage.productions ↔
          ⟨g.start, []⟩ ∈ g.withoutUseless.withoutEpsilon.productions ∧
            g.withoutUseless.withoutEpsilon.UnitReaches a g.start) ∧
        ∀ p ∈ stage.productions, p.isUnit = false) ∧
      ∀ stage ∈ [g.separated, g.paired], ∀ p ∈ stage.productions, 2 ≤ p.right.length →
        ∀ s ∈ p.right, isNonterminal s = true := by
  have hu : ∀ p ∈ g.reduced.productions, p.isUnit = false := fun _ => isUnit_of_mem_withoutUnits
  have hus : ∀ p ∈ g.separated.productions, p.isUnit = false :=
    fun _ => isUnit_of_mem_separateTerminals hu
  have hup : ∀ p ∈ g.paired.productions, p.isUnit = false := fun _ => isUnit_of_mem_binarize hus
  have hns : ∀ p ∈ g.separated.productions, 2 ≤ p.right.length →
      ∀ s ∈ p.right, isNonterminal s = true := fun _ => isNonterminal_of_mem_separateTerminals
  have hnp : ∀ p ∈ g.paired.productions, 2 ≤ p.right.length →
      ∀ s ∈ p.right, isNonterminal s = true := fun _ => isNonterminal_of_mem_binarize hns
  simp only [List.forall_mem_cons, List.not_mem_nil, false_imp_iff, implies_true, and_true,
    true_and, nil_mem_paired_iff, nil_mem_separated_iff, nil_mem_reduced_iff, start_reduced,
    start_separated, start_paired]
  exact ⟨fun _ => left_eq_of_mem_withoutEpsilon, ⟨hu, hus, hup⟩, hns, hnp⟩

/-- Its start symbol has an empty right side, and another symbol can become the start symbol. -/
def looping : Grammar :=
  ⟨"S", [⟨"S", []⟩, ⟨"S", ["A", "b"]⟩, ⟨"A", ["S"]⟩]⟩

theorem not_only_start_is_empty : validate "S" looping.productions = .ok looping ∧
    ∀ stage ∈ [looping.reduced, looping.separated, looping.paired],
      ¬∀ p ∈ stage.productions, p.right = [] → p.left = stage.start := by
  decide +kernel

theorem isRooted_withoutEpsilon (hw : g.WellFormed) :
    g.withoutUseless.withoutEpsilon.IsRooted := by
  apply isRooted_of_yields hw.withoutUseless.withoutEpsilon
  intro p hp
  obtain ⟨_, q, hq, _⟩ := mem_withoutEpsilon_iff.1 hp
  obtain ⟨tokens, hy⟩ := exists_yields_of_mem_withoutUseless hw hq
  exact ⟨tokens, (yields_start_withoutEpsilon_iff hw.withoutUseless).2 hy⟩

theorem isRooted_separated (hw : g.WellFormed) : g.separated.IsRooted :=
  (isRooted_reduced hw).separateTerminals

theorem isRooted_paired (hw : g.WellFormed) : g.paired.IsRooted :=
  (isRooted_separated hw).binarize

theorem mentions_separated_iff {s : Symbol} :
    g.separated.Mentions s ↔ g.reduced.Mentions s ∨ s ∈ g.reduced.preterminalNames :=
  mentions_separateTerminals_iff

theorem mentions_paired_iff {s : Symbol} :
    g.paired.Mentions s ↔ g.separated.Mentions s ∨ s ∈ g.separated.linkNames :=
  mentions_binarize_iff

/-- As long as there are productions at all, the start symbol has some, and so its name is not given
to anything else. -/
theorem stages_keep_start {start : Symbol} {productions : List Production}
    (h : validate start productions = .ok g) :
    (∀ stage ∈ [g.withoutUseless, g.withoutUseless.withoutEpsilon, g.reduced, g.separated,
        g.paired, g.paired.freshenStart, g.normalize],
      stage.productions = [] ∨ stage.start ∈ stage.nonterminals) ∧
    ∀ stage ∈ [(g.reduced, g.reduced.preterminalNames, g.separated),
        (g.separated, g.separated.linkNames, g.paired),
        (g.paired, g.paired.startNames, g.paired.freshenStart)],
      stage.1.start ∉ stage.2.1 ∧
        ∀ s, stage.2.2.Mentions s ↔ stage.1.Mentions s ∨ s ∈ stage.2.1 := by
  obtain ⟨_, hw⟩ := validate_eq_ok_iff.1 h
  have hr := isRooted_reduced hw
  have hs := isRooted_separated hw
  have hp := isRooted_paired hw
  have hn : g.normalize.IsRooted := isRooted_withoutUseless hw.shaped.solid
  apply And.intro
  · simp only [← isRooted_iff, List.forall_mem_cons, List.not_mem_nil, false_imp_iff,
      implies_true, and_true]
    exact ⟨isRooted_withoutUseless hw, isRooted_withoutEpsilon hw, hr, hs, hp, hp.freshenStart, hn⟩
  · simp only [List.forall_mem_cons, List.not_mem_nil, false_imp_iff, implies_true, and_true]
    exact ⟨⟨start_not_mem_preterminalNames hr, fun _ => mentions_separated_iff⟩,
      ⟨start_not_mem_linkNames hs, fun _ => mentions_paired_iff⟩,
      start_not_mem_startNames hp, fun _ => mentions_freshenStart_iff hp⟩

/-- Its start symbol has the name that would stand for a terminal of its first production. -/
def overlapping : Grammar :=
  ⟨"T_a", [⟨"T_a", ["a", "b", "T_a"]⟩, ⟨"T_a", ["c"]⟩]⟩

theorem overlapping_keeps_start :
    (overlapping.normalize.productions = [] ∨
        overlapping.normalize.start ∈ overlapping.normalize.nonterminals) ∧
      overlapping.reduced.preterminalNames = ["T_a1", "T_b"] ∧
      overlapping.reduced.start ∉ overlapping.reduced.preterminalNames ∧
      overlapping.separated.linkNames = ["BIN_T_a"] ∧
      overlapping.separated.start ∉ overlapping.separated.linkNames ∧
      overlapping.paired.startNames = ["S0"] ∧
      overlapping.paired.start ∉ overlapping.paired.startNames := by
  have hv : validate "T_a" overlapping.productions = .ok overlapping := by decide +kernel
  obtain ⟨hd, hn⟩ := stages_keep_start hv
  simp only [List.forall_mem_cons] at hn
  obtain ⟨⟨hr, _⟩, ⟨hs, _⟩, ⟨hp, _⟩, _⟩ := hn
  exact ⟨hd overlapping.normalize (by simp), by decide +kernel, hr, by decide +kernel, hs,
    by decide +kernel, hp⟩

end PhraseGrammar.Grammar
