import PhraseGrammar.Proofs.Normal.Chain
import PhraseGrammar.Proofs.Normal.Preterminal
import PhraseGrammar.Proofs.Normal.Start
import PhraseGrammar.Proofs.Normal.Unit

namespace PhraseGrammar.Grammar

variable {g : Grammar} {p q : Production} {a : Symbol} {tokens : List Token}

/-- The grammar before right sides are brought into shape. -/
def reduced (g : Grammar) : Grammar :=
  g.withoutUseless.withoutEpsilon.withoutUnits

/-- The grammar before its empty right sides are left out. -/
def shaped (g : Grammar) : Grammar :=
  g.reduced.separateTerminals.binarize.freshenStart

theorem normalize_eq : g.normalize = g.shaped.solid.withoutUseless := rfl

@[simp]
theorem start_reduced : g.reduced.start = g.start := by
  rw [reduced, start_withoutUnits, start_withoutEpsilon, start_withoutUseless]

theorem WellFormed.reduced (hw : g.WellFormed) : g.reduced.WellFormed :=
  hw.withoutUseless.withoutEpsilon.withoutUnits

theorem WellFormed.shaped (hw : g.WellFormed) : g.shaped.WellFormed :=
  hw.reduced.separateTerminals.binarize.freshenStart

theorem WellFormed.solid (hw : g.WellFormed) : g.solid.WellFormed :=
  hw.keeping _

theorem WellFormed.normalize (hw : g.WellFormed) : g.normalize.WellFormed :=
  hw.shaped.solid.withoutUseless

theorem yields_reduced_iff (hw : g.WellFormed) :
    g.reduced.Yields [g.start] tokens ↔ g.withoutUseless.Yields [g.start] tokens := by
  rw [reduced, yields_withoutUnits_iff]
  exact yields_start_withoutEpsilon_iff hw.withoutUseless

theorem isRooted_reduced (hw : g.WellFormed) : g.reduced.IsRooted := by
  apply isRooted_of_yields hw.reduced
  intro p hp
  obtain ⟨_, q, hq, _⟩ := (shortensUnits_withoutUnits p).1 hp
  obtain ⟨_, q', hq', _⟩ := mem_withoutEpsilon_iff.1 hq
  obtain ⟨tokens, hy⟩ := exists_yields_of_mem_withoutUseless hw hq'
  rw [start_reduced]
  exact ⟨tokens, (yields_reduced_iff hw).2 hy⟩

theorem yields_solid_reduced_iff (hw : g.WellFormed) :
    g.reduced.solid.Yields [g.start] tokens ↔ tokens ≠ [] ∧ g.Yields [g.start] tokens := by
  rw [reduced, yields_solid_withoutUnits_iff, yields_solid_withoutEpsilon_iff hw.withoutUseless,
    yields_start_withoutUseless_iff hw, and_comm]

theorem yields_solid_shaped_iff (hw : g.WellFormed) :
    g.shaped.solid.Yields [g.shaped.start] tokens ↔ tokens ≠ [] ∧ g.Yields [g.start] tokens := by
  have hr := isRooted_reduced hw
  have hs := hw.reduced.separateTerminals.binarize.start
  rw [shaped, yields_solid_freshenStart_iff hs, start_binarize,
    yields_solid_binarize_iff hr.separateTerminals, start_separateTerminals,
    yields_solid_separateTerminals_iff hr, start_reduced, yields_solid_reduced_iff hw]

/-- Nothing is lost on the way to normal form but the empty sentence. -/
theorem yields_normalize_iff (hw : g.WellFormed) :
    g.normalize.Yields [g.normalize.start] tokens ↔ tokens ≠ [] ∧ g.Yields [g.start] tokens := by
  rw [normalize_eq, start_withoutUseless, yields_start_withoutUseless_iff hw.shaped.solid,
    start_solid, yields_solid_shaped_iff hw]

theorem mem_shaped_of_mem_normalize (hp : p ∈ g.normalize.productions) :
    p ∈ g.shaped.productions ∧ p.right ≠ [] :=
  mem_solid.1 (mem_of_mem_withoutUseless hp)

theorem isNormal_of_mem_normalize (hp : p ∈ g.normalize.productions) : p.isNormal = true := by
  obtain ⟨hm, hne⟩ := mem_shaped_of_mem_normalize hp
  obtain ⟨q, hq, hr⟩ := exists_right_of_mem_freshenStart hm
  have hl := length_le_of_mem_binarize hq
  have hn := isNonterminal_of_mem_binarize (fun _ => isNonterminal_of_mem_separateTerminals) hq
  have hu := isUnit_of_mem_binarize
    (fun _ => isUnit_of_mem_separateTerminals fun _ => isUnit_of_mem_withoutUnits) hq
  rw [Production.isUnit, hr] at hu
  rw [hr] at hl hn
  rw [Production.isNormal_eq_true_iff]
  rcases h : p.right with _ | ⟨a, _ | ⟨b, _ | ⟨c, rest⟩⟩⟩
  · exact absurd h hne
  · rw [h] at hu
    have ha : isNonterminal a = false := hu
    exact .inl ⟨a, rfl, by rw [isTerminal, ha]; rfl⟩
  · rw [h] at hn
    exact .inr ⟨a, b, rfl, by simpa using hn⟩
  · rw [h] at hl
    simp at hl

theorem start_normalize_not_mem_right (hp : p ∈ g.normalize.productions) :
    g.normalize.start ∉ p.right := by
  rw [normalize_eq, start_withoutUseless, start_solid]
  exact start_freshenStart_not_mem_right (mem_shaped_of_mem_normalize hp).1

theorem isUseful_of_mem_normalize (hw : g.WellFormed) (hp : p ∈ g.normalize.productions) :
    g.normalize.IsUseful p := by
  have hs := hw.shaped.solid
  exact ((mem_withoutUseless_iff_isUseful hs).1 hp).withoutUseless hs

/-- A terminal is left in normal form if some sentence has it. -/
theorem mem_terminals_normalize_iff (hw : g.WellFormed) :
    a ∈ g.normalize.terminals ↔ ∃ tokens, g.Yields [g.start] tokens ∧ a ∈ tokens := by
  have hn := hw.normalize
  rw [mem_terminals_iff]
  apply Iff.intro
  · intro h
    obtain ⟨ha, p, hp, hr⟩ := h
    obtain ⟨_, before, after, tokens, hd, ht⟩ := isUseful_of_mem_normalize hw hp
    have hy := yields_iff.2 ht
    have hs := Yields.of_derives (hd.tail (.step before after hp)) hy
    refine ⟨tokens, ((yields_normalize_iff hw).1 hs).2, ?_⟩
    exact hy.mem_of_isTerminal hn ha (by simp [hr])
  · intro h
    obtain ⟨tokens, hy, ha⟩ := h
    have hs := (yields_normalize_iff hw).2 ⟨List.ne_nil_of_mem ha, hy⟩
    have ht := hs.isTerminal_of_mem a ha
    refine ⟨ht, (hs.mem_right ha).resolve_left ?_⟩
    intro he
    rw [List.mem_singleton.1 he, isTerminal, hn.start] at ht
    cases ht

/-- Its productions go round in circles by way of empty right sides and of unit productions, and one
of its nonterminals has no production. -/
def circular : Grammar :=
  ⟨"S", [⟨"S", []⟩, ⟨"S", ["S", "S"]⟩, ⟨"S", ["A"]⟩, ⟨"A", ["S"]⟩, ⟨"A", ["a", "A", "b"]⟩,
    ⟨"A", ["U", "c"]⟩]⟩

theorem validate_circular : validate "S" circular.productions = .ok circular := by
  rfl

theorem isSentence_circular : circular.IsSentence ["a", "b"] := by
  have he : circular.Yields ["S"] [] := .of_mem (p := ⟨"S", []⟩) (by decide) .nil
  have ha : circular.Yields ["A"] [] := .of_mem (p := ⟨"A", ["S"]⟩) (by decide) he
  have hb : circular.Yields ["b"] ["b"] := .terminal rfl .nil
  have hr : circular.Yields ["a", "A", "b"] ["a", "b"] := .terminal rfl (ha.append hb)
  have hy : circular.Yields ["A"] ["a", "b"] :=
    .of_mem (p := ⟨"A", ["a", "A", "b"]⟩) (by decide) hr
  exact isSentence_iff_yields.2 (.of_mem (p := ⟨"S", ["A"]⟩) (by decide) hy)

theorem isSentence_normalize_iff {start : Symbol} {productions : List Production}
    (h : validate start productions = .ok g) :
    g.normalize.IsSentence tokens ↔ tokens ≠ [] ∧ g.IsSentence tokens := by
  obtain ⟨_, hw⟩ := validate_eq_ok_iff.1 h
  rw [isSentence_iff_yields, isSentence_iff_yields]
  exact yields_normalize_iff hw

theorem isSentence_normalize_circular : circular.normalize.IsSentence ["a", "b"] :=
  (isSentence_normalize_iff validate_circular).2 ⟨by decide, isSentence_circular⟩

/-- The productions of a grammar in normal form have one of two shapes, do not lead back to the
start symbol, and are all of use. -/
theorem normalize_spec {start : Symbol} {productions : List Production}
    (h : validate start productions = .ok g) :
    g.normalize.isNormal = true ∧
      (∀ p ∈ g.normalize.productions, isNonterminal p.left = true ∧
        ((∃ a, p.right = [a] ∧ isTerminal a = true) ∨
          ∃ b c, p.right = [b, c] ∧ isNonterminal b = true ∧ isNonterminal c = true)) ∧
      (∀ p ∈ g.normalize.productions, g.normalize.start ∉ p.right) ∧
      (∀ p ∈ g.normalize.productions, g.normalize.IsUseful p) ∧
      ∀ a, a ∈ g.normalize.terminals ↔ ∃ tokens, g.IsSentence tokens ∧ a ∈ tokens := by
  obtain ⟨_, hw⟩ := validate_eq_ok_iff.1 h
  refine ⟨?_, ?_, ?_, ?_, ?_⟩
  · exact List.all_eq_true.2 fun p => isNormal_of_mem_normalize
  · intro p hp
    have hn := isNormal_of_mem_normalize hp
    exact ⟨hw.normalize.left p hp, Production.isNormal_eq_true_iff.1 hn⟩
  · intro p hp
    exact start_normalize_not_mem_right hp
  · intro p hp
    exact isUseful_of_mem_normalize hw hp
  · intro a
    simp only [isSentence_iff_yields]
    exact mem_terminals_normalize_iff hw

theorem terminals_normalize_circular : "a" ∈ circular.normalize.terminals ∧
    ¬∃ tokens, circular.IsSentence tokens ∧ "c" ∈ tokens := by
  obtain ⟨_, _, _, _, ht⟩ := normalize_spec validate_circular
  have hc : "c" ∉ circular.normalize.terminals := by decide +kernel
  exact ⟨(ht "a").2 ⟨["a", "b"], isSentence_circular, by decide⟩, mt (ht "c").2 hc⟩

end PhraseGrammar.Grammar
