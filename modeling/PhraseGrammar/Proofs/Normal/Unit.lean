import PhraseGrammar.Proofs.Grammar.Symbols
import PhraseGrammar.Proofs.Grammar.UnitClosure
import PhraseGrammar.Proofs.Normal.Epsilon

namespace PhraseGrammar.Grammar

variable {g g' : Grammar} {p : Production} {a b : Symbol} {form : List Symbol}
  {tokens : List Token}

theorem Yields.of_unitReaches (h : g.UnitReaches a b) (hy : g.Yields [b] tokens) :
    g.Yields [a] tokens := by
  induction h using Relation.ReflTransGen.head_induction_on with
  | refl => exact hy
  | head hs _ ih => exact .of_mem hs.1 ih

theorem UnitReaches.exists_left {q : Production} (h : g.UnitReaches a q.left)
    (hq : q ∈ g.productions) : ∃ p ∈ g.productions, p.left = a := by
  rcases Relation.ReflTransGen.cases_head h with rfl | ⟨c, hs, _⟩
  · exact ⟨q, hq, rfl⟩
  · exact ⟨⟨a, [c]⟩, hs.1, rfl⟩

/-- The second grammar has the right sides of all symbols that a symbol of the first can become,
except the unit productions on the way. -/
def ShortensUnits (g g' : Grammar) : Prop :=
  ∀ p, p ∈ g'.productions ↔ p.isUnit = false ∧
    ∃ q ∈ g.productions, g.UnitReaches p.left q.left ∧ q.right = p.right

theorem ShortensUnits.yields_iff (h : ShortensUnits g g') :
    g'.Yields form tokens ↔ g.Yields form tokens := by
  apply Iff.intro
  · apply Yields.simulate
    intro p hp tokens hy
    obtain ⟨_, q, hq, hl, hr⟩ := (h p).1 hp
    exact .of_unitReaches hl (.of_mem hq (hr ▸ hy))
  · apply Yields.simulate
    intro p hp tokens hy
    by_cases hu : p.isUnit = true
    · obtain ⟨b, hr, hb⟩ := Production.isUnit_eq_true_iff.1 hu
      rw [hr] at hy
      -- The unit production is skipped in favour of the one that is used below it.
      obtain ⟨q, hq, rfl, hyq⟩ := (yields_nonterminal_iff hb).1 hy
      obtain ⟨hn, q', hq', hl', hr'⟩ := (h q).1 hq
      have hs : g.UnitStep p.left q.left := ⟨hr ▸ hp, hb⟩
      have hm : ⟨p.left, q.right⟩ ∈ g'.productions := (h _).2 ⟨hn, q', hq', hl'.head hs, hr'⟩
      exact .of_mem (p := ⟨p.left, q.right⟩) hm hyq
    · have hm : p ∈ g'.productions := (h p).2 ⟨eq_false_of_ne_true hu, p, hp, .refl, rfl⟩
      exact .of_mem hm hy

@[simp]
theorem start_withoutUnits : g.withoutUnits.start = g.start := rfl

theorem shortensUnits_withoutUnits : ShortensUnits g g.withoutUnits := by
  intro p
  rw [withoutUnits, mem_ofProductions]
  simp only [List.mem_flatMap, List.mem_map, List.mem_filter, mem_unitClosure_iff, Bool.and_eq_true,
    beq_iff_eq, Bool.not_eq_true']
  apply Iff.intro
  · intro h
    obtain ⟨a, _, b, hr, q, ⟨hq, rfl, hu⟩, rfl⟩ := h
    exact ⟨hu, q, hq, hr, rfl⟩
  · intro h
    obtain ⟨hu, q, hq, hl, hr⟩ := h
    have hq' : q.isUnit = false := by
      rw [Production.isUnit, hr]
      exact hu
    refine ⟨p.left, ?_, q.left, hl, q, ⟨hq, rfl, hq'⟩, by rw [hr]⟩
    exact mem_nonterminals_iff.2 (UnitReaches.exists_left hl hq)

theorem unitStep_solid_iff : g.solid.UnitStep a b ↔ g.UnitStep a b := by
  rw [UnitStep, UnitStep, mem_solid]
  simp

theorem unitReaches_solid_iff : g.solid.UnitReaches a b ↔ g.UnitReaches a b := by
  have he : g.solid.UnitStep = g.UnitStep := by
    funext a b
    exact propext unitStep_solid_iff
  rw [UnitReaches, UnitReaches, he]

theorem shortensUnits_solid : ShortensUnits g.solid g.withoutUnits.solid := by
  intro p
  rw [mem_solid, shortensUnits_withoutUnits p]
  simp only [unitReaches_solid_iff, mem_solid]
  apply Iff.intro
  · intro h
    obtain ⟨⟨hu, q, hq, hl, hr⟩, hne⟩ := h
    exact ⟨hu, q, ⟨hq, hr ▸ hne⟩, hl, hr⟩
  · intro h
    obtain ⟨hu, q, ⟨hq, hne⟩, hl, hr⟩ := h
    exact ⟨⟨hu, q, hq, hl, hr⟩, hr ▸ hne⟩

theorem isUnit_of_mem_withoutUnits (hp : p ∈ g.withoutUnits.productions) : p.isUnit = false :=
  ((shortensUnits_withoutUnits p).1 hp).1

theorem exists_left_of_mem_withoutUnits (hp : p ∈ g.withoutUnits.productions) :
    ∃ q ∈ g.productions, q.left = p.left := by
  obtain ⟨_, q, hq, hl, _⟩ := (shortensUnits_withoutUnits p).1 hp
  exact UnitReaches.exists_left hl hq

/-- Without unit productions, the symbols that could become the start symbol share its empty right
side. -/
theorem nil_mem_withoutUnits_iff (h : ∀ p ∈ g.productions, p.right = [] → p.left = g.start) :
    ⟨a, []⟩ ∈ g.withoutUnits.productions ↔
      ⟨g.start, []⟩ ∈ g.productions ∧ g.UnitReaches a g.start := by
  rw [shortensUnits_withoutUnits]
  apply Iff.intro
  · intro hm
    obtain ⟨_, ⟨left, right⟩, hq, hl, rfl⟩ := hm
    obtain rfl : left = g.start := h _ hq rfl
    exact ⟨hq, hl⟩
  · intro hm
    exact ⟨rfl, _, hm.1, hm.2, rfl⟩

theorem WellFormed.withoutUnits (hw : g.WellFormed) : g.withoutUnits.WellFormed where
  start := hw.start
  left p hp := by
    obtain ⟨q, hq, hl⟩ := exists_left_of_mem_withoutUnits hp
    exact hl ▸ hw.left q hq
  right p hp := by
    obtain ⟨_, q, hq, _, hr⟩ := (shortensUnits_withoutUnits p).1 hp
    exact hr ▸ hw.right q hq
  nodup := nodup_distinct

theorem yields_withoutUnits_iff : g.withoutUnits.Yields form tokens ↔ g.Yields form tokens :=
  shortensUnits_withoutUnits.yields_iff

theorem yields_solid_withoutUnits_iff :
    g.withoutUnits.solid.Yields form tokens ↔ g.solid.Yields form tokens :=
  shortensUnits_solid.yields_iff

/-- No right side is a single nonterminal any more, and every symbol derives the same lists of
terminals as before, the empty one included. -/
theorem withoutUnits_spec (g : Grammar) :
    (∀ p ∈ g.withoutUnits.productions, ∀ b, isNonterminal b = true → p.right ≠ [b]) ∧
      g.withoutUnits.start = g.start ∧
      ∀ a tokens, (∀ token ∈ tokens, isTerminal token = true) →
        (g.withoutUnits.Derives [a] tokens ↔ g.Derives [a] tokens) := by
  refine ⟨?_, rfl, ?_⟩
  · intro p hp b hb hr
    have hu := isUnit_of_mem_withoutUnits hp
    rw [Production.isUnit_eq_true_iff.2 ⟨b, hr, hb⟩] at hu
    cases hu
  · intro a tokens ht
    have hy : g.withoutUnits.Yields [a] tokens ↔ g.Yields [a] tokens := yields_withoutUnits_iff
    rwa [yields_iff_derives ht, yields_iff_derives ht] at hy

/-- Three of its nonterminals become one another in a circle, and one of them a nonterminal that has
no production. -/
def encircled : Grammar :=
  ⟨"S", [⟨"S", ["A"]⟩, ⟨"A", ["B"]⟩, ⟨"B", ["S"]⟩, ⟨"B", ["U"]⟩, ⟨"A", []⟩, ⟨"B", ["b", "S"]⟩]⟩

theorem withoutUnits_encircled :
    (∀ p ∈ encircled.withoutUnits.productions, p.right ≠ ["U"]) ∧
      encircled.Derives ["B"] [] ∧ encircled.Derives ["S"] ["b"] ∧
      ¬encircled.withoutUnits.Derives ["U"] [] := by
  obtain ⟨hu, _, hd⟩ := withoutUnits_spec encircled
  have he : encircled.withoutUnits.Derives ["B"] [] :=
    .of_mem (p := ⟨"B", []⟩) (by decide +kernel)
  have hb : encircled.withoutUnits.Yields ["S"] ["b"] := by
    have hs : encircled.withoutUnits.Yields ["S"] [] :=
      .of_mem (p := ⟨"S", []⟩) (by decide +kernel) .nil
    exact .of_mem (p := ⟨"S", ["b", "S"]⟩) (by decide +kernel) (.terminal rfl hs)
  have hn : ¬encircled.Derives ["U"] [] := by
    intro h
    obtain ⟨p, hp, hl, _⟩ :=
      (yields_nonterminal_iff (a := "U") rfl).1 ((yields_iff_derives (by simp)).2 h)
    have hc : ∀ p ∈ encircled.productions, p.left ≠ "U" := by decide
    exact hc p hp hl
  exact ⟨fun p hp => hu p hp "U" rfl, (hd "B" [] (by simp)).1 he,
    (hd "S" ["b"] (by decide)).1 hb.derives, mt (hd "U" [] (by simp)).1 hn⟩

end PhraseGrammar.Grammar
