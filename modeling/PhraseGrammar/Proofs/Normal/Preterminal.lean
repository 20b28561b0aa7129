import PhraseGrammar.Normal.Preterminal
import PhraseGrammar.Proofs.Normal.Extension
import PhraseGrammar.Proofs.Pointwise

namespace PhraseGrammar

variable {names names' : List (Symbol × Symbol)} {right : List Symbol}

/-- A nonterminal stands for itself, and the name of a terminal for the terminal. -/
def Stands (names : List (Symbol × Symbol)) (s t : Symbol) : Prop :=
  isNonterminal s = true ∧ t = s ∨ isTerminal s = true ∧ (s, t) ∈ names

theorem Stands.mono (hs : names ⊆ names') {s t : Symbol} (h : Stands names s t) :
    Stands names' s t :=
  h.imp id fun h => ⟨h.1, hs h.2⟩

/-- In a right side longer than one symbol, names stand for the terminals. -/
inductive Separates (names : List (Symbol × Symbol)) : Production → Production → Prop where
  | short {p : Production} (hl : p.right.length < 2) : Separates names p p
  | long {p : Production} {right : List Symbol} (hl : 2 ≤ p.right.length)
    (hr : List.Forall₂ (Stands names) p.right right) : Separates names p ⟨p.left, right⟩

theorem Separates.mono (hs : names ⊆ names') {p q : Production} (h : Separates names p q) :
    Separates names' p q := by
  cases h with
  | short hl => exact .short hl
  | long hl hr => exact .long hl (hr.imp fun _ _ => Stands.mono hs)

theorem Separates.left_eq {p q : Production} (h : Separates names p q) : q.left = p.left := by
  cases h <;> rfl

namespace Preterminals

variable {pool : NamePool} {Source : Symbol → Prop} {table : Preterminals}

/-- The names of a table are nonterminals, have been taken from a pool, and stand for symbols of a
certain kind. -/
structure NamedFrom (pool : NamePool) (Source : Symbol → Prop) (table : Preterminals) :
    Prop where
  allocates : pool.Allocates (table.names.map (·.2)) table.pool
  nonterminal : ∀ entry ∈ table.names, isNonterminal entry.2 = true
  source : ∀ entry ∈ table.names, Source entry.1

/-- A later state of a table, where no name has been lost. -/
structure Grows (pool : NamePool) (Source : Symbol → Prop) (table table' : Preterminals) :
    Prop where
  named : table'.NamedFrom pool Source
  names_subset : table.names ⊆ table'.names

theorem NamedFrom.nameOf (h : table.NamedFrom pool Source) {a : Symbol} (ha : Source a) :
    Grows pool Source table (table.nameOf a).2 ∧
      (a, (table.nameOf a).1) ∈ (table.nameOf a).2.names := by
  rw [Preterminals.nameOf]
  split
  · rename_i name he
    obtain ⟨before, after, he, _⟩ := List.lookup_eq_some_iff.1 he
    exact ⟨⟨h, List.Subset.refl _⟩, by simp [he]⟩
  · refine ⟨⟨⟨?_, ?_, ?_⟩, List.subset_append_left _ _⟩, by simp⟩
    · rw [List.map_append]
      exact h.allocates.append (NamePool.allocates_fresh _ _)
    · apply List.forall_mem_append.2 ⟨h.nonterminal, ?_⟩
      intro entry hm
      rw [List.mem_singleton.1 hm]
      exact isNonterminal_candidate (isNonterminal_append (by decide) _)
    · apply List.forall_mem_append.2 ⟨h.source, ?_⟩
      intro entry hm
      rw [List.mem_singleton.1 hm]
      exact ha

theorem NamedFrom.separate (h : table.NamedFrom pool Source)
    (hr : ∀ s ∈ right, isTerminal s = true → Source s) :
    Grows pool Source table (table.separate right).2 ∧
      List.Forall₂ (Stands (table.separate right).2.names) right (table.separate right).1 := by
  induction right generalizing table with
  | nil => exact ⟨⟨h, List.Subset.refl _⟩, .nil⟩
  | cons s right ih =>
    rw [List.forall_mem_cons] at hr
    rw [Preterminals.separate]
    by_cases hs : isNonterminal s = true
    · simp only [if_pos hs]
      obtain ⟨hg, hf⟩ := ih h hr.2
      exact ⟨hg, .cons (.inl ⟨hs, rfl⟩) hf⟩
    · have ht : isTerminal s = true := by simpa [isTerminal] using hs
      simp only [if_neg hs]
      obtain ⟨hn, hm⟩ := h.nameOf (hr.1 ht)
      obtain ⟨hg, hf⟩ := ih hn.named hr.2
      exact ⟨⟨hg.named, List.Subset.trans hn.names_subset hg.names_subset⟩,
        .cons (.inr ⟨ht, hg.names_subset hm⟩) hf⟩

theorem NamedFrom.separateAll {productions : List Production} (h : table.NamedFrom pool Source)
    (hr : ∀ p ∈ productions, 2 ≤ p.right.length → ∀ s ∈ p.right, isTerminal s = true → Source s) :
    Grows pool Source table (table.separateAll productions).2 ∧
      List.Forall₂ (Separates (table.separateAll productions).2.names) productions
        (table.separateAll productions).1 := by
  induction productions generalizing table with
  | nil => exact ⟨⟨h, List.Subset.refl _⟩, .nil⟩
  | cons p productions ih =>
    rw [List.forall_mem_cons] at hr
    rw [Preterminals.separateAll]
    by_cases hl : p.right.length < 2
    · simp only [if_pos hl]
      obtain ⟨hg, hf⟩ := ih h hr.2
      exact ⟨hg, .cons (.short hl) hf⟩
    · simp only [if_neg hl]
      have hl := Nat.le_of_not_lt hl
      obtain ⟨hn, hs⟩ := h.separate (hr.1 hl)
      obtain ⟨hg, hf⟩ := ih hn.named hr.2
      exact ⟨⟨hg.named, List.Subset.trans hn.names_subset hg.names_subset⟩,
        .cons ((Separates.long hl hs).mono hg.names_subset) hf⟩

end Preterminals

namespace Grammar

variable {g : Grammar} {p q : Production}

/-- The names that stand for terminals in long right sides. -/
def preterminals (g : Grammar) : Preterminals :=
  (Preterminals.separateAll ⟨.ofGrammar g, []⟩ g.productions).2

/-- The terminals that get a name. -/
def IsSeparated (g : Grammar) (a : Symbol) : Prop :=
  isTerminal a = true ∧ ∃ p ∈ g.productions, 2 ≤ p.right.length ∧ a ∈ p.right

theorem separateAll_ofGrammar :
    g.preterminals.NamedFrom (.ofGrammar g) g.IsSeparated ∧
      List.Forall₂ (Separates g.preterminals.names) g.productions
        (Preterminals.separateAll ⟨.ofGrammar g, []⟩ g.productions).1 := by
  have hn : Preterminals.NamedFrom (.ofGrammar g) g.IsSeparated ⟨.ofGrammar g, []⟩ :=
    ⟨NamePool.allocates_nil _, by simp, by simp⟩
  have hr : ∀ p ∈ g.productions, 2 ≤ p.right.length → ∀ s ∈ p.right, isTerminal s = true →
      g.IsSeparated s := fun p hp hl s hs ha => ⟨ha, p, hp, hl, hs⟩
  obtain ⟨hg, hf⟩ := hn.separateAll hr
  exact ⟨hg.named, hf⟩

@[simp]
theorem start_separateTerminals : g.separateTerminals.start = g.start := rfl

theorem mem_separateTerminals_of_mem_names {a name : Symbol}
    (h : (a, name) ∈ g.preterminals.names) :
    ⟨name, [a]⟩ ∈ g.separateTerminals.productions := by
  rw [separateTerminals, mem_ofProductions, List.mem_append]
  exact .inr (List.mem_map.2 ⟨(a, name), h, rfl⟩)

theorem exists_separates_of_mem (hp : p ∈ g.productions) :
    ∃ q ∈ g.separateTerminals.productions, Separates g.preterminals.names p q := by
  obtain ⟨q, hq, hs⟩ := (exists_mem_of_forall₂ separateAll_ofGrammar.2).1 p hp
  exact ⟨q, mem_ofProductions.2 (List.mem_append_left _ hq), hs⟩

theorem exists_of_mem_separateTerminals (hq : q ∈ g.separateTerminals.productions) :
    (∃ p ∈ g.productions, Separates g.preterminals.names p q) ∨
      ∃ entry ∈ g.preterminals.names, q = ⟨entry.2, [entry.1]⟩ := by
  rw [separateTerminals, mem_ofProductions, List.mem_append] at hq
  rcases hq with hq | hq
  · exact .inl ((exists_mem_of_forall₂ separateAll_ofGrammar.2).2 q hq)
  · obtain ⟨entry, he, rfl⟩ := List.mem_map.1 hq
    exact .inr ⟨entry, he, rfl⟩

/-- The names of the terminals, with the lists of one terminal that they are short for. -/
def preterminalEntries (g : Grammar) : List (Symbol × List Symbol) :=
  g.preterminals.names.map fun entry => (entry.2, [entry.1])

/-- The names of the terminals, in the order in which they are handed out. -/
def preterminalNames (g : Grammar) : List Symbol :=
  g.preterminals.names.map (·.2)

theorem mem_preterminalNames {entry : Symbol × Symbol} (h : entry ∈ g.preterminals.names) :
    entry.2 ∈ g.preterminalNames :=
  List.mem_map.2 ⟨entry, h, rfl⟩

theorem map_preterminalEntries : g.preterminalEntries.map (·.1) = g.preterminalNames := by
  rw [preterminalEntries, List.map_map]
  rfl

theorem nodup_preterminalNames : g.preterminalNames.Nodup :=
  separateAll_ofGrammar.1.allocates.nodup

theorem areNew_preterminalNames : g.AreNew g.preterminalNames := by
  have hn := separateAll_ofGrammar (g := g).1
  intro name hm
  obtain ⟨entry, he, rfl⟩ := List.mem_map.1 hm
  exact ⟨hn.nonterminal entry he, hn.allocates.unused _ hm⟩

theorem areNew_preterminalEntries : g.AreNew (g.preterminalEntries.map (·.1)) := by
  rw [map_preterminalEntries]
  exact areNew_preterminalNames

theorem start_not_mem_preterminalNames (h : g.IsRooted) : g.start ∉ g.preterminalNames := by
  intro hm
  obtain ⟨entry, he, _⟩ := List.mem_map.1 hm
  obtain ⟨_, p, hp, _⟩ := separateAll_ofGrammar.1.source entry he
  exact areNew_preterminalNames.start_not_mem h hp hm

theorem expansion_of_mem_names {a name : Symbol} (h : (a, name) ∈ g.preterminals.names) :
    expansion g.preterminalEntries name = [a] := by
  apply expansion_of_mem
  · rw [map_preterminalEntries]
    exact nodup_preterminalNames
  · exact List.mem_map.2 ⟨(a, name), h, rfl⟩

theorem flatMap_expansion_of_stands {right right' : List Symbol}
    (h : List.Forall₂ (Stands g.preterminals.names) right right')
    (hn : ∀ s ∈ right, s ∉ g.preterminalEntries.map (·.1)) :
    right'.flatMap (expansion g.preterminalEntries) = right := by
  induction h with
  | nil => rfl
  | cons hs _ ih =>
    rw [List.forall_mem_cons] at hn
    rw [List.flatMap_cons, ih hn.2]
    rcases hs with ⟨_, rfl⟩ | ⟨_, hm⟩
    · rw [expansion_of_not_mem hn.1]
      rfl
    · rw [expansion_of_mem_names hm]
      rfl

theorem flatMap_expansion_of_separates (hp : p ∈ g.productions)
    (h : Separates g.preterminals.names p q) :
    q.right.flatMap (expansion g.preterminalEntries) = p.right := by
  have hn : ∀ s ∈ p.right, s ∉ g.preterminalEntries.map (·.1) :=
    fun s hs => areNew_preterminalEntries.right_not_mem hp hs
  cases h with
  | short => exact flatMap_expansion_of_not_mem hn
  | long _ hr => exact flatMap_expansion_of_stands hr hn

theorem Yields.of_stands {right right' : List Symbol} {tokens : List Token}
    (h : List.Forall₂ (Stands g.preterminals.names) right right')
    (hy : g.separateTerminals.solid.Yields right tokens) :
    g.separateTerminals.solid.Yields right' tokens := by
  induction h generalizing tokens with
  | nil => exact hy
  | cons hs _ ih =>
    obtain ⟨first, second, rfl, hf, hs'⟩ := yields_cons_iff.1 hy
    rcases hs with ⟨_, rfl⟩ | ⟨ha, hm⟩
    · exact hf.append (ih hs')
    · have hq := mem_solid.2 ⟨mem_separateTerminals_of_mem_names hm, List.cons_ne_nil _ _⟩
      exact .expand hq hf (ih hs')

theorem extends_separateTerminals (g : Grammar) :
    g.Extends g.preterminalEntries g.separateTerminals where
  areNew := areNew_preterminalEntries
  ne_nil entry he := by
    obtain ⟨entry, hm, rfl⟩ := List.mem_map.1 he
    exact List.cons_ne_nil _ _
  reads q hq := by
    rcases exists_of_mem_separateTerminals hq with ⟨p, hp, hs⟩ | ⟨⟨a, name⟩, hm, rfl⟩
    · right
      have hu := areNew_preterminalEntries.left_not_mem hp
      refine ⟨p, hp, ?_, flatMap_expansion_of_separates hp hs⟩
      rw [hs.left_eq, expansion_of_not_mem hu]
    · left
      have ha := (separateAll_ofGrammar.1.source _ hm).1
      have hn : a ∉ g.preterminalEntries.map (·.1) := by
        obtain ⟨_, p, hp, _, hr⟩ := separateAll_ofGrammar.1.source _ hm
        exact areNew_preterminalEntries.right_not_mem hp hr
      rw [List.flatMap_singleton, expansion_of_mem_names hm, expansion_of_not_mem hn]
  simulates p hp tokens hy := by
    obtain ⟨hm, hne⟩ := mem_solid.1 hp
    obtain ⟨q, hq, hs⟩ := exists_separates_of_mem hm
    cases hs with
    | short => exact .of_mem (mem_solid.2 ⟨hq, hne⟩) hy
    | @long right _ hr =>
      have hqn : right ≠ [] := by
        rintro rfl
        exact hne (List.forall₂_nil_right_iff.1 hr)
      exact .of_mem (p := ⟨p.left, right⟩) (mem_solid.2 ⟨hq, hqn⟩) (.of_stands hr hy)

theorem IsRooted.separateTerminals (h : g.IsRooted) : g.separateTerminals.IsRooted := by
  have hp : ∀ p ∈ g.productions, ∃ q ∈ g.separateTerminals.productions, q.left = g.start := by
    intro p hp
    obtain ⟨p', hp', hl⟩ := h p hp
    obtain ⟨q, hq, hs⟩ := exists_separates_of_mem hp'
    exact ⟨q, hq, hs.left_eq.trans hl⟩
  intro q hq
  rcases exists_of_mem_separateTerminals hq with ⟨p, hm, _⟩ | ⟨entry, he, _⟩
  · exact hp p hm
  · obtain ⟨_, p, hm, _⟩ := separateAll_ofGrammar.1.source entry he
    exact hp p hm

theorem yields_solid_separateTerminals_iff {tokens : List Token} (h : g.IsRooted) :
    g.separateTerminals.solid.Yields [g.start] tokens ↔ g.solid.Yields [g.start] tokens := by
  apply (extends_separateTerminals g).yields_solid_iff
  rw [map_preterminalEntries]
  exact start_not_mem_preterminalNames h

theorem isNonterminal_of_stands {right right' : List Symbol}
    (h : List.Forall₂ (Stands g.preterminals.names) right right') :
    ∀ s ∈ right', isNonterminal s = true := by
  induction h with
  | nil => simp
  | cons hs _ ih =>
    apply List.forall_mem_cons.2 ⟨?_, ih⟩
    rcases hs with ⟨hn, rfl⟩ | ⟨_, hm⟩
    · exact hn
    · exact separateAll_ofGrammar.1.nonterminal _ hm

theorem isNonterminal_of_mem_separateTerminals (hq : q ∈ g.separateTerminals.productions)
    (hl : 2 ≤ q.right.length) : ∀ s ∈ q.right, isNonterminal s = true := by
  rcases exists_of_mem_separateTerminals hq with ⟨p, hp, hs⟩ | ⟨entry, _, rfl⟩
  · cases hs with
    | short hs => omega
    | long _ hr => exact isNonterminal_of_stands hr
  · simp at hl

theorem isUnit_of_mem_separateTerminals (hu : ∀ p ∈ g.productions, p.isUnit = false)
    (hq : q ∈ g.separateTerminals.productions) : q.isUnit = false := by
  rcases exists_of_mem_separateTerminals hq with ⟨p, hp, hs⟩ | ⟨entry, hm, rfl⟩
  · cases hs with
    | short => exact hu q hp
    | long hl hr =>
      apply eq_false_of_ne_true
      intro he
      obtain ⟨b, hb, _⟩ := Production.isUnit_eq_true_iff.1 he
      rw [hr.length_eq] at hl
      exact absurd (congrArg List.length hb) (by simp only [List.length_singleton]; omega)
  · have ha := (separateAll_ofGrammar.1.source _ hm).1
    simpa [Production.isUnit, isTerminal] using ha

theorem nil_mem_separateTerminals_iff {a : Symbol} :
    ⟨a, []⟩ ∈ g.separateTerminals.productions ↔ ⟨a, []⟩ ∈ g.productions := by
  apply Iff.intro
  · intro hq
    rcases exists_of_mem_separateTerminals hq with ⟨p, hp, hs⟩ | ⟨entry, _, he⟩
    · cases hs with
      | short => exact hp
      | long hl hr =>
        rw [List.forall₂_nil_right_iff.1 hr] at hl
        cases hl
    · cases he
  · intro hp
    obtain ⟨q, hq, hs⟩ := exists_separates_of_mem hp
    cases hs with
    | short => exact hq
    | long hl => cases hl

theorem mem_symbols_of_separates {s : Symbol} (h : Separates g.preterminals.names p q)
    (hn : isNonterminal s = true) (hs : s ∈ p.symbols) : s ∈ q.symbols := by
  cases h with
  | short => exact hs
  | long _ hr =>
    rcases mem_symbols_iff.1 hs with rfl | hm
    · exact List.mem_cons_self
    · obtain ⟨t, ht, hst⟩ := (exists_mem_of_forall₂ hr).1 s hm
      rcases hst with ⟨_, rfl⟩ | ⟨ha, _⟩
      · exact List.mem_cons_of_mem _ ht
      · rw [isTerminal, hn] at ha
        cases ha

theorem mem_symbols_or_of_separates {s : Symbol} (h : Separates g.preterminals.names p q)
    (hs : s ∈ q.symbols) : s ∈ p.symbols ∨ s ∈ g.preterminalNames := by
  cases h with
  | short => exact .inl hs
  | long _ hr =>
    rcases mem_symbols_iff.1 hs with rfl | hm
    · exact .inl List.mem_cons_self
    · obtain ⟨t, ht, hst⟩ := (exists_mem_of_forall₂ hr).2 s hm
      rcases hst with ⟨_, rfl⟩ | ⟨_, hname⟩
      · exact .inl (List.mem_cons_of_mem _ ht)
      · exact .inr (mem_preterminalNames hname)

theorem mentions_separateTerminals_iff {s : Symbol} :
    g.separateTerminals.Mentions s ↔ g.Mentions s ∨ s ∈ g.preterminalNames := by
  apply Iff.intro
  · intro h
    obtain ⟨hn, q, hq, hs⟩ := h
    rcases exists_of_mem_separateTerminals hq with ⟨p, hp, hsep⟩ | ⟨entry, he, rfl⟩
    · exact (mem_symbols_or_of_separates hsep hs).imp_left fun hm => ⟨hn, p, hp, hm⟩
    · rcases mem_symbols_iff.1 hs with rfl | hm
      · exact .inr (mem_preterminalNames he)
      · have ha := (separateAll_ofGrammar.1.source entry he).1
        rw [← List.mem_singleton.1 hm, isTerminal, hn] at ha
        cases ha
  · intro h
    rcases h with ⟨hn, p, hp, hs⟩ | hm
    · obtain ⟨q, hq, hsep⟩ := exists_separates_of_mem hp
      exact ⟨hn, q, hq, mem_symbols_of_separates hsep hn hs⟩
    · obtain ⟨entry, he, rfl⟩ := List.mem_map.1 hm
      exact ⟨separateAll_ofGrammar.1.nonterminal entry he, _,
        mem_separateTerminals_of_mem_names he, List.mem_cons_self⟩

theorem WellFormed.separateTerminals (hw : g.WellFormed) : g.separateTerminals.WellFormed where
  start := hw.start
  left q hq := by
    rcases exists_of_mem_separateTerminals hq with ⟨p, hp, hs⟩ | ⟨entry, hm, rfl⟩
    · exact hs.left_eq ▸ hw.left p hp
    · exact separateAll_ofGrammar.1.nonterminal entry hm
  right q hq := by
    rcases exists_of_mem_separateTerminals hq with ⟨p, hp, hs⟩ | ⟨entry, hm, rfl⟩
    · cases hs with
      | short => exact hw.right q hp
      | long _ hr =>
        intro he
        exact absurd (isNonterminal_of_stands hr "" he) (by decide)
    · obtain ⟨_, p, hp, _, hr⟩ := separateAll_ofGrammar.1.source _ hm
      intro he
      rw [← List.mem_singleton.1 he] at hr
      exact hw.right p hp hr
  nodup := nodup_distinct

end Grammar

end PhraseGrammar
