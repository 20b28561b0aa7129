import PhraseGrammar.Proofs.FirstAppearance
import PhraseGrammar.Proofs.Normal.Preterminal

namespace PhraseGrammar

/-- Puts another symbol in the place of each symbol. -/
def Production.rename (f : Symbol → Symbol) (p : Production) : Production :=
  ⟨f p.left, p.right.map f⟩

/-- The terminal that a name stands for. Every other symbol stands for itself. -/
def terminalOf (names : List (Symbol × Symbol)) (s : Symbol) : Symbol :=
  ((names.find? (·.2 == s)).map (·.1)).getD s

theorem expansion_eq_terminalOf (names : List (Symbol × Symbol)) (s : Symbol) :
    expansion (names.map fun entry => (entry.2, [entry.1])) s = [terminalOf names s] := by
  induction names with
  | nil => rfl
  | cons entry names ih =>
    rw [expansion, terminalOf] at ih ⊢
    rw [List.map_cons, List.lookup_cons, List.find?_cons]
    by_cases hs : s = entry.2
    · simp [hs]
    · rw [beq_eq_false_iff_ne.2 hs, beq_eq_false_iff_ne.2 (Ne.symm hs)]
      exact ih

/-- The symbols of the right sides longer than one symbol, in order. -/
def symbolsOfLong (productions : List Production) : List Symbol :=
  (productions.filter fun p => 2 ≤ p.right.length).flatMap (·.right)

variable {p : Production} {productions : List Production}

theorem symbolsOfLong_cons_of_short (h : p.right.length < 2) :
    symbolsOfLong (p :: productions) = symbolsOfLong productions := by
  rw [symbolsOfLong, List.filter_cons_of_neg (by simpa using h)]
  rfl

theorem symbolsOfLong_cons_of_long (h : 2 ≤ p.right.length) :
    symbolsOfLong (p :: productions) = p.right ++ symbolsOfLong productions := by
  rw [symbolsOfLong, List.filter_cons_of_pos (by simpa using h)]
  rfl

namespace Preterminals

variable {table : Preterminals} {seen : List Symbol}

/-- The terminals with names are those that have been met, in the order in which they were met. -/
def HasMet (table : Preterminals) (seen : List Symbol) : Prop :=
  table.names.map (·.1) = seen.eraseDups

theorem HasMet.mem_iff (h : table.HasMet seen) {a : Symbol} :
    a ∈ table.names.map (·.1) ↔ a ∈ seen := by
  rw [h, List.mem_eraseDups]

theorem HasMet.nameOf (h : table.HasMet seen) (a : Symbol) :
    (table.nameOf a).2.HasMet (seen ++ [a]) := by
  rw [HasMet, List.eraseDups_append, ← h, Preterminals.nameOf]
  split
  · rename_i name he
    obtain ⟨before, after, he, _⟩ := List.lookup_eq_some_iff.1 he
    have ha : a ∈ seen := h.mem_iff.1 (by simp [he])
    simp [List.removeAll, ha]
  · rename_i he
    rw [List.lookup_eq_none_iff] at he
    have ha : a ∉ seen := by
      intro hm
      obtain ⟨entry, hn, rfl⟩ := List.mem_map.1 (h.mem_iff.2 hm)
      simpa using he entry hn
    simp [List.removeAll, ha, List.eraseDups_cons]

theorem HasMet.separate (h : table.HasMet seen) (right : List Symbol) :
    (table.separate right).2.HasMet (seen ++ right.filter isTerminal) := by
  induction right generalizing table seen with
  | nil => simpa [Preterminals.separate] using h
  | cons s right ih =>
    rw [Preterminals.separate]
    by_cases hs : isNonterminal s = true
    · rw [List.filter_cons_of_neg (by simp [isTerminal, hs])]
      simp only [if_pos hs]
      exact ih h
    · rw [List.filter_cons_of_pos (by simpa [isTerminal] using hs), List.append_cons]
      simp only [if_neg hs]
      exact ih (h.nameOf s)

theorem HasMet.separateAll (h : table.HasMet seen) (productions : List Production) :
    (table.separateAll productions).2.HasMet
      (seen ++ (symbolsOfLong productions).filter isTerminal) := by
  induction productions generalizing table seen with
  | nil => simpa [Preterminals.separateAll, symbolsOfLong] using h
  | cons p productions ih =>
    rw [Preterminals.separateAll]
    by_cases hl : p.right.length < 2
    · rw [symbolsOfLong_cons_of_short hl]
      simp only [if_pos hl]
      exact ih h
    · rw [symbolsOfLong_cons_of_long (Nat.le_of_not_lt hl), List.filter_append,
        ← List.append_assoc]
      simp only [if_neg hl]
      exact ih (h.separate p.right)

end Preterminals

namespace Grammar

variable {g : Grammar} {entry : Symbol × Symbol}

theorem firstAppearances_preterminals :
    FirstAppearances (symbolsOfLong g.productions) (isTerminal · = true)
      (g.preterminals.names.map (·.1)) := by
  have hm : Preterminals.HasMet ⟨.ofGrammar g, []⟩ [] := rfl
  rw [preterminals, hm.separateAll g.productions, List.nil_append]
  exact firstAppearances_eraseDups_filter _ _

/-- The given productions with names in the places of terminals. -/
def namedProductions (g : Grammar) : List Production :=
  (Preterminals.separateAll ⟨.ofGrammar g, []⟩ g.productions).1

theorem forall₂_namedProductions :
    List.Forall₂ (Separates g.preterminals.names) g.productions g.namedProductions :=
  separateAll_ofGrammar.2

theorem length_namedProductions : g.namedProductions.length = g.productions.length :=
  forall₂_namedProductions.length_eq.symm

theorem terminalOf_of_not_mem {s : Symbol} (h : s ∉ g.preterminalEntries.map (·.1)) :
    terminalOf g.preterminals.names s = s := by
  have he := expansion_of_not_mem h
  rw [preterminalEntries, expansion_eq_terminalOf] at he
  exact List.head_eq_of_cons_eq he

/-- With the terminals back in the places of their names, the productions are the given ones. -/
theorem map_rename_namedProductions :
    g.namedProductions.map (·.rename (terminalOf g.preterminals.names)) = g.productions := by
  apply map_eq_of_forall₂ forall₂_namedProductions
  intro p hp q hs
  have hl : terminalOf g.preterminals.names q.left = p.left := by
    rw [hs.left_eq]
    exact terminalOf_of_not_mem (areNew_preterminalEntries.left_not_mem hp)
  have hr : q.right.map (terminalOf g.preterminals.names) = p.right := by
    rw [← flatMap_expansion_of_separates hp hs, List.map_eq_flatMap]
    congr 1
    funext s
    exact (expansion_eq_terminalOf _ _).symm
  rw [Production.rename, hl, hr]

/-- No two productions are merged. -/
theorem productions_separateTerminals (hn : g.productions.Nodup) :
    g.separateTerminals.productions = g.namedProductions ++ g.preterminals.productions := by
  apply distinct_of_nodup (List.nodup_append.2 ⟨?_, ?_, ?_⟩)
  · rw [← map_rename_namedProductions] at hn
    exact hn.of_map
  · have hf : g.preterminals.productions.map (·.left) = g.preterminalNames := by
      rw [Preterminals.productions, List.map_map]
      rfl
    exact .of_map (·.left) (hf ▸ nodup_preterminalNames)
  · intro q hq q' hq' he
    obtain ⟨p, hp, hs⟩ := (exists_mem_of_forall₂ forall₂_namedProductions).2 q hq
    obtain ⟨entry, hm, rfl⟩ := List.mem_map.1 hq'
    rw [he] at hs
    apply areNew_preterminalNames.left_not_mem hp
    rw [← hs.left_eq]
    exact mem_preterminalNames hm

theorem mem_separateTerminals_iff_of_mem (he : entry ∈ g.preterminals.names)
    {right : List Symbol} :
    ⟨entry.2, right⟩ ∈ g.separateTerminals.productions ↔ right = [entry.1] := by
  apply Iff.intro
  · intro hq
    rcases exists_of_mem_separateTerminals hq with ⟨p, hp, hs⟩ | ⟨entry', he', hq⟩
    · have hl : entry.2 = p.left := hs.left_eq
      exact absurd (hl ▸ mem_preterminalNames he) (areNew_preterminalNames.left_not_mem hp)
    · have hn : (g.preterminals.names.map (·.2)).Nodup := nodup_preterminalNames
      rw [Production.mk.injEq] at hq
      rw [hq.2, List.inj_on_of_nodup_map hn he he' hq.1]
  · rintro rfl
    exact mem_separateTerminals_of_mem_names he

/-- A second grammar has names for the terminals in the right sides of the first one that are longer
than one symbol, and is otherwise the first one. -/
structure Separation (g : Grammar) (names : List (Symbol × Symbol)) (g' : Grammar) : Prop where
  start_eq : g'.start = g.start
  isNonterminal_of_mem : ∀ q ∈ g'.productions, 2 ≤ q.right.length →
    ∀ s ∈ q.right, isNonterminal s = true
  terminals : FirstAppearances (symbolsOfLong g.productions) (isTerminal · = true)
    (names.map (·.1))
  nodup_names : (names.map (·.2)).Nodup
  isNonterminal_name : ∀ entry ∈ names, isNonterminal entry.2 = true
  mentions_iff : ∀ s, g'.Mentions s ↔ g.Mentions s ∨ s ∈ names.map (·.2)
  mem_iff : ∀ entry ∈ names, ∀ right,
    ⟨entry.2, right⟩ ∈ g'.productions ↔ right = [entry.1]
  not_mem_symbols : ∀ entry ∈ names, ∀ p ∈ g.productions, entry.2 ∉ p.symbols
  separates : List.Forall₂ (Separates names) g.productions
    (g'.productions.take g.productions.length)
  rename_take : (g'.productions.take g.productions.length).map (·.rename (terminalOf names)) =
    g.productions
  drop_eq : g'.productions.drop g.productions.length =
    names.map fun entry => ⟨entry.2, [entry.1]⟩

/-- Separating terminals only renames them in long right sides, and the names can be taken back. -/
theorem separation_separateTerminals {start : Symbol} {productions : List Production}
    (h : validate start productions = .ok g) :
    g.Separation g.preterminals.names g.separateTerminals := by
  have hp := productions_separateTerminals (validate_eq_ok_iff.1 h).2.nodup
  have ht : g.separateTerminals.productions.take g.productions.length = g.namedProductions := by
    rw [hp, List.take_left' length_namedProductions]
  exact {
    start_eq := rfl
    isNonterminal_of_mem := fun q hq hl => isNonterminal_of_mem_separateTerminals hq hl
    terminals := firstAppearances_preterminals
    nodup_names := nodup_preterminalNames
    isNonterminal_name := separateAll_ofGrammar.1.nonterminal
    mentions_iff := fun s => mentions_separateTerminals_iff
    mem_iff := fun entry he right => mem_separateTerminals_iff_of_mem he
    not_mem_symbols := fun entry he p hp =>
      areNew_preterminalNames.not_mem_symbols hp (mem_preterminalNames he)
    separates := ht ▸ forall₂_namedProductions
    rename_take := ht ▸ map_rename_namedProductions
    drop_eq := by
      rw [hp, List.drop_left' length_namedProductions]
      rfl }

/-- The first names for `a` and for `a1` are both taken, the one for `a1` by the name of `a`. -/
def entangled : Grammar :=
  ⟨"S", [⟨"S", ["a", "S", "b"]⟩, ⟨"S", ["a1", "a"]⟩, ⟨"S", ["c"]⟩, ⟨"T_a", ["a", "a1"]⟩]⟩

theorem separation_entangled :
    validate "S" entangled.productions = .ok entangled ∧
      entangled.preterminals.names = [("a", "T_a1"), ("b", "T_b"), ("a1", "T_a11")] ∧
      entangled.Separation entangled.preterminals.names entangled.separateTerminals ∧
      entangled.separateTerminals.productions.take 4 =
        [⟨"S", ["T_a1", "S", "T_b"]⟩, ⟨"S", ["T_a11", "T_a1"]⟩, ⟨"S", ["c"]⟩,
          ⟨"T_a", ["T_a1", "T_a11"]⟩] := by
  have hv : validate "S" entangled.productions = .ok entangled := by decide +kernel
  exact ⟨hv, by decide +kernel, separation_separateTerminals hv, by decide +kernel⟩

end Grammar

end PhraseGrammar
