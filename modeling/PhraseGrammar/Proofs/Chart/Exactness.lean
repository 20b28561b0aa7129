import PhraseGrammar.Proofs.Chart.Progress

namespace PhraseGrammar

variable {g : Grammar} {tokens : List Token} {tree : Tree} {first last : Nat}

/-- A leaf spans one position and holds the token there, and the parts of a branch meet without gap
or overlap and fill its span. -/
def Tree.FitsTogether (tokens : List Token) : Tree → Prop
  | leaf _ first last token => first = last ∧ tokens[first]? = some token
  | branch _ first last left right =>
    first < last ∧ left.first = first ∧ left.last + 1 = right.first ∧ right.last = last ∧
      left.FitsTogether tokens ∧ right.FitsTogether tokens

theorem Tree.DerivedBy.fitsTogether (h : tree.DerivedBy g tokens) : tree.FitsTogether tokens := by
  induction h with
  | leaf found => exact ⟨rfl, found⟩
  | @branch a left right hl hr adjacent _ _ ihl ihr =>
    have hll := hl.first_le_last
    have hrl := hr.first_le_last
    have hlt : left.first < right.last := by omega
    exact ⟨hlt, rfl, adjacent.symm, rfl, ihl, ihr⟩

theorem Tree.DerivedBy.tokens_eq (h : tree.DerivedBy g tokens) :
    tree.tokens = (tokens.drop tree.first).take (tree.last + 1 - tree.first) := by
  induction h with
  | @leaf a position token found =>
    rw [first_ofToken, last_ofToken, Nat.add_sub_cancel_left, List.take_one, List.head?_drop, found]
    rfl
  | @branch a left right hl hr adjacent _ _ ihl ihr =>
    have hll := hl.first_le_last
    have hrl := hr.first_le_last
    have hsum : right.last + 1 - left.first =
        (left.last + 1 - left.first) + (right.last + 1 - right.first) := by omega
    have hstart : left.first + (left.last + 1 - left.first) = right.first := by omega
    rw [first_ofParts, last_ofParts, hsum, List.take_add, List.drop_drop, hstart, ← ihl, ← ihr]
    rfl

theorem Parse.accepted_eq_true_iff {parse : Parse} :
    parse.accepted = true ↔ ∃ tree, tree ∈ parse.derivations := by
  rw [accepted, root?, Option.isSome_iff_ne_none, Ne, Array.getElem?_eq_none_iff, Nat.le_zero,
    Array.size_eq_zero_iff]
  apply Iff.intro
  · exact Array.exists_mem_of_ne_empty _
  · intro h
    obtain ⟨tree, hm⟩ := h
    exact Array.ne_empty_of_mem hm

namespace Parser

theorem exists_cell_parse (hn : g.productions.Nodup) (hf : first ≤ last)
    (hl : last < tokens.length) :
    ∃ cell, ((ofGrammar g).parse tokens).chart.cell? first last = some cell ∧ cell.Ordered := by
  have h := progress_parse hn tokens
  rw [← h.size_eq] at hl
  obtain ⟨cell, hc⟩ := h.wellFormed.exists_cell hf hl
  exact ⟨cell, hc, h.wellFormed.ordered_cell hc⟩

theorem mem_trees_parse_iff (hn : g.productions.Nodup) (hf : first ≤ last)
    (hl : last < tokens.length) {a : Symbol} :
    tree ∈ ((ofGrammar g).parse tokens).chart.trees first last a ↔
      tree.DerivedBy g tokens ∧ tree.symbol = a ∧ tree.first = first ∧ tree.last = last := by
  rw [(filled_parse hn hf hl).mem_iff, Tree.isAt_eq_true_iff]

theorem derivations_parse (hn : g.productions.Nodup) :
    ((ofGrammar g).parse tokens).derivations =
      ((ofGrammar g).parse tokens).chart.trees 0 (tokens.length - 1) g.start := by
  rw [Parse.derivations, (progress_parse hn tokens).size_eq]
  rfl

/-- The trees over the whole of a sentence, of which the empty one has none. -/
theorem mem_derivations_parse_iff (hn : g.productions.Nodup) :
    tree ∈ ((ofGrammar g).parse tokens).derivations ↔ tree.DerivedBy g tokens ∧
      tree.symbol = g.start ∧ tree.first = 0 ∧ tree.last = tokens.length - 1 := by
  rw [derivations_parse hn]
  cases tokens with
  | nil =>
    apply iff_of_false
    · change tree ∉ (Chart.empty 0).trees 0 0 g.start
      rw [Chart.trees_empty]
      exact Array.not_mem_empty tree
    · intro h
      exact absurd h.1.last_lt (Nat.not_lt_zero _)
  | cons token tokens => exact mem_trees_parse_iff hn (Nat.zero_le _) (Nat.lt_succ_self _)

theorem accepted_parse_iff (hn : g.productions.Nodup) :
    ((ofGrammar g).parse tokens).accepted = true ↔ tokens ≠ [] ∧ ∃ tree : Tree,
      tree.DerivedBy g tokens ∧ tree.symbol = g.start ∧ tree.first = 0 ∧
        tree.last = tokens.length - 1 := by
  simp only [Parse.accepted_eq_true_iff, mem_derivations_parse_iff hn]
  apply Iff.intro
  · intro h
    obtain ⟨tree, hd⟩ := h
    exact ⟨List.ne_nil_of_length_pos (Nat.zero_lt_of_lt hd.1.last_lt), tree, hd⟩
  · intro h
    exact h.2

end Parser

/-- The trees of a chart are the derivations of the parts of a sentence, each of them there once. -/
structure Chart.Exact (g : Grammar) (tokens : List Token) (chart : Chart) : Prop where
  size_eq : chart.size = tokens.length
  mem_trees_iff : ∀ first last, first ≤ last → last < tokens.length → ∀ a tree,
    tree ∈ chart.trees first last a ↔
      tree.DerivedBy g tokens ∧ tree.symbol = a ∧ tree.first = first ∧ tree.last = last
  nodup_trees : ∀ first last, first ≤ last → last < tokens.length → ∀ a,
    (chart.trees first last a).toList.Nodup
  mem_symbols_iff : ∀ first last, first ≤ last → last < tokens.length → ∃ cell,
    chart.cell? first last = some cell ∧ ∀ a, a ∈ cell.map (·.1) ↔
      ∃ tree : Tree, tree.DerivedBy g tokens ∧ tree.symbol = a ∧ tree.first = first ∧
        tree.last = last

theorem exact_chart_parse (hn : g.productions.Nodup) (tokens : List Token) :
    ((Parser.ofGrammar g).parse tokens).chart.Exact g tokens where
  size_eq := (Parser.progress_parse hn tokens).size_eq
  mem_trees_iff first last hf hl a tree := Parser.mem_trees_parse_iff hn hf hl
  nodup_trees first last hf hl := (Parser.filled_parse hn hf hl).nodup
  mem_symbols_iff first last hf hl := by
    obtain ⟨cell, hc, ho⟩ := Parser.exists_cell_parse hn hf hl
    refine ⟨cell, hc, ?_⟩
    intro a
    rw [Cell.mem_map_iff ho, ← Chart.trees_of_cell? hc]
    simp only [Parser.mem_trees_parse_iff hn hf hl]

theorem parse_spec (hn : g.productions.Nodup) (tokens : List Token) :
    let parse := (Parser.ofGrammar g).parse tokens
    parse.chart.Exact g tokens ∧
      (∀ tree : Tree, tree.DerivedBy g tokens → tree.FitsTogether tokens ∧
        tree.tokens = (tokens.drop tree.first).take (tree.last + 1 - tree.first)) ∧
      (parse.accepted = true ↔ tokens ≠ [] ∧ ∃ tree : Tree, tree.DerivedBy g tokens ∧
        tree.symbol = g.start ∧ tree.first = 0 ∧ tree.last = tokens.length - 1) ∧
      parse.root? = (parse.chart.trees 0 (tokens.length - 1) g.start)[0]? ∧
      (tokens = [] → parse.accepted = false ∧ parse.chart = .empty 0) := by
  refine ⟨exact_chart_parse hn tokens, ?_, Parser.accepted_parse_iff hn, ?_, ?_⟩
  · intro tree h
    exact ⟨h.fitsTogether, h.tokens_eq⟩
  · rw [Parse.root?, Parser.derivations_parse hn]
  · intro he
    subst he
    refine ⟨eq_false_of_ne_true ?_, rfl⟩
    intro ha
    exact ((Parser.accepted_parse_iff hn).1 ha).1 rfl

/-- Every way to put brackets around a list of equal tokens is a derivation. -/
def bracketings : Grammar :=
  ⟨"S", [⟨"S", ["a"]⟩, ⟨"S", ["S", "S"]⟩]⟩

theorem parse_bracketings : bracketings.productions.Nodup ∧
    ((Parser.ofGrammar bracketings).parse ["a", "a", "a"]).accepted = true ∧
    ((Parser.ofGrammar bracketings).parse ["a", "a", "a"]).derivations.size = 2 := by
  have hn : bracketings.productions.Nodup := by decide
  obtain ⟨_, _, ha, _, _⟩ := parse_spec hn ["a", "a", "a"]
  have hl {position : Nat} (found : ["a", "a", "a"][position]? = some "a") :
      (Tree.ofToken "S" position "a").DerivedBy bracketings ["a", "a", "a"] :=
    .leaf found rfl (by decide)
  have hb : (Tree.ofParts "S" (.ofToken "S" 0 "a") (.ofToken "S" 1 "a")).DerivedBy bracketings
      ["a", "a", "a"] := .branch (hl rfl) (hl rfl) rfl ⟨rfl, rfl⟩ (by decide)
  have hc : (Tree.ofToken "S" 2 "a").DerivedBy bracketings ["a", "a", "a"] := hl rfl
  have hd : (Tree.ofParts "S" (.ofParts "S" (.ofToken "S" 0 "a") (.ofToken "S" 1 "a"))
      (.ofToken "S" 2 "a")).DerivedBy bracketings ["a", "a", "a"] :=
    .branch hb hc rfl ⟨rfl, rfl⟩ (by decide)
  exact ⟨hn, ha.2 ⟨by decide, _, hd, rfl, rfl, rfl⟩, by decide +kernel⟩

end PhraseGrammar
