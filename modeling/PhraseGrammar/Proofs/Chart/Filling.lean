import PhraseGrammar.Proofs.Chart.Candidates

namespace PhraseGrammar

variable {g : Grammar} {tokens : List Token} {chart : Chart} {first last middle : Nat}
  {tree : Tree} {cell lefts rights : Cell}

/-- Over a span each derivation has been found, once and under its symbol, and nothing else. -/
structure Filled (g : Grammar) (tokens : List Token) (chart : Chart) (first last : Nat) :
    Prop where
  mem_iff : ∀ a tree, tree ∈ chart.trees first last a ↔
    tree.DerivedBy g tokens ∧ tree.isAt first last a = true
  nodup : ∀ a, (chart.trees first last a).toList.Nodup

theorem Chart.WellFormed.trees_eq_of_mem (hw : chart.WellFormed)
    (hc : chart.cell? first last = some cell) {entry : Symbol × Array Tree} (he : entry ∈ cell) :
    entry.2 = chart.trees first last entry.1 := by
  rw [Chart.trees_of_cell? hc, Cell.trees_eq_of_mem (hw.ordered_cell hc) he]

theorem Filled.labelled (h : Filled g tokens chart first last) (hw : chart.WellFormed)
    (hc : chart.cell? first last = some cell) : cell.Labelled where
  ordered := hw.ordered_cell hc
  symbol_eq entry he tree hm := by
    rw [hw.trees_eq_of_mem hc he, Array.mem_toList_iff, h.mem_iff] at hm
    exact (Tree.isAt_eq_true_iff.1 hm.2).1
  nodup entry he := by
    rw [hw.trees_eq_of_mem hc he]
    exact h.nodup entry.1

/-- The spans that a span falls into when it is cut in two are filled. -/
structure PartsFilled (g : Grammar) (tokens : List Token) (chart : Chart) (first last : Nat) :
    Prop where
  left : ∀ middle, first ≤ middle → middle < last → Filled g tokens chart first middle
  right : ∀ middle, first ≤ middle → middle < last → Filled g tokens chart (middle + 1) last

theorem PartsFilled.exists_cells (h : PartsFilled g tokens chart first last)
    (hw : chart.WellFormed) (hl : last < chart.size) (hf : first ≤ middle) (hm : middle < last) :
    ∃ lefts rights, chart.cell? first middle = some lefts ∧
      chart.cell? (middle + 1) last = some rights ∧ lefts.Labelled ∧ rights.Labelled := by
  obtain ⟨lefts, hcl⟩ := hw.exists_cell hf (Nat.lt_trans hm hl)
  obtain ⟨rights, hcr⟩ := hw.exists_cell (Nat.succ_le_of_lt hm) hl
  exact ⟨lefts, rights, hcl, hcr, (h.left middle hf hm).labelled hw hcl,
    (h.right middle hf hm).labelled hw hcr⟩

namespace Parser

/-- The trees over a span whose left parts end at a position. -/
def treesCutAt (parser : Parser) (chart : Chart) (first last middle : Nat) : List Tree :=
  match chart.cell? first middle, chart.cell? (middle + 1) last with
  | some lefts, some rights => parser.branches lefts rights
  | _, _ => []

theorem treesOver_eq (parser : Parser) (chart : Chart) (first last : Nat) :
    parser.treesOver chart first last =
      (List.range' first (last - first)).flatMap (parser.treesCutAt chart first last) := rfl

theorem treesCutAt_of_cell? {parser : Parser} (hl : chart.cell? first middle = some lefts)
    (hr : chart.cell? (middle + 1) last = some rights) :
    parser.treesCutAt chart first last middle = parser.branches lefts rights := by
  rw [treesCutAt, hl, hr]

theorem mem_treesCutAt_iff (hw : chart.WellFormed) (hl : last < chart.size)
    (h : PartsFilled g tokens chart first last) (hf : first ≤ middle) (hm : middle < last) :
    tree ∈ (ofGrammar g).treesCutAt chart first last middle ↔ tree.DerivedBy g tokens ∧
      ∃ a left right, tree = .ofParts a left right ∧ left.first = first ∧ left.last = middle ∧
        right.last = last := by
  obtain ⟨lefts, rights, hcl, hcr, hll, hrl⟩ := h.exists_cells hw hl hf hm
  have hleft := (h.left middle hf hm).mem_iff
  have hright := (h.right middle hf hm).mem_iff
  rw [treesCutAt_of_cell? hcl hcr, mem_branches_iff hll.ordered hrl.ordered]
  simp only [Chart.trees_of_cell? hcl, Tree.isAt_eq_true_iff] at hleft
  simp only [Chart.trees_of_cell? hcr, Tree.isAt_eq_true_iff] at hright
  apply Iff.intro
  · intro ht
    obtain ⟨rule, hr, left, hlt, right, hrt, rfl⟩ := ht
    obtain ⟨hp, hn⟩ := mem_branchRules_iff.1 hr
    obtain ⟨hdl, hsl, hfl, hel⟩ := (hleft _ _).1 hlt
    obtain ⟨hdr, hsr, hfr, her⟩ := (hright _ _).1 hrt
    rw [← hsl, ← hsr] at hp hn
    exact ⟨.branch hdl hdr (by omega) hn hp, _, left, right, rfl, hfl, hel, her⟩
  · intro ht
    obtain ⟨hd, a, left, right, rfl, hfl, hel, her⟩ := ht
    obtain ⟨hdl, hdr, adjacent, nonterminals, rule⟩ := hd.parts
    have hr : ⟨a, left.symbol, right.symbol⟩ ∈ (ofGrammar g).branchRules :=
      mem_branchRules_iff.2 ⟨rule, nonterminals⟩
    have hlt := (hleft left.symbol left).2 ⟨hdl, rfl, hfl, hel⟩
    have hrt := (hright right.symbol right).2 ⟨hdr, rfl, by omega, her⟩
    exact ⟨_, hr, left, hlt, right, hrt, rfl⟩

theorem mem_treesOver_iff (hw : chart.WellFormed) (hl : last < chart.size)
    (h : PartsFilled g tokens chart first last) (hlt : first < last) :
    tree ∈ (ofGrammar g).treesOver chart first last ↔
      tree.DerivedBy g tokens ∧ tree.first = first ∧ tree.last = last := by
  rw [treesOver_eq, List.mem_flatMap]
  simp only [List.mem_range'_1]
  apply Iff.intro
  · intro hm
    obtain ⟨middle, hr, ht⟩ := hm
    rw [mem_treesCutAt_iff hw hl h (by omega) (by omega)] at ht
    obtain ⟨hd, a, left, right, rfl, hf, _, he⟩ := ht
    exact ⟨hd, hf, he⟩
  · intro ht
    obtain ⟨hd, hf, he⟩ := ht
    cases hd with
    | leaf =>
      rw [Tree.first_ofToken] at hf
      rw [Tree.last_ofToken] at he
      omega
    | @branch a left right hdl hdr adjacent nonterminals rule =>
      have hll := hdl.first_le_last
      have hrl := hdr.first_le_last
      rw [Tree.first_ofParts] at hf
      rw [Tree.last_ofParts] at he
      refine ⟨left.last, by omega, ?_⟩
      rw [mem_treesCutAt_iff hw hl h (by omega) (by omega)]
      exact ⟨.branch hdl hdr adjacent nonterminals rule, a, left, right, rfl, hf, rfl, he⟩

theorem nodup_treesOver (hn : g.productions.Nodup) (hw : chart.WellFormed)
    (hl : last < chart.size) (h : PartsFilled g tokens chart first last) :
    ((ofGrammar g).treesOver chart first last).Nodup := by
  rw [treesOver_eq]
  apply nodup_flatMap_of_injOn List.nodup_range'
  · intro middle hm
    rw [List.mem_range'_1] at hm
    obtain ⟨lefts, rights, hcl, hcr, hll, hrl⟩ := h.exists_cells hw hl hm.1 (by omega)
    rw [treesCutAt_of_cell? hcl hcr]
    exact nodup_branches (nodup_branchRules hn) hll hrl
  · intro middle hm middle' hm' tree ht ht'
    rw [List.mem_range'_1] at hm hm'
    rw [mem_treesCutAt_iff hw hl h (by omega) (by omega)] at ht ht'
    obtain ⟨_, _, _, _, rfl, _, hel, _⟩ := ht
    obtain ⟨_, _, _, _, he, _, hel', _⟩ := ht'
    obtain rfl := (Tree.ofParts_inj he).2.1
    exact hel.symm.trans hel'

end Parser

end PhraseGrammar
