import Mathlib.Tactic.Ring
import PhraseGrammar.Proofs.Chart.Cell

namespace PhraseGrammar

/-- The number of cells before a row. -/
def rowStart (size first : Nat) : Nat :=
  first * (2 * size + 1 - first) / 2

theorem rowStart_succ {size first : Nat} (h : first ≤ size) :
    rowStart size (first + 1) = rowStart size first + (size - first) := by
  obtain ⟨rest, rfl⟩ := Nat.exists_eq_add_of_le h
  have hl : 2 * (first + rest) + 1 - (first + 1) = first + 2 * rest := by omega
  have hr : 2 * (first + rest) + 1 - first = first + 2 * rest + 1 := by omega
  have hm : (first + 1) * (first + 2 * rest) = first * (first + 2 * rest + 1) + 2 * rest := by ring
  rw [rowStart, rowStart, hl, hr, hm, Nat.add_mul_div_left _ _ Nat.zero_lt_two]
  omega

theorem rowStart_size (size : Nat) : rowStart size size = size * (size + 1) / 2 := by
  have h : 2 * size + 1 - size = size + 1 := by omega
  rw [rowStart, h]

theorem rowStart_add_le {size first first' : Nat} (hlt : first < first') (hle : first' ≤ size) :
    rowStart size first + (size - first) ≤ rowStart size first' := by
  induction first' with
  | zero => omega
  | succ middle ih =>
    have hs := rowStart_succ (Nat.le_of_succ_le hle)
    rcases Nat.eq_or_lt_of_le (Nat.le_of_lt_succ hlt) with rfl | hm
    · omega
    · have hr := ih hm (by omega)
      omega

namespace Chart

/-- There is a cell for each span, and its symbols are in order. -/
structure WellFormed (chart : Chart) : Prop where
  size_cells : chart.cells.size = chart.size * (chart.size + 1) / 2
  ordered : ∀ cell ∈ chart.cells, cell.Ordered

variable {chart : Chart} {first last first' last' index : Nat} {s : Symbol} {tree : Tree}
  {cell : Cell}

theorem index?_eq_some_iff : chart.index? first last = some index ↔
    first ≤ last ∧ last < chart.size ∧ rowStart chart.size first + (last - first) = index := by
  rw [index?]
  split
  · rename_i h
    rw [Option.some_inj]
    exact ⟨fun he => ⟨h.1, h.2, he⟩, fun he => he.2.2⟩
  · rename_i h
    apply iff_of_false (by simp)
    intro he
    exact h ⟨he.1, he.2.1⟩

theorem index?_of_le (hf : first ≤ last) (hl : last < chart.size) :
    chart.index? first last = some (rowStart chart.size first + (last - first)) :=
  index?_eq_some_iff.2 ⟨hf, hl, rfl⟩

theorem index?_lt (h : chart.index? first last = some index) :
    index < chart.size * (chart.size + 1) / 2 := by
  obtain ⟨hf, hl, rfl⟩ := index?_eq_some_iff.1 h
  have hr := rowStart_add_le (Nat.lt_of_le_of_lt hf hl) (Nat.le_refl chart.size)
  rw [rowStart_size] at hr
  omega

/-- No two spans share a cell. -/
theorem index?_injective (h : chart.index? first last = some index)
    (h' : chart.index? first' last' = some index) : first = first' ∧ last = last' := by
  obtain ⟨hf, hl, rfl⟩ := index?_eq_some_iff.1 h
  obtain ⟨hf', hl', he⟩ := index?_eq_some_iff.1 h'
  rcases Nat.lt_trichotomy first first' with hlt | rfl | hlt
  · have hr := rowStart_add_le hlt (by omega : first' ≤ chart.size)
    omega
  · omega
  · have hr := rowStart_add_le hlt (by omega : first ≤ chart.size)
    omega

theorem cell?_eq_some_iff : chart.cell? first last = some cell ↔
    ∃ index, chart.index? first last = some index ∧ chart.cells[index]? = some cell :=
  Option.bind_eq_some_iff

theorem WellFormed.exists_cell (hw : chart.WellFormed) (hf : first ≤ last)
    (hl : last < chart.size) : ∃ cell, chart.cell? first last = some cell := by
  have hi := index?_of_le hf hl
  have hlt := index?_lt hi
  rw [← hw.size_cells] at hlt
  exact ⟨_, cell?_eq_some_iff.2 ⟨_, hi, Array.getElem?_eq_getElem hlt⟩⟩

theorem WellFormed.ordered_cell (hw : chart.WellFormed) (h : chart.cell? first last = some cell) :
    cell.Ordered := by
  obtain ⟨_, _, hc⟩ := cell?_eq_some_iff.1 h
  exact hw.ordered cell (Array.mem_of_getElem? hc)

theorem trees_of_cell? (h : chart.cell? first last = some cell) :
    chart.trees first last s = cell.trees s := by
  rw [trees, h]

theorem wellFormed_empty (size : Nat) : (empty size).WellFormed where
  size_cells := Array.size_replicate
  ordered cell hm := by
    rw [(Array.mem_replicate.1 hm).2]
    exact Cell.ordered_nil

theorem trees_empty {size : Nat} : (empty size).trees first last s = #[] := by
  rw [trees]
  split
  · rfl
  · rename_i cell h
    obtain ⟨_, _, hc⟩ := cell?_eq_some_iff.1 h
    rw [(Array.mem_replicate.1 (Array.mem_of_getElem? hc)).2]
    rfl

theorem WellFormed.add (hw : chart.WellFormed) (tree : Tree) : (chart.add tree).WellFormed := by
  rw [Chart.add]
  split
  · exact hw
  · refine ⟨?_, ?_⟩
    · rw [Array.size_modify]
      exact hw.size_cells
    · intro cell hm
      obtain ⟨index, hi, rfl⟩ := Array.mem_iff_getElem.1 hm
      rw [Array.getElem_modify]
      rw [Array.size_modify] at hi
      have ho := hw.ordered chart.cells[index] (Array.getElem_mem hi)
      split
      · exact ho.add tree
      · exact ho

@[simp]
theorem index?_add : (chart.add tree).index? first last = chart.index? first last := by
  rw [index?, index?, size_add]

/-- Only the cell of the new tree's span changes. -/
theorem cell?_add : (chart.add tree).cell? first last =
    if tree.first = first ∧ tree.last = last then (chart.cell? first last).map (Cell.add tree)
    else chart.cell? first last := by
  rw [cell?, cell?, index?_add]
  cases hi : chart.index? first last with
  | none => simp
  | some index =>
    rw [Chart.add]
    cases ht : chart.index? tree.first tree.last with
    | none =>
      rw [if_neg]
      intro h
      rw [h.1, h.2, hi] at ht
      cases ht
    | some index' =>
      by_cases h : tree.first = first ∧ tree.last = last
      · rw [if_pos h]
        rw [h.1, h.2, hi] at ht
        cases ht
        simp [Array.getElem?_modify]
      · rw [if_neg h]
        have hne : index' ≠ index := by
          rintro rfl
          exact h (index?_injective ht hi)
        simp [Array.getElem?_modify, hne]

end Chart

/-- The tree belongs to a symbol over a span. -/
def Tree.isAt (first last : Nat) (s : Symbol) (tree : Tree) : Bool :=
  tree.first == first && tree.last == last && tree.symbol == s

theorem Tree.isAt_eq_true_iff {first last : Nat} {s : Symbol} {tree : Tree} :
    tree.isAt first last s = true ↔ tree.symbol = s ∧ tree.first = first ∧ tree.last = last := by
  simp only [isAt, Bool.and_eq_true, beq_iff_eq]
  exact and_comm

namespace Chart

variable {chart : Chart} {first last : Nat} {s : Symbol}

theorem trees_add (hw : chart.WellFormed) (hf : first ≤ last) (hl : last < chart.size)
    (tree : Tree) : ((chart.add tree).trees first last s).toList =
      (chart.trees first last s).toList ++ [tree].filter (·.isAt first last s) := by
  obtain ⟨cell, hc⟩ := hw.exists_cell hf hl
  have ha : (chart.add tree).cell? first last = _ := cell?_add
  rw [hc] at ha
  by_cases hs : tree.first = first ∧ tree.last = last
  · rw [if_pos hs] at ha
    rw [trees_of_cell? ha, trees_of_cell? hc, Cell.trees_add (hw.ordered_cell hc)]
    split
    · rename_i he
      have hi := Tree.isAt_eq_true_iff.2 ⟨he.symm, hs⟩
      rw [List.filter_cons_of_pos hi, Array.toList_push]
      rfl
    · rename_i hne
      have hi : ¬tree.isAt first last s = true := fun h =>
        hne (Tree.isAt_eq_true_iff.1 h).1.symm
      rw [List.filter_cons_of_neg hi, List.filter_nil, List.append_nil]
  · have hi : ¬tree.isAt first last s = true := fun h => hs (Tree.isAt_eq_true_iff.1 h).2
    rw [if_neg hs] at ha
    rw [trees_of_cell? ha, trees_of_cell? hc, List.filter_cons_of_neg hi, List.filter_nil,
      List.append_nil]

theorem WellFormed.addAll (hw : chart.WellFormed) (trees : List Tree) :
    (trees.foldl Chart.add chart).WellFormed := by
  induction trees generalizing chart with
  | nil => exact hw
  | cons tree trees ih => exact ih (hw.add tree)

@[simp]
theorem size_addAll (chart : Chart) (trees : List Tree) :
    (trees.foldl add chart).size = chart.size := by
  induction trees generalizing chart with
  | nil => rfl
  | cons tree trees ih => rw [List.foldl_cons, ih, size_add]

/-- New trees come after the trees that were there, in the order in which they are put in. -/
theorem trees_addAll (hw : chart.WellFormed) (hf : first ≤ last) (hl : last < chart.size)
    (trees : List Tree) : ((trees.foldl add chart).trees first last s).toList =
      (chart.trees first last s).toList ++ trees.filter (·.isAt first last s) := by
  induction trees generalizing chart with
  | nil => simp
  | cons tree trees ih =>
    have hl' : last < (chart.add tree).size := by rwa [size_add]
    rw [List.foldl_cons, ih (hw.add tree) hl', trees_add hw hf hl, List.append_assoc,
      ← List.filter_append, List.singleton_append]

end Chart

end PhraseGrammar
