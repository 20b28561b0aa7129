import PhraseGrammar.Proofs.Chart.Placement
import PhraseGrammar.Proofs.Chart.Sorted

namespace PhraseGrammar

variable {size first last index : Nat}

theorem exists_row (h : first ≤ size) (hi : index < rowStart size first) :
    ∃ row < first, rowStart size row ≤ index ∧ index < rowStart size row + (size - row) := by
  induction first with
  | zero => simp [rowStart] at hi
  | succ row ih =>
    rcases Nat.lt_or_ge index (rowStart size row) with hlt | hge
    · obtain ⟨row', hr, hb⟩ := ih (Nat.le_of_succ_le h) hlt
      exact ⟨row', Nat.lt_succ_of_lt hr, hb⟩
    · rw [rowStart_succ (Nat.le_of_succ_le h)] at hi
      exact ⟨row, Nat.lt_succ_self row, hge, hi⟩

/-- The product that tells the number of cells is the greatest that is formed for a row. -/
theorem rowProduct_le (h : first ≤ size) :
    first * (2 * size + 1 - first) ≤ size * (size + 1) := by
  obtain ⟨rest, rfl⟩ := Nat.exists_eq_add_of_le h
  have hd : 2 * (first + rest) + 1 - first = first + 2 * rest + 1 := by omega
  have hm : (first + rest) * (first + rest + 1) =
      first * (first + 2 * rest + 1) + rest * (rest + 1) := by ring
  rw [hd, hm]
  exact Nat.le_add_right _ _

namespace Chart

variable {chart : Chart} {tree : Tree} {trees : List Tree} {s : Symbol} {cell : Cell}

theorem isSome_index?_iff :
    (chart.index? first last).isSome = true ↔ first ≤ last ∧ last < chart.size := by
  simp only [Option.isSome_iff_exists, index?_eq_some_iff]
  apply Iff.intro
  · rintro ⟨_, hf, hl, _⟩
    exact ⟨hf, hl⟩
  · rintro ⟨hf, hl⟩
    exact ⟨_, hf, hl, rfl⟩

theorem exists_span (h : index < chart.size * (chart.size + 1) / 2) :
    ∃ first last, chart.index? first last = some index := by
  rw [← rowStart_size] at h
  obtain ⟨row, hr, hs, he⟩ := exists_row (Nat.le_refl _) h
  refine ⟨row, row + (index - rowStart chart.size row), index?_eq_some_iff.2 ⟨?_, ?_, ?_⟩⟩ <;> omega

theorem lt_iff_existsUnique_index? : index < chart.size * (chart.size + 1) / 2 ↔
    ∃! span : Nat × Nat, chart.index? span.1 span.2 = some index := by
  apply Iff.intro
  · intro h
    obtain ⟨first, last, hi⟩ := exists_span h
    refine ⟨(first, last), hi, ?_⟩
    intro span hs
    obtain ⟨hf, hl⟩ := index?_injective hs hi
    exact Prod.ext hf hl
  · intro h
    obtain ⟨_, hi, _⟩ := h
    exact index?_lt hi

theorem cast_index? (h : chart.index? first last = some index) :
    (index : Int) = (first : Int) * (2 * chart.size + 1 - first) / 2 + (last - first) := by
  obtain ⟨hf, hl, rfl⟩ := index?_eq_some_iff.1 h
  have hr : first ≤ 2 * chart.size + 1 := by omega
  -- No subtraction is cut off at zero, so that each can be cast.
  rw [rowStart]
  push_cast [Nat.cast_sub hf, Nat.cast_sub hr]
  rfl

theorem isSome_cell?_iff (hw : chart.WellFormed) :
    (chart.cell? first last).isSome = true ↔ first ≤ last ∧ last < chart.size := by
  apply Iff.intro
  · intro h
    obtain ⟨cell, hc⟩ := Option.isSome_iff_exists.1 h
    obtain ⟨_, hi, _⟩ := cell?_eq_some_iff.1 hc
    exact isSome_index?_iff.1 (Option.isSome_iff_exists.2 ⟨_, hi⟩)
  · rintro ⟨hf, hl⟩
    exact Option.isSome_iff_exists.2 (hw.exists_cell hf hl)

theorem add_of_not_span (h : ¬(tree.first ≤ tree.last ∧ tree.last < chart.size)) :
    chart.add tree = chart := by
  rw [add, index?, if_neg h]

theorem trees_addAll_empty (hf : first ≤ last) (hl : last < size) :
    ((trees.foldl add (empty size)).trees first last s).toList =
      trees.filter (·.isAt first last s) := by
  rw [trees_addAll (wellFormed_empty size) hf hl, trees_empty]
  rfl

theorem mem_symbols_addAll_iff (h : (trees.foldl add (empty size)).cell? first last = some cell) :
    s ∈ cell.map (·.1) ↔ trees.filter (·.isAt first last s) ≠ [] := by
  have hw : (trees.foldl add (empty size)).WellFormed := (wellFormed_empty size).addAll trees
  obtain ⟨hf, hl⟩ := (isSome_cell?_iff hw).1 (Option.isSome_iff_exists.2 ⟨cell, h⟩)
  rw [size_addAll] at hl
  rw [Cell.mem_map_iff (hw.ordered_cell h), ← trees_of_cell? h, ← trees_addAll_empty hf hl]
  simp only [← Array.mem_toList_iff]
  apply Iff.intro
  · intro hm
    obtain ⟨_, hm⟩ := hm
    exact List.ne_nil_of_mem hm
  · exact List.exists_mem_of_ne_nil _

end Chart

end PhraseGrammar
