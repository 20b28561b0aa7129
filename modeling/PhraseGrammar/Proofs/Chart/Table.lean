import PhraseGrammar.Chart.Table
import PhraseGrammar.Proofs.Chart.Triangle

namespace PhraseGrammar.Table

variable {table : Table} {tree : Tree} {trees : List Tree} {cell : Cell} {s : Symbol}
  {size first last index : Nat}

theorem toNat_cellCount (size : Nat) :
    (cellCount (.ofNat size)).toNat = size * (size + 1) % 2 ^ 64 / 2 := by
  have he : UInt64.ofNat size * (UInt64.ofNat size + 1) = .ofNat (size * (size + 1)) := by
    rw [UInt64.ofNat_mul, UInt64.ofNat_add]
    rfl
  rw [cellCount, UInt64.toNat_div, he, UInt64.toNat_ofNat']
  rfl

/-- Where neither the product nor the result is too great, words compute a place as numbers do. -/
theorem toNat_place (hf : first ≤ last) (hl : last < size)
    (hp : first * (2 * size + 1 - first) < 2 ^ 64)
    (hi : rowStart size first + (last - first) < 2 ^ 64) :
    (place (.ofNat size) (.ofNat first) (.ofNat last)).toNat =
      rowStart size first + (last - first) := by
  have hr : first ≤ 2 * size + 1 := by omega
  have he : place (.ofNat size) (.ofNat first) (.ofNat last) =
      .ofNat (rowStart size first + (last - first)) := by
    rw [rowStart, UInt64.ofNat_add, UInt64.ofNat_div hp (by decide), UInt64.ofNat_mul,
      UInt64.ofNat_sub hr, UInt64.ofNat_add, UInt64.ofNat_mul, UInt64.ofNat_sub hf]
    rfl
  rw [he, UInt64.toNat_ofNat_of_lt' hi]

/-- There is a cell for each span, and words are wide enough for their number. -/
structure Fits (table : Table) : Prop where
  wellFormed : table.toChart.WellFormed
  lt : table.size * (table.size + 1) < 2 ^ 64

theorem empty_eq (h : size * (size + 1) < 2 ^ 64) : empty size = ⟨Chart.empty size⟩ := by
  rw [empty, toNat_cellCount, Nat.mod_eq_of_lt h]
  rfl

theorem fits_empty (h : size * (size + 1) < 2 ^ 64) : (empty size).Fits := by
  rw [empty_eq h]
  exact ⟨Chart.wellFormed_empty size, h⟩

theorem Fits.place?_eq (h : table.Fits) :
    table.place? first last = table.toChart.index? first last := by
  rw [place?, Chart.index?]
  split
  · rename_i hs
    have hp := rowProduct_le (by omega : first ≤ table.size)
    have hi := Chart.index?_lt (Chart.index?_of_le hs.1 hs.2)
    have hb := h.lt
    rw [toNat_place hs.1 hs.2 (by omega) (by omega)]
    rfl
  · rfl

theorem Fits.lt_size_cells (h : table.Fits)
    (hi : table.toChart.index? first last = some index) : index < table.cells.size := by
  rw [h.wellFormed.size_cells]
  exact Chart.index?_lt hi

theorem Fits.cell?_eq (h : table.Fits) :
    table.cell? first last = .ok (table.toChart.cell? first last) := by
  rw [cell?, h.place?_eq, Chart.cell?]
  cases hi : table.toChart.index? first last with
  | none => rfl
  | some index =>
    have hc := Array.getElem?_eq_getElem (h.lt_size_cells hi)
    simp only [hc, Option.bind_some]

theorem Fits.trees_eq (h : table.Fits) :
    table.trees first last s = .ok (table.toChart.trees first last s) := by
  rw [Table.trees, h.cell?_eq, Chart.trees]
  cases table.toChart.cell? first last <;> rfl

theorem Fits.add_eq (h : table.Fits) (tree : Tree) :
    table.add tree = .ok ⟨table.toChart.add tree⟩ := by
  rw [add, h.place?_eq, Chart.add]
  cases hi : table.toChart.index? tree.first tree.last with
  | none => rfl
  | some index => exact if_pos (h.lt_size_cells hi)

theorem Fits.add (h : table.Fits) (tree : Tree) : Fits ⟨table.toChart.add tree⟩ := by
  refine ⟨h.wellFormed.add tree, ?_⟩
  rw [Chart.size_add]
  exact h.lt

/-- As long as words are wide enough, the table is the chart. -/
theorem Fits.addAll_eq (h : table.Fits) (trees : List Tree) :
    table.addAll trees = .ok ⟨trees.foldl Chart.add table.toChart⟩ := by
  induction trees generalizing table with
  | nil => rfl
  | cons tree trees ih =>
    rw [addAll, List.foldlM_cons, h.add_eq]
    exact ih (h.add tree)

theorem Fits.addAll (h : table.Fits) (trees : List Tree) :
    Fits ⟨trees.foldl Chart.add table.toChart⟩ := by
  refine ⟨h.wellFormed.addAll trees, ?_⟩
  rw [Chart.size_addAll]
  exact h.lt

/-- Spans and places are matched one to one, and there is a cell at each place. A place is computed
by subtractions that do not go below zero, and no number on the way is too great for a word. -/
structure Packed (table : Table) : Prop where
  isSome_iff : ∀ first last,
    (table.place? first last).isSome = true ↔ first ≤ last ∧ last < table.size
  lt_iff_existsUnique : ∀ index, index < table.size * (table.size + 1) / 2 ↔
    ∃! span : Nat × Nat, table.place? span.1 span.2 = some index
  cast_eq : ∀ first last index, table.place? first last = some index →
    (index : Int) = (first : Int) * (2 * table.size + 1 - first) / 2 + (last - first)
  le : ∀ first last index, table.place? first last = some index →
    first ≤ 2 * table.size + 1 ∧ first ≤ last
  lt : ∀ first last index, table.place? first last = some index →
    2 * table.size + 1 < 2 ^ 64 ∧ first * (2 * table.size + 1 - first) < 2 ^ 64 ∧ index < 2 ^ 64
  lt_size : ∀ first last index, table.place? first last = some index → index < table.cells.size

/-- A row's product is no greater than the one that tells the number of cells. -/
theorem Fits.lt_of_index? (h : table.Fits)
    (hi : table.toChart.index? first last = some index) :
    2 * table.size + 1 < 2 ^ 64 ∧ first * (2 * table.size + 1 - first) < 2 ^ 64 ∧
      index < 2 ^ 64 := by
  obtain ⟨hf, hl, _⟩ := Chart.index?_eq_some_iff.1 hi
  have hlt := Chart.index?_lt hi
  have hp := rowProduct_le (by omega : first ≤ table.size)
  have hb := h.lt
  refine ⟨?_, by omega, by omega⟩
  by_contra hn
  have hm : 2 * (table.size + 1) ≤ table.size * (table.size + 1) :=
    Nat.mul_le_mul_right _ (by omega)
  omega

theorem Fits.packed (h : table.Fits) : table.Packed where
  isSome_iff _ _ := by rw [h.place?_eq, Chart.isSome_index?_iff]
  lt_iff_existsUnique index := by
    simp only [h.place?_eq]
    exact Chart.lt_iff_existsUnique_index?
  cast_eq _ _ _ hi := Chart.cast_index? (h.place?_eq ▸ hi)
  le first last index hi := by
    obtain ⟨hf, hl, _⟩ := Chart.index?_eq_some_iff.1 (h.place?_eq ▸ hi)
    exact ⟨by omega, hf⟩
  lt _ _ _ hi := h.lt_of_index? (h.place?_eq ▸ hi)
  lt_size _ _ _ hi := h.lt_size_cells (h.place?_eq ▸ hi)

/-- If the product for the number of cells is not below a bound, some row is the first one whose
product is not. -/
theorem exists_last_row {bound : Nat} (hb : 0 < bound)
    (h : bound ≤ first * (2 * size + 1 - first)) :
    ∃ row < first, row * (2 * size + 1 - row) < bound ∧
      bound ≤ (row + 1) * (2 * size + 1 - (row + 1)) := by
  induction first with
  | zero => omega
  | succ row ih =>
    rcases Nat.lt_or_ge (row * (2 * size + 1 - row)) bound with hlt | hge
    · exact ⟨row, Nat.lt_succ_self row, hlt, h⟩
    · obtain ⟨row', hr, hp⟩ := ih hge
      exact ⟨row', Nat.lt_succ_of_lt hr, hp⟩

theorem cell?_empty_eq_error (hf : first ≤ last) (hl : last < size)
    (hp : (place (.ofNat size) (.ofNat first) (.ofNat last)).toNat = index)
    (hi : 2 ^ 63 ≤ index + 1) : (empty size).cell? first last = .error ⟨index⟩ := by
  have hc : (empty size).cells.size = size * (size + 1) % 2 ^ 64 / 2 := by
    rw [empty, Array.size_replicate, toNat_cellCount]
  have hn : (empty size).cells[index]? = none := by
    apply Array.getElem?_eq_none
    rw [hc]
    omega
  have hs : (empty size).place? first last = some index := by
    rw [place?, if_pos ⟨hf, hl⟩]
    exact congrArg some hp
  rw [cell?, hs]
  simp only [hn]

/-- Where words are too narrow for the number of cells, a span has its place behind the last one. -/
theorem exists_cell?_eq_error (hs : size < 2 ^ 64) (h : 2 ^ 64 ≤ size * (size + 1)) :
    ∃ first last index, first ≤ last ∧ last < size ∧
      (empty size).cell? first last = .error ⟨index⟩ := by
  rcases Nat.lt_or_ge size (2 ^ 63) with hlt | hge
  · have hr : 2 ^ 64 ≤ size * (2 * size + 1 - size) := by
      rwa [show 2 * size + 1 - size = size + 1 by omega]
    obtain ⟨row, hrow, hp, hn⟩ := exists_last_row (by omega) hr
    have hnext : rowStart size row + (size - row) = rowStart size (row + 1) :=
      (rowStart_succ (Nat.le_of_lt hrow)).symm
    have hge : 2 ^ 63 ≤ rowStart size (row + 1) := by
      rw [rowStart]
      omega
    have hlow : rowStart size row < 2 ^ 63 := by
      rw [rowStart]
      omega
    refine ⟨row, size - 1, rowStart size row + (size - 1 - row), by omega, by omega, ?_⟩
    apply cell?_empty_eq_error (by omega) (by omega) _ (by omega)
    exact toNat_place (by omega) (by omega) hp (by omega)
  · -- The first row alone has more spans than there are cells.
    refine ⟨0, size - 1, size - 1, by omega, by omega, ?_⟩
    apply cell?_empty_eq_error (by omega) (by omega) _ (by omega)
    rw [toNat_place (by omega) (by omega) (by omega) (by simp [rowStart]; omega)]
    simp [rowStart]

theorem in_bounds_iff (hs : size < 2 ^ 64) :
    (∀ first last, first ≤ last → last < size →
      ∃ cell, (empty size).cell? first last = .ok (some cell)) ↔ size * (size + 1) < 2 ^ 64 := by
  apply Iff.intro
  · intro hc
    by_contra hn
    obtain ⟨first, last, index, hf, hl, he⟩ := exists_cell?_eq_error hs (Nat.le_of_not_lt hn)
    obtain ⟨cell, h⟩ := hc first last hf hl
    rw [he] at h
    cases h
  · intro h first last hf hl
    have hb := fits_empty h
    obtain ⟨cell, hc⟩ := hb.wellFormed.exists_cell hf hl
    exact ⟨cell, by rw [hb.cell?_eq, hc]⟩

/-- Of the trees that were put into a table, those inside the sentence can be looked up by their
span and their symbol, in the order in which they were put in, and no others. -/
structure Keeps (table : Table) (size : Nat) (trees : List Tree) : Prop where
  size_eq : table.size = size
  isSome_iff : ∀ first last, ∃ found, table.cell? first last = .ok found ∧
    (found.isSome = true ↔ first ≤ last ∧ last < size)
  trees_eq : ∀ first last s, first ≤ last → last < size → ∃ found,
    table.trees first last s = .ok found ∧ found.toList = trees.filter (·.isAt first last s)
  mem_symbols_iff : ∀ first last cell, table.cell? first last = .ok (some cell) →
    ∀ s, s ∈ cell.map (·.1) ↔ trees.filter (·.isAt first last s) ≠ []
  trees_outside : ∀ first last, ¬(first ≤ last ∧ last < size) →
    ∀ s, table.trees first last s = .ok #[]
  add_outside : ∀ tree : Tree, ¬(tree.first ≤ tree.last ∧ tree.last < size) →
    table.add tree = .ok table

theorem keeps_addAll (h : size * (size + 1) < 2 ^ 64) (trees : List Tree) :
    Keeps ⟨trees.foldl Chart.add (.empty size)⟩ size trees := by
  have hb := fits_empty h
  rw [empty_eq h] at hb
  have ht : Fits ⟨trees.foldl Chart.add (.empty size)⟩ := hb.addAll trees
  have hs : (trees.foldl Chart.add (.empty size)).size = size := Chart.size_addAll _ trees
  refine ⟨hs, ?_, ?_, ?_, ?_, ?_⟩
  · intro first last
    have hc : ((trees.foldl Chart.add (.empty size)).cell? first last).isSome = true ↔ _ :=
      Chart.isSome_cell?_iff ht.wellFormed
    rw [hs] at hc
    exact ⟨_, ht.cell?_eq, hc⟩
  · intro first last s hf hl
    exact ⟨_, ht.trees_eq, Chart.trees_addAll_empty hf hl⟩
  · intro first last cell hc s
    rw [ht.cell?_eq] at hc
    exact Chart.mem_symbols_addAll_iff (Except.ok.inj hc)
  · intro first last hn s
    rw [← hs] at hn
    rw [ht.trees_eq, Chart.trees_of_not_span hn]
  · intro tree hn
    rw [← hs] at hn
    rw [ht.add_eq, Chart.add_of_not_span hn]

/-- A table is of use just when the product that tells the number of its cells is not too great for
a word. Then it keeps any trees that are put into it, and no two spans share a cell. -/
theorem lookup_addAll (size : Nat) (hs : size < 2 ^ 64) :
    ((∀ first last, first ≤ last → last < size →
      ∃ cell, (empty size).cell? first last = .ok (some cell)) ↔ size * (size + 1) < 2 ^ 64) ∧
    (size * (size + 1) < 2 ^ 64 → ∀ trees : List Tree, ∃ table,
      (empty size).addAll trees = .ok table ∧ table.Keeps size trees ∧ table.Packed) := by
  refine ⟨in_bounds_iff hs, ?_⟩
  intro h trees
  have hb := fits_empty h
  rw [empty_eq h] at hb ⊢
  exact ⟨_, hb.addAll_eq trees, keeps_addAll h trees, (hb.addAll trees).packed⟩

/-- One more than the number of tokens is zero, so that there is no cell for any of them. -/
theorem cell?_empty_of_greatest_word :
    (empty (2 ^ 64 - 1)).cells = #[] ∧ (empty (2 ^ 64 - 1)).cell? 0 0 = .error ⟨0⟩ :=
  ⟨rfl, rfl⟩

/-- Two trees over one token, one that ends before it begins, and one outside the sentence. -/
def scatteredTrees : List Tree :=
  [.leaf "NP" 1 1 "she", .leaf "NP" 1 0 "she", .leaf "NP" 0 2 "she", .leaf "V" 1 1 "she",
  .branch "NP" 1 1 (.leaf "V" 0 0 "eats") (.leaf "NP" 0 0 "she")]

theorem lookup_scattered : 2 < 2 ^ 64 ∧ 2 * (2 + 1) < 2 ^ 64 ∧ ∃ table,
    (empty 2).addAll scatteredTrees = .ok table ∧
    (∃ found, table.trees 1 1 "NP" = .ok found ∧ found.toList = [.leaf "NP" 1 1 "she",
      .branch "NP" 1 1 (.leaf "V" 0 0 "eats") (.leaf "NP" 0 0 "she")]) ∧
    (∃ found, table.trees 0 1 "NP" = .ok found ∧ found.toList = []) ∧
    table.trees 1 0 "NP" = .ok #[] ∧ table.trees 0 2 "NP" = .ok #[] ∧
    (∃! span : Nat × Nat, table.place? span.1 span.2 = some 2) := by
  obtain ⟨_, hk⟩ := lookup_addAll 2 (by decide)
  obtain ⟨table, ha, hk, hp⟩ := hk (by decide) scatteredTrees
  have hu := (hp.lt_iff_existsUnique 2).1
  rw [hk.size_eq] at hu
  exact ⟨by decide, by decide, table, ha, hk.trees_eq 1 1 "NP" (by decide) (by decide),
    hk.trees_eq 0 1 "NP" (by decide) (by decide), hk.trees_outside 1 0 (by decide) "NP",
    hk.trees_outside 0 2 (by decide) "NP", hu (by decide)⟩

end PhraseGrammar.Table
