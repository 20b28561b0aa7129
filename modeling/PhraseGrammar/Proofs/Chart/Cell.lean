import PhraseGrammar.Chart.Basic

namespace PhraseGrammar.Cell

/-- The symbols of a cell increase, and each of them has a tree. -/
structure Ordered (cell : Cell) : Prop where
  increasing : (cell.map (·.1)).Pairwise (· < ·)
  nonempty : ∀ entry ∈ cell, entry.2 ≠ #[]

variable {cell : Cell} {s : Symbol} {tree : Tree} {entry : Symbol × Array Tree}

theorem ordered_nil : Ordered [] where
  increasing := .nil
  nonempty _ h := absurd h List.not_mem_nil

@[simp]
theorem trees_nil : trees [] s = #[] := rfl

theorem trees_cons : trees (entry :: cell) s = if s = entry.1 then entry.2 else trees cell s := by
  rw [trees, List.lookup_cons]
  by_cases h : s = entry.1
  · rw [if_pos h, beq_iff_eq.2 h]
    rfl
  · rw [if_neg h, beq_eq_false_iff_ne.2 h]
    rfl

theorem trees_of_lt (h : ∀ t ∈ cell.map (·.1), s < t) : trees cell s = #[] := by
  induction cell with
  | nil => rfl
  | cons entry cell ih =>
    rw [List.map_cons, List.forall_mem_cons] at h
    rw [trees_cons, if_neg, ih h.2]
    intro he
    exact String.lt_irrefl _ (he ▸ h.1)

theorem mem_map_add_iff : s ∈ (add tree cell).map (·.1) ↔
    s = tree.symbol ∨ s ∈ cell.map (·.1) := by
  induction cell with
  | nil => simp [add]
  | cons entry cell ih =>
    rw [add]
    split
    · simp
    · split
      · rename_i he
        simp [he]
      · simp only [List.map_cons, List.mem_cons, ih]
        exact or_left_comm

theorem nonempty_add (h : ∀ entry ∈ cell, entry.2 ≠ #[]) :
    ∀ entry ∈ add tree cell, entry.2 ≠ #[] := by
  induction cell with
  | nil => simp [add]
  | cons entry cell ih =>
    rw [List.forall_mem_cons] at h
    rw [add]
    split
    · simpa using h
    · split
      · simpa using h.2
      · exact List.forall_mem_cons.2 ⟨h.1, ih h.2⟩

theorem increasing_add (h : (cell.map (·.1)).Pairwise (· < ·)) :
    ((add tree cell).map (·.1)).Pairwise (· < ·) := by
  induction cell with
  | nil => exact List.pairwise_singleton _ _
  | cons entry cell ih =>
    have hc := List.pairwise_cons.1 h
    rw [add]
    split
    · rename_i hlt
      apply List.pairwise_cons.2 ⟨List.forall_mem_cons.2 ⟨hlt, ?_⟩, h⟩
      intro t ht
      exact String.lt_trans hlt (hc.1 t ht)
    · split
      · exact h
      · rename_i hge hne
        apply List.pairwise_cons.2 ⟨?_, ih hc.2⟩
        intro t ht
        rcases mem_map_add_iff.1 ht with rfl | ht
        · exact Std.lt_of_le_of_ne (Std.not_lt.1 hge) (Ne.symm hne)
        · exact hc.1 t ht

theorem Ordered.add (h : cell.Ordered) (tree : Tree) : (add tree cell).Ordered :=
  ⟨increasing_add h.increasing, nonempty_add h.nonempty⟩

theorem Ordered.tail (h : Ordered (entry :: cell)) : cell.Ordered where
  increasing := (List.pairwise_cons.1 h.increasing).2
  nonempty other hm := h.nonempty other (List.mem_cons_of_mem _ hm)

theorem Ordered.lt (h : Ordered (entry :: cell)) : ∀ t ∈ cell.map (·.1), entry.1 < t :=
  (List.pairwise_cons.1 h.increasing).1

/-- The new tree comes last among the trees of its symbol, and no other symbol is concerned. -/
theorem trees_add (h : cell.Ordered) : trees (add tree cell) s =
    if s = tree.symbol then (trees cell s).push tree else trees cell s := by
  induction cell with
  | nil => simp [add, trees_cons]
  | cons entry cell ih =>
    have hf := h.lt
    rw [add]
    split
    · rename_i hlt
      rw [trees_cons]
      split
      · rename_i hs
        have ht : ∀ t ∈ (entry :: cell).map (·.1), s < t := by
          rw [hs]
          apply List.forall_mem_cons.2 ⟨hlt, ?_⟩
          intro t ht
          exact String.lt_trans hlt (hf t ht)
        rw [trees_of_lt ht]
        rfl
      · rfl
    · split
      · rename_i he
        rw [trees_cons, trees_cons, he]
        split <;> rfl
      · rename_i hne
        rw [trees_cons, trees_cons, ih h.tail]
        grind

theorem trees_eq_of_mem (h : cell.Ordered) (hm : entry ∈ cell) : trees cell entry.1 = entry.2 := by
  induction cell with
  | nil => cases hm
  | cons first cell ih =>
    rw [trees_cons]
    rcases List.mem_cons.1 hm with rfl | hm
    · rw [if_pos rfl]
    · rw [if_neg, ih h.tail hm]
      intro he
      exact String.lt_irrefl _ (he ▸ h.lt entry.1 (List.mem_map_of_mem hm))

theorem mem_of_trees_ne (h : trees cell s ≠ #[]) : (s, trees cell s) ∈ cell := by
  induction cell with
  | nil => exact absurd trees_nil h
  | cons entry cell ih =>
    rw [trees_cons] at h ⊢
    split
    · rename_i hs
      rw [hs]
      exact List.mem_cons_self
    · rename_i hs
      rw [if_neg hs] at h
      exact List.mem_cons_of_mem _ (ih h)

theorem mem_map_iff (h : cell.Ordered) : s ∈ cell.map (·.1) ↔ ∃ tree, tree ∈ trees cell s := by
  apply Iff.intro
  · intro hm
    obtain ⟨entry, he, rfl⟩ := List.mem_map.1 hm
    rw [trees_eq_of_mem h he]
    exact Array.exists_mem_of_ne_empty _ (h.nonempty entry he)
  · intro hm
    obtain ⟨tree, ht⟩ := hm
    exact List.mem_map.2 ⟨_, mem_of_trees_ne (Array.ne_empty_of_mem ht), rfl⟩

end PhraseGrammar.Cell
