import Mathlib.Data.List.Sort
import PhraseGrammar.Ascending

namespace PhraseGrammar

variable {α : Type} [DecidableEq α] [LT α] [DecidableLT α] {x : α}
  {left right elements : List α} {lists : List (List α)}

/-- Each element comes before all that follow it. -/
abbrev Ascending (elements : List α) : Prop :=
  elements.Pairwise (· < ·)

variable [Trans (α := α) (· < ·) (· < ·) (· < ·)] [Std.Trichotomous (α := α) (· < ·)]

theorem ascending_insertThen {merge : List α → List α} (hx : ∀ z ∈ left, x < z)
    (hm : ∀ elements z, z ∈ merge elements ↔ z ∈ left ∨ z ∈ elements)
    (ha : ∀ elements, Ascending elements → Ascending (merge elements))
    (h : Ascending elements) : Ascending (insertThen merge x elements) := by
  induction elements with
  | nil =>
    rw [insertThen]
    refine List.pairwise_cons.2 ⟨?_, ha [] .nil⟩
    intro z hz
    exact hx z (((hm [] z).1 hz).resolve_right List.not_mem_nil)
  | cons y elements ih =>
    obtain ⟨hy, hr⟩ := List.pairwise_cons.1 h
    rw [insertThen]
    split
    · rename_i hlt
      refine List.pairwise_cons.2 ⟨?_, ha _ h⟩
      intro z hz
      rcases (hm _ z).1 hz with hz | hz
      · exact hx z hz
      · rcases List.mem_cons.1 hz with rfl | hz
        · exact hlt
        · exact Trans.trans hlt (hy z hz)
    · rename_i hnlt
      split
      · rename_i he
        refine List.pairwise_cons.2 ⟨?_, ha _ hr⟩
        intro z hz
        rcases (hm _ z).1 hz with hz | hz
        · exact hx z hz
        · exact he ▸ hy z hz
      · rename_i hne
        have hlt : y < x := Decidable.byContradiction fun hn =>
          hne (Std.Trichotomous.trichotomous x y hnlt hn)
        refine List.pairwise_cons.2 ⟨?_, ih hr⟩
        intro z hz
        rcases (mem_insertThen (fun elements => hm elements z) elements).1 hz with rfl | hz | hz
        · exact hlt
        · exact Trans.trans hlt (hx z hz)
        · exact hy z hz

theorem ascending_mergeAscending (hl : Ascending left) (hr : Ascending right) :
    Ascending (mergeAscending left right) := by
  induction left generalizing right with
  | nil => exact hr
  | cons x left ih =>
    obtain ⟨hx, hl⟩ := List.pairwise_cons.1 hl
    exact ascending_insertThen hx (fun _ _ => mem_mergeAscending) (fun _ => ih hl) hr

theorem ascending_mergeAll (h : ∀ list ∈ lists, Ascending list) : Ascending (mergeAll lists) := by
  induction lists with
  | nil => exact .nil
  | cons list lists ih =>
    rw [List.forall_mem_cons] at h
    exact ascending_mergeAscending h.1 (ih h.2)

variable [Std.Asymm (α := α) (· < ·)]

theorem mergeAscending_eq_right (hl : Ascending left) (hr : Ascending right)
    (h : ∀ z ∈ left, z ∈ right) : mergeAscending left right = right := by
  apply List.Pairwise.eq_of_mem_iff (ascending_mergeAscending hl hr) hr
  intro z
  rw [mem_mergeAscending, or_iff_right_of_imp (h z)]

end PhraseGrammar
