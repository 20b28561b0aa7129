import Std.Data.TreeSet

namespace PhraseGrammar

variable {α : Type} [DecidableEq α]

theorem nodup_eraseDups (elements : List α) : elements.eraseDups.Nodup := by
  match elements with
  | [] => simp
  | x :: rest =>
    rw [List.eraseDups_cons, List.nodup_cons]
    exact ⟨by simp [List.mem_eraseDups], nodup_eraseDups _⟩
termination_by elements.length
decreasing_by
  simp only [List.length_cons]
  exact Nat.lt_succ_of_le (List.length_filter_le _ _)

variable [Ord α]

/-- Leaves out the elements that have been seen, in the given set or earlier in the list. -/
def keepUnseen (seen : Std.TreeSet α compare) : List α → List α
  | [] => []
  | x :: rest =>
    if seen.contains x then keepUnseen seen rest else x :: keepUnseen (seen.insert x) rest

/-- The elements of a list, of which only the first of several equal ones is kept. -/
def distinct (elements : List α) : List α :=
  keepUnseen ∅ elements

variable [Std.TransOrd α] [Std.LawfulEqOrd α]

theorem keepUnseen_eq_eraseDups {seen : Std.TreeSet α compare} {elements : List α} :
    keepUnseen seen elements = (elements.filter (!seen.contains ·)).eraseDups := by
  induction elements generalizing seen with
  | nil => simp [keepUnseen]
  | cons x rest ih =>
    rw [keepUnseen]
    split
    · rename_i hx
      rw [List.filter_cons_of_neg (by simp [hx]), ih]
    · rename_i hx
      rw [List.filter_cons_of_pos (by rw [eq_false_of_ne_true hx]; rfl),
        List.eraseDups_cons, List.filter_filter, ih]
      congr 2
      refine List.filter_congr fun y _ => ?_
      rw [Std.TreeSet.contains_insert, Bool.not_or]
      congr 2
      rw [Bool.eq_iff_iff, beq_iff_eq, beq_iff_eq, Std.LawfulEqCmp.compare_eq_iff_eq, eq_comm]

theorem distinct_eq_eraseDups {elements : List α} : distinct elements = elements.eraseDups := by
  rw [distinct, keepUnseen_eq_eraseDups, List.filter_eq_self.2 fun _ _ => by simp]

theorem mem_distinct {z : α} {elements : List α} : z ∈ distinct elements ↔ z ∈ elements := by
  rw [distinct_eq_eraseDups, List.mem_eraseDups]

theorem nodup_distinct {elements : List α} : (distinct elements).Nodup := by
  rw [distinct_eq_eraseDups]
  exact nodup_eraseDups elements

theorem distinct_of_nodup {elements : List α} (h : elements.Nodup) :
    distinct elements = elements := by
  rw [distinct_eq_eraseDups]
  induction elements with
  | nil => rfl
  | cons x rest ih =>
    rw [List.nodup_cons] at h
    have hf : rest.filter (fun y => !y == x) = rest := by
      rw [List.filter_eq_self]
      intro y hy
      have hne : y ≠ x := fun he => h.1 (he ▸ hy)
      simpa using hne
    rw [List.eraseDups_cons, hf, ih h.2]

end PhraseGrammar
