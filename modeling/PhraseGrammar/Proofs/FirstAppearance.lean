import Mathlib.Data.List.Sort
import PhraseGrammar.Distinct

namespace PhraseGrammar

variable {α : Type} [DecidableEq α]

/-- A list has the members of another one that have a property, each once, in the order in which
they first appear there. -/
structure FirstAppearances (source : List α) (Holds : α → Prop) (found : List α) : Prop where
  mem_iff : ∀ x, x ∈ found ↔ x ∈ source ∧ Holds x
  ascending : found.Pairwise fun x y => source.idxOf x < source.idxOf y

theorem FirstAppearances.unique {source found found' : List α} {Holds : α → Prop}
    (h : FirstAppearances source Holds found) (h' : FirstAppearances source Holds found') :
    found = found' := by
  have : Std.Irrefl fun x y : α => source.idxOf x < source.idxOf y := ⟨fun _ => Nat.lt_irrefl _⟩
  have : Std.Antisymm fun x y : α => source.idxOf x < source.idxOf y :=
    ⟨fun _ _ hx hy => absurd hx (Nat.lt_asymm hy)⟩
  apply List.Pairwise.eq_of_mem_iff h.ascending h'.ascending
  intro x
  rw [h.mem_iff, h'.mem_iff]

theorem idxOf_cons_lt {x y z : α} {source : List α} (hy : y ≠ x) (hz : z ≠ x)
    (h : source.idxOf y < source.idxOf z) : (x :: source).idxOf y < (x :: source).idxOf z := by
  rw [List.idxOf_cons_ne _ hy.symm, List.idxOf_cons_ne _ hz.symm]
  exact Nat.succ_lt_succ h

theorem pairwise_eraseDups_filter {source : List α} {test : α → Bool} :
    (source.filter test).eraseDups.Pairwise fun x y => source.idxOf x < source.idxOf y := by
  induction source generalizing test with
  | nil => exact .nil
  | cons x source ih =>
    by_cases hx : test x = true
    · rw [List.filter_cons_of_pos hx, List.eraseDups_cons, List.filter_filter]
      have hne : ∀ y ∈ (source.filter fun y => !y == x && test y).eraseDups, y ≠ x := by
        intro y hy
        have ht := (List.mem_filter.1 (List.mem_eraseDups.1 hy)).2
        simpa using (Bool.and_eq_true_iff.1 ht).1
      refine List.pairwise_cons.2 ⟨?_, ih.imp_of_mem ?_⟩
      · intro y hy
        rw [List.idxOf_cons_self, List.idxOf_cons_ne _ (hne y hy).symm]
        exact Nat.succ_pos _
      · intro y z hy hz
        exact idxOf_cons_lt (hne y hy) (hne z hz)
    · rw [List.filter_cons_of_neg hx]
      have hne : ∀ y ∈ (source.filter test).eraseDups, y ≠ x := by
        rintro y hy rfl
        exact hx (List.mem_filter.1 (List.mem_eraseDups.1 hy)).2
      apply ih.imp_of_mem
      intro y z hy hz
      exact idxOf_cons_lt (hne y hy) (hne z hz)

theorem firstAppearances_eraseDups_filter (source : List α) (test : α → Bool) :
    FirstAppearances source (test · = true) (source.filter test).eraseDups where
  mem_iff x := by rw [List.mem_eraseDups, List.mem_filter]
  ascending := pairwise_eraseDups_filter

variable [Ord α] [Std.TransOrd α] [Std.LawfulEqOrd α]

theorem firstAppearances_distinct (elements : List α) :
    FirstAppearances elements (fun _ => True) (distinct elements) where
  mem_iff x := by rw [mem_distinct, and_true]
  ascending := by
    have hf : elements.filter (fun _ => true) = elements := List.filter_eq_self.2 fun _ _ => rfl
    have hp : (elements.filter fun _ => true).eraseDups.Pairwise
        fun x y => elements.idxOf x < elements.idxOf y := pairwise_eraseDups_filter
    rwa [hf, ← distinct_eq_eraseDups] at hp

end PhraseGrammar
