namespace PhraseGrammar

/-- The code points `first`, `first + step`, …, `last`. -/
structure CodeRange where
  first : Nat
  last : Nat
  step : Nat

/-- A code range holds the points of its arithmetic progression and no others. -/
def CodeRange.contains (range : CodeRange) (code : Nat) : Bool :=
  range.first ≤ code && code ≤ range.last && (code - range.first) % range.step == 0

/-- Searches a table whose ranges are in increasing order, and stops at the first range that
begins beyond the code point. -/
def CodeRange.covers : List CodeRange → Nat → Bool
  | [], _ => false
  | range :: table, code =>
    if code < range.first then false
    else range.contains code || covers table code

theorem CodeRange.exists_contains_of_covers {table : List CodeRange} {code : Nat}
    (h : covers table code = true) : ∃ range ∈ table, range.contains code = true := by
  induction table with
  | nil => simp [covers] at h
  | cons range table ih =>
    rw [covers] at h
    split at h
    · simp at h
    · rcases Bool.or_eq_true_iff.1 h with hc | hc
      · exact ⟨range, by simp, hc⟩
      · obtain ⟨other, hm, ho⟩ := ih hc
        exact ⟨other, by simp [hm], ho⟩

end PhraseGrammar
