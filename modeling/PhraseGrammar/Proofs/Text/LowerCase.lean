import PhraseGrammar.Text.LowerCase

namespace PhraseGrammar

variable {table : List LowerRange} {range : LowerRange} {code distance : Nat} {c d : Char}
  {text before after : List Char}

theorem CodeRange.contains_eq_true_iff {range : CodeRange} : range.contains code = true ↔
    range.first ≤ code ∧ code ≤ range.last ∧ (code - range.first) % range.step = 0 := by
  simp only [contains, Bool.and_eq_true, decide_eq_true_eq, beq_iff_eq, and_assoc]

theorem lowerCode_cases (table : List LowerRange) (code : Nat) : lowerCode table code = code ∨
    ∃ range ∈ table, range.upper.contains code = true ∧
      lowerCode table code = range.lower + (code - range.upper.first) := by
  fun_induction lowerCode table code with
  | case1 => exact .inl rfl
  | case2 => exact .inl rfl
  | case3 range table code _ h => exact .inr ⟨range, List.mem_cons_self, h, rfl⟩
  | case4 range table code _ _ ih =>
    obtain he | ⟨other, hm, h⟩ := ih
    · exact .inl he
    · exact .inr ⟨other, List.mem_cons_of_mem _ hm, h⟩

/-- No lower-case form in a range is a point of the other range: it lies before or behind all
points, or between two of them. -/
def LowerRange.avoids (range : LowerRange) (other : CodeRange) : Bool :=
  Nat.blt (range.lower + (range.upper.last - range.upper.first)) other.first
    || Nat.blt other.last range.lower
    || (other.step == 2 && (range.upper.step == 2 || range.upper.first == range.upper.last)
      && (range.lower + other.first) % 2 == 1)

theorem LowerRange.avoids.contains_eq_false {other : CodeRange} (h : range.avoids other = true)
    (hc : range.upper.contains code = true) :
    other.contains (range.lower + (code - range.upper.first)) = false := by
  obtain ⟨hf, hl, hs⟩ := CodeRange.contains_eq_true_iff.1 hc
  refine eq_false_of_ne_true fun ho => ?_
  obtain ⟨hof, hol, hos⟩ := CodeRange.contains_eq_true_iff.1 ho
  simp only [avoids, Bool.or_eq_true, Bool.and_eq_true, Nat.blt_eq, beq_iff_eq] at h
  rcases h with (h | h) | ⟨⟨hst, h | h⟩, hp⟩
  · omega
  · omega
  · rw [hst] at hos
    rw [h] at hs
    omega
  · rw [hst] at hos
    omega

/-- No lower-case form in a range is found in a table, which is searched no further than for the
last of them. -/
def LowerRange.misses (range : LowerRange) : List LowerRange → Bool
  | [] => true
  | other :: table =>
    Nat.blt (range.lower + (range.upper.last - range.upper.first)) other.upper.first
      || (range.avoids other.upper && range.misses table)

theorem LowerRange.misses.lowerCode_eq (h : range.misses table = true)
    (hc : range.upper.contains code = true) :
    lowerCode table (range.lower + (code - range.upper.first)) =
      range.lower + (code - range.upper.first) := by
  induction table with
  | nil => rfl
  | cons other table ih =>
    rw [misses, Bool.or_eq_true, Bool.and_eq_true, Nat.blt_eq] at h
    rw [lowerCode]
    rcases h with h | ⟨ha, hm⟩
    · obtain ⟨_, hl, _⟩ := CodeRange.contains_eq_true_iff.1 hc
      rw [if_pos (by omega)]
    · rw [LowerRange.avoids.contains_eq_false ha hc, if_neg Bool.false_ne_true, ih hm, ite_self]

theorem misses_lowerRanges : lowerRanges.all (·.misses lowerRanges) = true := by
  decide +kernel

theorem avoids_dotted : lowerRanges.all (·.avoids ⟨0x130, 0x130, 1⟩) = true := by
  decide +kernel

/-- A lower-case form has no other lower-case form. -/
theorem lowerCode_lowerCode (code : Nat) :
    lowerCode lowerRanges (lowerCode lowerRanges code) = lowerCode lowerRanges code := by
  obtain he | ⟨range, hm, hc, he⟩ := lowerCode_cases lowerRanges code
  · rw [he, he]
  · rw [he]
    exact LowerRange.misses.lowerCode_eq (List.all_eq_true.1 misses_lowerRanges range hm) hc

theorem lowerCode_ne_dotted (h : code ≠ 0x130) : lowerCode lowerRanges code ≠ 0x130 := by
  obtain he | ⟨range, hm, hc, he⟩ := lowerCode_cases lowerRanges code
  · rwa [he]
  · intro hd
    have ha := LowerRange.avoids.contains_eq_false (List.all_eq_true.1 avoids_dotted range hm) hc
    rw [← he, hd] at ha
    exact absurd ha (by decide)

/-- The character is its own lower-case form. -/
def IsOwnLower (c : Char) : Prop :=
  lowerCase [c] = [c]

instance (c : Char) : Decidable (IsOwnLower c) :=
  inferInstanceAs (Decidable (lowerCase [c] = [c]))

theorem lowerCase_singleton (c : Char) : lowerCase [c] = lowerBetween [] c [] :=
  List.append_nil _

theorem isOwnLower_iff : IsOwnLower c ↔
    c ≠ 'Σ' ∧ c ≠ 'İ' ∧ Char.ofNat (lowerCode lowerRanges c.toNat) = c := by
  rw [IsOwnLower, lowerCase_singleton, lowerBetween]
  split
  · rename_i h
    rw [h]
    decide
  · rename_i hs
    split
    · rename_i h
      simp [h]
    · rename_i hd
      simp [hs, hd]

theorem IsOwnLower.lowerBetween_eq (h : IsOwnLower c) (before after : List Char) :
    lowerBetween before c after = [c] := by
  obtain ⟨hs, hd, he⟩ := isOwnLower_iff.1 h
  rw [lowerBetween, if_neg hs, if_neg hd, he]

theorem isOwnLower_ofNat_lowerCode (hd : c ≠ 'İ') :
    IsOwnLower (Char.ofNat (lowerCode lowerRanges c.toNat)) := by
  have hi := lowerCode_lowerCode c.toNat
  have hc : c.toNat ≠ 0x130 := fun h => hd (by rw [← Char.ofNat_toNat c, h])
  have hn := lowerCode_ne_dotted hc
  generalize lowerCode lowerRanges c.toNat = code at hi hn
  by_cases hv : code.isValidChar
  · have ht : (Char.ofNat code).toNat = code := by
      rw [Char.ofNat, dif_pos hv]
      rfl
    refine isOwnLower_iff.2 ⟨?_, ?_, by rw [ht, hi]⟩
    · intro h
      rw [h] at ht
      rw [← ht] at hi
      exact absurd hi (by decide +kernel)
    · intro h
      rw [h] at ht
      exact hn ht.symm
  · -- A number that is no code point stands for the first character.
    have h0 : Char.ofNat code = '\x00' := by
      rw [Char.ofNat, dif_neg hv]
      rfl
    rw [h0]
    decide

theorem isOwnLower_of_mem_lowerBetween (h : d ∈ lowerBetween before c after) : IsOwnLower d := by
  rw [lowerBetween] at h
  split at h
  · have hd : d = 'ς' ∨ d = 'σ' := by
      split at h
      · exact .inl (List.mem_singleton.1 h)
      · exact .inr (List.mem_singleton.1 h)
    rcases hd with rfl | rfl <;> decide +kernel
  · split at h
    · have hd : d = 'i' ∨ d = '\u0307' := by simpa using h
      rcases hd with rfl | rfl <;> decide +kernel
    · rename_i hd
      rw [List.mem_singleton.1 h]
      exact isOwnLower_ofNat_lowerCode hd

theorem isOwnLower_of_mem_lowerAfter (h : d ∈ lowerAfter before text) : IsOwnLower d := by
  induction text generalizing before with
  | nil => cases h
  | cons c text ih =>
    rcases List.mem_append.1 h with h | h
    · exact isOwnLower_of_mem_lowerBetween h
    · exact ih h

theorem lowerAfter_of_forall (h : ∀ c ∈ text, IsOwnLower c) : lowerAfter before text = text := by
  induction text generalizing before with
  | nil => rfl
  | cons c text ih =>
    obtain ⟨hc, ht⟩ := List.forall_mem_cons.1 h
    rw [lowerAfter, hc.lowerBetween_eq, ih ht]
    rfl

/-- Only the characters of a text tell whether lower-casing changes it, and not their order. -/
theorem lowerCase_eq_self_iff : lowerCase text = text ↔ ∀ c ∈ text, IsOwnLower c := by
  apply Iff.intro
  · intro h c hc
    rw [← h] at hc
    exact isOwnLower_of_mem_lowerAfter hc
  · exact lowerAfter_of_forall

end PhraseGrammar
