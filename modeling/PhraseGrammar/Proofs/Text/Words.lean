import Mathlib.Data.List.TakeWhile
import PhraseGrammar.Text.Blank

namespace PhraseGrammar

variable {c : Char} {text rest word : List Char}

/-- The points of a code range, and those that its steps leave out. -/
def CodeRange.span (range : CodeRange) : List Nat :=
  List.range' range.first (range.last + 1 - range.first)

theorem CodeRange.mem_span_of_covers {table : List CodeRange} {code : Nat}
    (h : covers table code = true) : code ∈ table.flatMap span := by
  obtain ⟨range, hm, hc⟩ := exists_contains_of_covers h
  simp only [contains, Bool.and_eq_true, decide_eq_true_eq] at hc
  refine List.mem_flatMap.2 ⟨range, hm, List.mem_range'_1.2 ⟨hc.1.1, ?_⟩⟩
  omega

/-- What holds of each code point in the table of blanks holds of every blank. -/
theorem of_isBlank (test : Char → Bool)
    (h : (blankRanges.flatMap CodeRange.span).all (fun code => test (Char.ofNat code)) = true)
    (hb : isBlank c = true) : test c = true := by
  have hc := List.all_eq_true.1 h c.toNat (CodeRange.mem_span_of_covers hb)
  rwa [Char.ofNat_toNat] at hc

theorem splitAtBlanks_append (hc : isBlank c = true) :
    splitAtBlanks (text ++ c :: rest) = splitAtBlanks text ++ splitAtBlanks rest := by
  induction text with
  | nil => simp [splitAtBlanks, hc]
  | cons d text ih =>
    rw [List.cons_append, splitAtBlanks, splitAtBlanks, ih]
    split
    · rfl
    · obtain ⟨word, words, hw⟩ := List.exists_cons_of_ne_nil (splitAtBlanks_ne_nil text)
      rw [hw]
      rfl

/-- A blank ends one word and begins another. -/
theorem words_append (hc : isBlank c = true) :
    words (text ++ c :: rest) = words text ++ words rest := by
  rw [words, splitAtBlanks_append hc, List.filter_append]
  rfl

theorem mem_of_mem_splitAtBlanks (hw : word ∈ splitAtBlanks text) (hc : c ∈ word) :
    c ∈ text ∧ isBlank c = false := by
  induction text generalizing word with
  | nil =>
    rw [splitAtBlanks, List.mem_singleton] at hw
    rw [hw] at hc
    cases hc
  | cons d text ih =>
    rw [splitAtBlanks] at hw
    split at hw
    · rcases List.mem_cons.1 hw with rfl | hw
      · cases hc
      · exact ⟨List.mem_cons_of_mem _ (ih hw hc).1, (ih hw hc).2⟩
    · rename_i hd
      obtain ⟨first, others, hs⟩ := List.exists_cons_of_ne_nil (splitAtBlanks_ne_nil text)
      rw [hs] at hw ih
      rcases List.mem_cons.1 hw with rfl | hw
      · rcases List.mem_cons.1 hc with rfl | hc
        · exact ⟨List.mem_cons_self, eq_false_of_ne_true hd⟩
        · have h := ih List.mem_cons_self hc
          exact ⟨List.mem_cons_of_mem _ h.1, h.2⟩
      · have h := ih (List.mem_cons_of_mem _ hw) hc
        exact ⟨List.mem_cons_of_mem _ h.1, h.2⟩

theorem ne_nil_of_mem_words (h : word ∈ words text) : word ≠ [] := by
  simpa using (List.mem_filter.1 h).2

theorem mem_of_mem_words (h : word ∈ words text) (hc : c ∈ word) :
    c ∈ text ∧ isBlank c = false :=
  mem_of_mem_splitAtBlanks (List.mem_filter.1 h).1 hc

theorem splitAtBlanks_of_forall (h : ∀ c ∈ word, isBlank c = false) :
    splitAtBlanks word = [word] := by
  induction word with
  | nil => rfl
  | cons c word ih =>
    obtain ⟨hc, hw⟩ := List.forall_mem_cons.1 h
    rw [splitAtBlanks, hc, if_neg Bool.false_ne_true, ih hw]
    rfl

theorem words_of_forall (hn : word ≠ []) (h : ∀ c ∈ word, isBlank c = false) :
    words word = [word] := by
  simp [words, splitAtBlanks_of_forall h, hn]

theorem flatten_splitAtBlanks : (splitAtBlanks text).flatten = text.filter (!isBlank ·) := by
  induction text with
  | nil => rfl
  | cons c text ih =>
    rw [splitAtBlanks]
    split
    · rename_i hc
      rw [List.flatten_cons, List.nil_append, ih, List.filter_cons_of_neg (by simp [hc])]
    · rename_i hc
      obtain ⟨word, words, hw⟩ := List.exists_cons_of_ne_nil (splitAtBlanks_ne_nil text)
      rw [List.filter_cons_of_pos (by simp [hc]), ← ih, hw]
      rfl

/-- The words are what is left of a text when its blanks are taken away. -/
theorem flatten_words : (words text).flatten = text.filter (!isBlank ·) := by
  rw [words, List.flatten_filter_not_isEmpty, flatten_splitAtBlanks]

theorem exists_append_dropWhile (text : List Char) : ∃ before,
    text = before ++ text.dropWhile isBlank ∧ ∀ c ∈ before, isBlank c = true :=
  ⟨text.takeWhile isBlank, List.takeWhile_append_dropWhile.symm, fun _ => List.mem_takeWhile_imp⟩

/-- Trimming takes away blanks at both ends. -/
theorem exists_append_trimBlanks (text : List Char) : ∃ before after,
    text = before ++ (trimBlanks text ++ after) ∧ (∀ c ∈ before, isBlank c = true) ∧
      ∀ c ∈ after, isBlank c = true := by
  obtain ⟨before, hb, hbb⟩ := exists_append_dropWhile text
  obtain ⟨after, ha, hab⟩ := exists_append_dropWhile (text.dropWhile isBlank).reverse
  refine ⟨before, after.reverse, ?_, hbb, fun c hc => hab c (List.mem_reverse.1 hc)⟩
  rw [trimBlanks, ← List.reverse_append, ← ha, List.reverse_reverse]
  exact hb

end PhraseGrammar
