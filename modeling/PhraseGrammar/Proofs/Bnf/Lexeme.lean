import Mathlib.Algebra.Ring.Parity
import Mathlib.Data.List.TakeWhile
import PhraseGrammar.Bnf.Lexeme
import PhraseGrammar.Proofs.Pointwise

namespace PhraseGrammar.Bnf

variable {text rest quoted : List Char} {c : Char}

theorem isWordChar_eq_true_iff : isWordChar c = true ↔
    isBlank c = false ∧ c ≠ '=' ∧ c ≠ '|' ∧ c ≠ '"' := by
  simp [isWordChar, and_assoc]

theorem isWordChar_of_isBlank (hc : isBlank c = true) : isWordChar c = false := by
  simp [isWordChar, hc]

theorem lexemes_cons_equals :
    lexemes ('=' :: text) = (lexemes text).map (.equals :: ·) := by
  rw [lexemes, if_pos rfl]

theorem lexemes_cons_bar : lexemes ('|' :: text) = (lexemes text).map (.bar :: ·) := by
  rw [lexemes, if_neg (by decide), if_pos rfl]

theorem lexemes_cons_quote (h : readQuoted? text = some (quoted, rest)) :
    lexemes ('"' :: text) = (lexemes rest).map (.quoted (String.ofList quoted) :: ·) := by
  rw [lexemes, if_neg (by decide), if_neg (by decide), if_pos rfl]
  split
  · rename_i he
    rw [h] at he
    cases he
  · rename_i he
    rw [h] at he
    cases he
    rfl

theorem lexemes_cons_blank (hc : isBlank c = true) : lexemes (c :: text) = lexemes text := by
  have he : c ≠ '=' := by
    rintro rfl
    cases hc
  have hb : c ≠ '|' := by
    rintro rfl
    cases hc
  have hq : c ≠ '"' := by
    rintro rfl
    cases hc
  rw [lexemes, if_neg he, if_neg hb, if_neg hq, if_pos hc]

theorem lexemes_cons_word (hc : isWordChar c = true) : lexemes (c :: text) =
    (lexemes (readWord text).2).map (.word (String.ofList (c :: (readWord text).1)) :: ·) := by
  obtain ⟨hs, he, hb, hq⟩ := isWordChar_eq_true_iff.1 hc
  rw [lexemes, if_neg he, if_neg hb, if_neg hq, if_neg (by simp [hs])]

theorem readQuoted?_append (h : '"' ∉ quoted) :
    readQuoted? (quoted ++ '"' :: text) = some (quoted, text) := by
  have hq : ∀ c ∈ quoted, (c != '"') = true := by
    intro c hc
    simpa using fun he : c = '"' => h (he ▸ hc)
  rw [readQuoted?, List.dropWhile_append_of_pos hq, List.takeWhile_append_of_pos hq]
  simp

theorem readQuoted?_eq_some_iff :
    readQuoted? text = some (quoted, rest) ↔ '"' ∉ quoted ∧ text = quoted ++ '"' :: rest := by
  apply Iff.intro
  · intro h
    rw [readQuoted?] at h
    split at h
    · cases h
    · rename_i c _ hd
      cases h
      have hc : c = '"' := by
        have hn := List.head?_dropWhile_not (· != '"') text
        rw [hd] at hn
        simpa using hn
      have ht := List.takeWhile_append_dropWhile (p := (· != '"')) (l := text)
      rw [hd, hc] at ht
      refine ⟨?_, ht.symm⟩
      intro hm
      simpa using List.mem_takeWhile_imp hm
  · rintro ⟨hq, rfl⟩
    exact readQuoted?_append hq

theorem readQuoted?_eq_none_iff : readQuoted? text = none ↔ '"' ∉ text := by
  apply Iff.intro
  · intro h hm
    obtain ⟨quoted, rest, rfl, hq⟩ := List.eq_append_cons_of_mem hm
    rw [readQuoted?_append hq] at h
    cases h
  · intro h
    cases hr : readQuoted? text with
    | none => rfl
    | some found =>
      obtain ⟨_, rfl⟩ := readQuoted?_eq_some_iff.1 hr
      exact absurd (List.mem_append_right _ List.mem_cons_self) h

theorem readWord_append {word : List Char} (hw : ∀ c ∈ word, isWordChar c = true)
    (ht : ∀ c ∈ text.head?, isWordChar c = false) : readWord (word ++ text) = (word, text) := by
  rw [readWord, List.dropWhile_append_of_pos hw, List.takeWhile_append_of_pos hw]
  cases text with
  | nil => simp
  | cons c text =>
    have hc : isWordChar c = false := ht c rfl
    simp [hc]

theorem readWord_append_eq (text : List Char) : (readWord text).1 ++ (readWord text).2 = text :=
  List.takeWhile_append_dropWhile

theorem isWordChar_of_mem_readWord (hc : c ∈ (readWord text).1) : isWordChar c = true :=
  List.mem_takeWhile_imp hc

theorem isWordChar_of_head?_readWord : ∀ c ∈ (readWord text).2.head?, isWordChar c = false := by
  intro c hc
  have hn := List.head?_dropWhile_not isWordChar text
  rw [readWord] at hc
  rw [Option.mem_def.1 hc] at hn
  simpa using hn

/-- Nothing but a quotation mark without a partner makes a line unreadable. -/
theorem lexemes_eq_error_iff {cause : ReadError} :
    lexemes text = .error cause ↔ cause = .unmatchedQuote ∧ Odd (text.count '"') := by
  fun_induction lexemes text with
  | case1 => simp
  | case2 text ih => rw [map_eq_error_iff, ih, List.count_cons_of_ne (by decide)]
  | case3 text _ ih => rw [map_eq_error_iff, ih, List.count_cons_of_ne (by decide)]
  | case4 text h =>
    have hz : text.count '"' = 0 := List.count_eq_zero.2 (readQuoted?_eq_none_iff.1 h)
    rw [List.count_cons_self, hz]
    simp [eq_comm]
  | case5 text quoted rest h =>
    rename_i ih
    obtain ⟨hq, rfl⟩ := readQuoted?_eq_some_iff.1 h
    rw [map_eq_error_iff, ih, List.count_cons_self, List.count_append, List.count_eq_zero.2 hq,
      List.count_cons_self, Nat.zero_add, Nat.odd_add_one, Nat.odd_add_one, not_not]
  | case6 c text _ _ hq _ ih => rw [ih, List.count_cons_of_ne hq]
  | case7 c text _ _ hq _ word ih =>
    have hz : word.1.count '"' = 0 := by
      rw [List.count_eq_zero]
      intro hm
      exact absurd (isWordChar_of_mem_readWord hm) (by decide)
    have ht : text.count '"' = word.2.count '"' := by
      rw [← readWord_append_eq text, List.count_append, hz, Nat.zero_add]
    rw [map_eq_error_iff, ih, List.count_cons_of_ne hq, ht]

end PhraseGrammar.Bnf
