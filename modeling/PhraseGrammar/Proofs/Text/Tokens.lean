import PhraseGrammar.Proofs.Text.FinalSigma
import PhraseGrammar.Proofs.Text.Words
import PhraseGrammar.Text.Tokens

namespace PhraseGrammar

variable {c : Char} {text other rest word : List Char} {token : Token}

/-- What holds of each punctuation mark in the list holds of every punctuation mark. -/
theorem of_isPunctuation (test : Char → Bool)
    (h : [',', '.', ';', ':', '!', '?', '"', '\x27', '(', ')', '[', ']', '\x7b', '\x7d'].all test =
      true)
    (hp : isPunctuation c = true) : test c = true :=
  List.all_eq_true.1 h c (of_decide_eq_true hp)

theorem apart_of_isBlank (h : isBlank c = true) :
    IsOwnLower c ∧ isCaseIgnorable c = false ∧ isCased c = false := by
  have hb := of_isBlank (fun c => decide (IsOwnLower c) && !isCaseIgnorable c && !isCased c)
    (by decide +kernel) h
  simpa [and_assoc] using hb

/-- Of the punctuation marks, three are skipped in the search for letters with case. -/
theorem apart_of_isPunctuation (h : isPunctuation c = true) :
    IsOwnLower c ∧ (isCaseIgnorable c = true ↔ c ∈ ['.', ':', '\x27']) ∧ isCased c = false := by
  have hp := of_isPunctuation (fun c => decide (IsOwnLower c) &&
    (isCaseIgnorable c == decide (c ∈ ['.', ':', '\x27']) && !isCased c)) (by decide +kernel) h
  simp only [Bool.and_eq_true, decide_eq_true_eq, beq_iff_eq, Bool.not_eq_true'] at hp
  exact ⟨hp.1, by rw [hp.2.1, decide_eq_true_iff], hp.2.2⟩

theorem isBlank_of_separates (h : isBlank c = true ∨ isPunctuation c = true) :
    isBlank (if isPunctuation c then ' ' else c) = true := by
  split
  · rfl
  · rename_i hp
    exact h.resolve_right hp

theorem blankPunctuation_cons (c : Char) (text : List Char) : blankPunctuation (c :: text) =
    (if isPunctuation c then ' ' else c) :: blankPunctuation text :=
  rfl

theorem blankPunctuation_of_forall (h : ∀ c ∈ text, isPunctuation c = false) :
    blankPunctuation text = text := by
  induction text with
  | nil => rfl
  | cons c text ih =>
    obtain ⟨hc, ht⟩ := List.forall_mem_cons.1 h
    rw [blankPunctuation_cons, hc, if_neg Bool.false_ne_true, ih ht]

theorem words_blankPunctuation_append (h : isBlank c = true ∨ isPunctuation c = true) :
    words (blankPunctuation (text ++ c :: rest)) =
      words (blankPunctuation text) ++ words (blankPunctuation rest) := by
  rw [blankPunctuation, List.map_append, List.map_cons, words_append (isBlank_of_separates h)]
  rfl

theorem isBlank_space : isBlank ' ' = true := rfl

/-- The words of a text in lower case, when it is not trimmed. -/
def lowerWords (text : List Char) : List (List Char) :=
  words (blankPunctuation (lowerCase text))

theorem lowerWords_append_blank (h : isBlank c = true) :
    lowerWords (text ++ c :: rest) = lowerWords text ++ lowerWords rest := by
  obtain ⟨ho, hi, hc⟩ := apart_of_isBlank h
  rw [lowerWords, lowerCase_cut_of_not_isCaseIgnorable ho hi hc,
    words_blankPunctuation_append (.inl h)]
  rfl

theorem lowerWords_blanks_append (h : ∀ c ∈ text, isBlank c = true) :
    lowerWords (text ++ rest) = lowerWords rest := by
  induction text with
  | nil => rfl
  | cons c text ih =>
    obtain ⟨hc, ht⟩ := List.forall_mem_cons.1 h
    have ha : lowerWords ([] ++ c :: (text ++ rest)) = lowerWords [] ++ lowerWords (text ++ rest) :=
      lowerWords_append_blank hc
    rwa [ih ht] at ha

theorem lowerWords_append_blanks (h : ∀ c ∈ rest, isBlank c = true) :
    lowerWords (text ++ rest) = lowerWords text := by
  cases rest with
  | nil => rw [List.append_nil]
  | cons c rest =>
    obtain ⟨hc, hr⟩ := List.forall_mem_cons.1 h
    have hn : lowerWords (rest ++ []) = lowerWords [] := lowerWords_blanks_append hr
    rw [List.append_nil] at hn
    rw [lowerWords_append_blank hc, hn]
    exact List.append_nil _

theorem lowerWords_trimBlanks (text : List Char) :
    lowerWords (trimBlanks text) = lowerWords text := by
  obtain ⟨before, after, ht, hb, ha⟩ := exists_append_trimBlanks text
  calc lowerWords (trimBlanks text)
      = lowerWords (before ++ (trimBlanks text ++ after)) := by
        rw [lowerWords_blanks_append hb, lowerWords_append_blanks ha]
    _ = lowerWords text := by rw [← ht]

theorem tokenize_eq (sentence : String) :
    tokenize sentence = (lowerWords sentence.toList).map String.ofList := by
  rw [tokenize, ← lowerWords_trimBlanks]
  rfl

theorem PartAtSigma.filter_ne (h : PartAtSigma text other) :
    (blankPunctuation text).filter (!isBlank ·) ≠ (blankPunctuation other).filter (!isBlank ·) := by
  induction h with
  | medial | final => exact fun he => absurd (List.head_eq_of_cons_eq he) (by decide)
  | cons c _ ih =>
    rw [blankPunctuation_cons, blankPunctuation_cons]
    generalize (if isPunctuation c then ' ' else c) = d
    rw [List.filter_cons, List.filter_cons]
    split
    · exact fun he => ih (List.tail_eq_of_cons_eq he)
    · exact ih

/-- Both forms of the small sigma stay in the words. -/
theorem PartAtSigma.words_ne (h : PartAtSigma text other) :
    words (blankPunctuation text) ≠ words (blankPunctuation other) := by
  intro he
  apply h.filter_ne
  rw [← flatten_words, he, flatten_words]

theorem lowerWords_cut_iff (h : isBlank c = true ∨ isPunctuation c = true) :
    lowerWords (text ++ c :: rest) = lowerWords text ++ lowerWords rest ↔
      (c ∈ ['.', ':', '\x27'] → bindsSigma text rest = false) := by
  rw [lowerWords, lowerWords, lowerWords, ← words_blankPunctuation_append h]
  by_cases hm : c ∈ ['.', ':', '\x27']
  · have hp : isPunctuation c = true := by
      revert hm
      simp only [List.mem_cons, List.not_mem_nil, or_false]
      rintro (rfl | rfl | rfl) <;> rfl
    obtain ⟨ho, hi, _⟩ := apart_of_isPunctuation hp
    -- The mark is skipped, so that lower-casing looks across it.
    have hl := lowerCase_cut_eq_or_partAtSigma ho (hi.2 hm) text rest
    cases hb : bindsSigma text rest with
    | true =>
      rw [if_pos hb] at hl
      simp [hm, hl.words_ne]
    | false =>
      rw [hb, if_neg Bool.false_ne_true] at hl
      simp [hl]
  · have ho : IsOwnLower c ∧ isCaseIgnorable c = false ∧ isCased c = false := by
      rcases h with hb | hp
      · exact apart_of_isBlank hb
      · obtain ⟨ho, hi, hc⟩ := apart_of_isPunctuation hp
        exact ⟨ho, eq_false_of_ne_true (mt hi.1 hm), hc⟩
    simp [hm, lowerCase_cut_of_not_isCaseIgnorable ho.1 ho.2.1 ho.2.2]

/-- A separator keeps the words of two texts apart. Three marks do so only where no capital sigma
beside them is bound, since they do not end a word when its form is chosen. -/
theorem tokenize_cut_iff (h : isBlank c = true ∨ isPunctuation c = true) (x y : String) :
    tokenize (x.push c ++ y) = tokenize x ++ tokenize y ↔
      (c ∈ ['.', ':', '\x27'] → bindsSigma x.toList y.toList = false) := by
  rw [tokenize_eq, tokenize_eq, tokenize_eq, ← List.map_append,
    List.map_inj_right fun _ _ => String.ofList_injective, String.toList_append, String.toList_push,
    List.append_assoc, List.singleton_append, lowerWords_cut_iff h]

theorem tokenize_cut_sigma :
    tokenize ("ΑΣ".push ',' ++ "Α") = tokenize "ΑΣ" ++ tokenize "Α" ∧
      tokenize ("ΑΣ".push '.' ++ "!") = tokenize "ΑΣ" ++ tokenize "!" ∧
      tokenize ("ΑΣ".push '.' ++ "Α") ≠ tokenize "ΑΣ" ++ tokenize "Α" ∧
      tokenize ("Α".push '.' ++ "Σ") ≠ tokenize "Α" ++ tokenize "Σ" := by
  refine ⟨?_, ?_, ?_, ?_⟩
  · exact (tokenize_cut_iff (.inr rfl) _ _).2 fun h => absurd h (by decide)
  · exact (tokenize_cut_iff (.inr rfl) _ _).2 fun _ => by decide +kernel
  · exact fun h => absurd ((tokenize_cut_iff (.inr rfl) _ _).1 h (by decide)) (by decide +kernel)
  · exact fun h => absurd ((tokenize_cut_iff (.inr rfl) _ _).1 h (by decide)) (by decide +kernel)

/-- A full stop between two letters is not read as a space would be. -/
theorem not_every_separator_cuts : ¬∀ (x y : String) (c : Char),
    isBlank c = true ∨ isPunctuation c = true →
      tokenize (x.push c ++ y) = tokenize x ++ tokenize y := by
  intro h
  exact absurd (h "ΑΣ" "Α" '.' (.inr rfl)) (by decide +kernel)

/-- A token that is made up of letters and signs which tokenizing does not touch. -/
structure IsWord (token : Token) : Prop where
  ne_empty : token ≠ ""
  not_blank : ∀ c ∈ token.toList, isBlank c = false
  not_punctuation : ∀ c ∈ token.toList, isPunctuation c = false
  lowerCase_eq : lowerCase token.toList = token.toList

theorem isWord_of_mem_tokenize {sentence : String} (h : token ∈ tokenize sentence) :
    IsWord token := by
  rw [tokenize_eq] at h
  obtain ⟨word, hw, rfl⟩ := List.mem_map.1 h
  have hc (c : Char) (hm : c ∈ word) :
      isBlank c = false ∧ isPunctuation c = false ∧ IsOwnLower c := by
    obtain ⟨hb, hn⟩ := mem_of_mem_words hw hm
    obtain ⟨d, hd, rfl⟩ := List.mem_map.1 hb
    cases hp : isPunctuation d with
    | true => simp [hp, isBlank_space] at hn
    | false =>
      rw [hp] at hn
      exact ⟨hn, hp, isOwnLower_of_mem_lowerAfter hd⟩
  refine ⟨?_, ?_, ?_, ?_⟩
  · rw [Ne, ← String.toList_eq_nil_iff, String.toList_ofList]
    exact ne_nil_of_mem_words hw
  · rw [String.toList_ofList]
    exact fun c hm => (hc c hm).1
  · rw [String.toList_ofList]
    exact fun c hm => (hc c hm).2.1
  · rw [String.toList_ofList, lowerCase_eq_self_iff]
    exact fun c hm => (hc c hm).2.2

theorem IsWord.lowerWords_eq (h : IsWord token) : lowerWords token.toList = [token.toList] := by
  have hn : token.toList ≠ [] := mt String.toList_eq_nil_iff.1 h.ne_empty
  rw [lowerWords, h.lowerCase_eq, blankPunctuation_of_forall h.not_punctuation,
    words_of_forall hn h.not_blank]

theorem lowerWords_intercalate {tokens : List Token} (h : ∀ token ∈ tokens, IsWord token) :
    lowerWords ([' '].intercalate (tokens.map String.toList)) = tokens.map String.toList := by
  induction tokens with
  | nil => rfl
  | cons token tokens ih =>
    obtain ⟨ht, hts⟩ := List.forall_mem_cons.1 h
    cases tokens with
    | nil =>
      rw [List.map_singleton, List.intercalate_singleton, ht.lowerWords_eq]
    | cons next tokens =>
      rw [List.map_cons, List.intercalate_cons_of_ne_nil (by simp), List.append_assoc,
        List.singleton_append, lowerWords_append_blank isBlank_space, ht.lowerWords_eq, ih hts]
      rfl

theorem tokenize_intercalate {tokens : List Token} (h : ∀ token ∈ tokens, IsWord token) :
    tokenize (" ".intercalate tokens) = tokens := by
  have hs : " ".toList = [' '] := rfl
  rw [tokenize_eq, String.toList_intercalate, hs, lowerWords_intercalate h, List.map_map]
  exact List.map_id'' (fun _ => String.ofList_toList) tokens

/-- Exactly the lists of words come back when they are joined by spaces and tokenized, and
tokenizing makes nothing but words. -/
theorem tokenize_projection :
    (∀ tokens : List Token,
      tokenize (" ".intercalate tokens) = tokens ↔ ∀ token ∈ tokens, IsWord token) ∧
    ∀ sentence : String, (∀ token ∈ tokenize sentence, IsWord token) ∧
      tokenize (" ".intercalate (tokenize sentence)) = tokenize sentence := by
  refine ⟨?_, ?_⟩
  · intro tokens
    apply Iff.intro
    · intro h token hm
      rw [← h] at hm
      exact isWord_of_mem_tokenize hm
    · exact tokenize_intercalate
  · intro sentence
    have hw : ∀ token ∈ tokenize sentence, IsWord token := fun _ => isWord_of_mem_tokenize
    exact ⟨hw, tokenize_intercalate hw⟩

end PhraseGrammar
