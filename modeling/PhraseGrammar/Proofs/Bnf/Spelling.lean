import PhraseGrammar.Proofs.Bnf.Lexeme

namespace PhraseGrammar.Bnf

/-- The characters of a lexeme. -/
def Lexeme.spelling : Lexeme → List Char
  | .equals => ['=']
  | .bar => ['|']
  | .word text => text.toList
  | .quoted text => '"' :: (text.toList ++ ['"'])

def Lexeme.isWord : Lexeme → Bool
  | .word _ => true
  | _ => false

/-- A lexeme whose spelling does not hold another lexeme. -/
def Lexeme.IsWhole : Lexeme → Prop
  | .equals => True
  | .bar => True
  | .word text => text ≠ "" ∧ ∀ c ∈ text.toList, isWordChar c = true
  | .quoted text => '"' ∉ text.toList

/-- A lexeme whose spelling stands on one line and does not hold another lexeme. -/
def Lexeme.IsReadable : Lexeme → Prop
  | .equals => True
  | .bar => True
  | .word text => text ≠ "" ∧ ∀ c ∈ text.toList, isWordChar c = true
  | .quoted text => '"' ∉ text.toList ∧ '\n' ∉ text.toList

/-- Lexemes are written down one after the other, with any white space around them. Between two
words there is some. -/
inductive Spaced : List Lexeme → List Char → Prop where
  | nil {gap : List Char} (hg : ∀ c ∈ gap, isBlank c = true) : Spaced [] gap
  | cons {part : Lexeme} {parts : List Lexeme} {gap text : List Char}
    (hg : ∀ c ∈ gap, isBlank c = true) (h : Spaced parts text)
    (hs : part.isWord = true → parts.head?.any (·.isWord) = true →
      text.head?.any isBlank = true) :
    Spaced (part :: parts) (gap ++ part.spelling ++ text)

/-- White space within a line. -/
def IsGap (text : List Char) : Prop :=
  ∀ c ∈ text, isBlank c = true ∧ c ≠ '\n'

instance : DecidablePred IsGap :=
  fun text => List.decidableBAll _ text

/-- Lexemes are written down in a line with gaps around them. The gap between two words is not
empty. -/
inductive Spells : List Lexeme → List Char → Prop where
  | nil {gap : List Char} (hg : IsGap gap) : Spells [] gap
  | cons {part : Lexeme} {parts : List Lexeme} {gap text : List Char} (hg : IsGap gap)
    (h : Spells parts text)
    (hs : part.isWord = true → parts.head?.any (·.isWord) = true →
      text.head?.any isBlank = true) :
    Spells (part :: parts) (gap ++ part.spelling ++ text)

/-- A text without the white space outside quotation marks. The text begins inside or outside. -/
def withoutGaps (inside : Bool) : List Char → List Char
  | [] => []
  | c :: text =>
    if c = '"' then c :: withoutGaps (!inside) text
    else if !inside && isBlank c then withoutGaps inside text
    else c :: withoutGaps inside text

variable {part : Lexeme} {parts : List Lexeme} {gap text word quoted : List Char} {c : Char}

theorem lexemes_gap_append (hg : ∀ c ∈ gap, isBlank c = true) :
    lexemes (gap ++ text) = lexemes text := by
  induction gap with
  | nil => rfl
  | cons c gap ih =>
    obtain ⟨hc, hg⟩ := List.forall_mem_cons.1 hg
    rw [List.cons_append, lexemes_cons_blank hc, ih hg]

/-- A lexeme is read whole, and a word ends where the text goes on with something else. -/
theorem lexemes_spelling_append (hr : part.IsWhole)
    (ht : part.isWord = true → ∀ c ∈ text.head?, isWordChar c = false) :
    lexemes (part.spelling ++ text) = (lexemes text).map (part :: ·) := by
  cases part with
  | equals => exact lexemes_cons_equals
  | bar => exact lexemes_cons_bar
  | word word =>
    obtain ⟨hne, hw⟩ := hr
    rw [Lexeme.spelling]
    obtain ⟨chars, rfl⟩ : ∃ chars, word = String.ofList chars :=
      ⟨word.toList, String.ofList_toList.symm⟩
    rw [String.toList_ofList] at hw ⊢
    cases chars with
    | nil => exact absurd rfl hne
    | cons c chars =>
      obtain ⟨hc, hw⟩ := List.forall_mem_cons.1 hw
      rw [List.cons_append, lexemes_cons_word hc, readWord_append hw (ht rfl)]
  | quoted text' =>
    rw [Lexeme.spelling, List.cons_append, List.append_assoc, List.singleton_append,
      lexemes_cons_quote (readQuoted?_append hr), String.ofList_toList]

theorem Spaced.head?_not_isWordChar (h : Spaced parts text)
    (hs : parts.head?.any (·.isWord) = true → text.head?.any isBlank = true) :
    ∀ c ∈ text.head?, isWordChar c = false := by
  intro c hc
  cases h with
  | nil hg => exact isWordChar_of_isBlank (hg c (List.mem_of_head? hc))
  | @cons part parts gap text hg =>
    cases gap with
    | cons d gap =>
      cases hc
      exact isWordChar_of_isBlank (hg _ List.mem_cons_self)
    | nil =>
      cases part with
      | equals | bar | quoted =>
        cases hc
        rfl
      | word word =>
        have hb := hs rfl
        rw [Option.mem_def.1 hc] at hb
        exact isWordChar_of_isBlank hb

/-- Lexemes are read back from their spellings. -/
theorem Spaced.lexemes_eq (h : Spaced parts text) (hr : ∀ part ∈ parts, part.IsWhole) :
    lexemes text = .ok parts := by
  induction h with
  | @nil gap hg =>
    rw [← List.append_nil gap, lexemes_gap_append hg, lexemes]
  | @cons part parts gap text hg h hs ih =>
    rw [List.forall_mem_cons] at hr
    have ht : part.isWord = true → ∀ c ∈ text.head?, isWordChar c = false :=
      fun hw => h.head?_not_isWordChar (hs hw)
    rw [List.append_assoc, lexemes_gap_append hg, lexemes_spelling_append hr.1 ht, ih hr.2]
    rfl

theorem Spaced.cons_blank (hc : isBlank c = true) (h : Spaced parts text) :
    Spaced parts (c :: text) := by
  cases h with
  | nil hg => exact .nil (List.forall_mem_cons.2 ⟨hc, hg⟩)
  | @cons part parts gap text hg h hs =>
    exact @Spaced.cons part parts (c :: gap) text (List.forall_mem_cons.2 ⟨hc, hg⟩) h hs

theorem Spaced.spelling_append (h : Spaced parts text)
    (hs : part.isWord = true → parts.head?.any (·.isWord) = true →
      text.head?.any isBlank = true) : Spaced (part :: parts) (part.spelling ++ text) :=
  @Spaced.cons part parts [] text (List.forall_mem_nil _) h hs

theorem Spaced.sign_append (hn : part.isWord = false) (h : Spaced parts text) :
    Spaced (part :: parts) (part.spelling ++ text) := by
  apply h.spelling_append
  intro hw
  rw [hn] at hw
  cases hw

/-- Before a word there is white space, unless the text goes on with a character of the word. -/
theorem Spaced.head?_isBlank (h : Spaced parts text) (hr : ∀ part ∈ parts, part.IsWhole)
    (hp : parts.head?.any (·.isWord) = true) (ht : ∀ c ∈ text.head?, isWordChar c = false) :
    text.head?.any isBlank = true := by
  cases h with
  | nil => cases hp
  | @cons part parts gap text hg =>
    cases gap with
    | cons d gap => exact hg d List.mem_cons_self
    | nil =>
      cases part with
      | equals | bar | quoted => cases hp
      | word word =>
        obtain ⟨hne, hw⟩ := hr _ List.mem_cons_self
        rw [List.nil_append, Lexeme.spelling] at ht
        cases hc : word.toList with
        | nil => exact absurd (String.toList_eq_nil_iff.1 hc) hne
        | cons c chars =>
          rw [hc] at ht hw
          have hf := ht c rfl
          rw [hw c List.mem_cons_self] at hf
          cases hf

theorem spaced_of_lexemes_eq_ok (h : lexemes text = .ok parts) :
    (∀ part ∈ parts, part.IsWhole) ∧ Spaced parts text := by
  fun_induction lexemes text generalizing parts with
  | case1 =>
    cases h
    exact ⟨List.forall_mem_nil _, .nil (List.forall_mem_nil _)⟩
  | case2 text ih =>
    obtain ⟨rest, hr, rfl⟩ := map_eq_ok_iff.1 h
    obtain ⟨hw, hs⟩ := ih hr
    exact ⟨List.forall_mem_cons.2 ⟨trivial, hw⟩, hs.sign_append rfl⟩
  | case3 text _ ih =>
    obtain ⟨rest, hr, rfl⟩ := map_eq_ok_iff.1 h
    obtain ⟨hw, hs⟩ := ih hr
    exact ⟨List.forall_mem_cons.2 ⟨trivial, hw⟩, hs.sign_append rfl⟩
  | case4 => cases h
  | case5 text quoted rest hq =>
    rename_i ih
    obtain ⟨hn, rfl⟩ := readQuoted?_eq_some_iff.1 hq
    obtain ⟨rest', hr, rfl⟩ := map_eq_ok_iff.1 h
    obtain ⟨hw, hs⟩ := ih hr
    have hq : (Lexeme.quoted (String.ofList quoted)).IsWhole := by
      rwa [Lexeme.IsWhole, String.toList_ofList]
    refine ⟨List.forall_mem_cons.2 ⟨hq, hw⟩, ?_⟩
    have hsp := @Spaced.sign_append (.quoted (String.ofList quoted)) _ _ rfl hs
    rwa [Lexeme.spelling, String.toList_ofList, List.cons_append, List.append_assoc] at hsp
  | case6 c text _ _ _ hc ih =>
    obtain ⟨hw, hs⟩ := ih h
    exact ⟨hw, hs.cons_blank hc⟩
  | case7 c text he hb hq hc word =>
    rename_i ih
    obtain ⟨rest, hr, rfl⟩ := map_eq_ok_iff.1 h
    obtain ⟨hw, hs⟩ := ih hr
    have hchar : isWordChar c = true :=
      isWordChar_eq_true_iff.2 ⟨eq_false_of_ne_true hc, he, hb, hq⟩
    have hword : (Lexeme.word (String.ofList (c :: word.1))).IsWhole := by
      rw [Lexeme.IsWhole, String.toList_ofList]
      refine ⟨?_, List.forall_mem_cons.2 ⟨hchar, fun d hd => isWordChar_of_mem_readWord hd⟩⟩
      intro hn
      simpa using congrArg String.toList hn
    refine ⟨List.forall_mem_cons.2 ⟨hword, hw⟩, ?_⟩
    have hsp := @Spaced.spelling_append (.word (String.ofList (c :: word.1))) _ _ hs
      fun _ hp => hs.head?_isBlank hw hp isWordChar_of_head?_readWord
    rwa [Lexeme.spelling, String.toList_ofList, List.cons_append, readWord_append_eq] at hsp

theorem lexemes_eq_ok_iff :
    lexemes text = .ok parts ↔ (∀ part ∈ parts, part.IsWhole) ∧ Spaced parts text :=
  ⟨spaced_of_lexemes_eq_ok, fun h => h.2.lexemes_eq h.1⟩

theorem lexemes_eq_nil_iff : lexemes text = .ok [] ↔ ∀ c ∈ text, isBlank c = true := by
  rw [lexemes_eq_ok_iff]
  apply Iff.intro
  · rintro ⟨_, h⟩
    cases h with
    | nil hg => exact hg
  · intro hg
    exact ⟨List.forall_mem_nil _, .nil hg⟩

theorem Spaced.concat_blank (hc : isBlank c = true) (h : Spaced parts text) :
    Spaced parts (text ++ [c]) := by
  induction h with
  | nil hg => exact .nil (List.forall_mem_append.2 ⟨hg, by simpa using hc⟩)
  | @cons part parts gap text hg _ hs ih =>
    rw [List.append_assoc]
    refine .cons hg ih fun hw hp => ?_
    have hb := hs hw hp
    cases text with
    | nil => cases hb
    | cons d text => exact hb

theorem lexemes_concat_blank (hc : isBlank c = true) : lexemes (text ++ [c]) = lexemes text := by
  cases h : lexemes text with
  | error cause =>
    have hne : c ≠ '"' := by
      rintro rfl
      cases hc
    rw [lexemes_eq_error_iff] at h ⊢
    rwa [List.count_append, List.count_singleton, beq_eq_false_iff_ne.2 hne]
  | ok parts =>
    rw [lexemes_eq_ok_iff] at h ⊢
    exact ⟨h.1, h.2.concat_blank hc⟩

theorem Lexeme.IsReadable.isWhole (h : part.IsReadable) : part.IsWhole := by
  cases part with
  | equals => trivial
  | bar => trivial
  | word => exact h
  | quoted => exact h.1

theorem Spells.spaced (h : Spells parts text) : Spaced parts text := by
  induction h with
  | nil hg => exact .nil fun c hc => (hg c hc).1
  | cons hg _ hs ih => exact .cons (fun c hc => (hg c hc).1) ih hs

theorem Spells.lexemes_eq (h : Spells parts text) (hr : ∀ part ∈ parts, part.IsReadable) :
    lexemes text = .ok parts :=
  h.spaced.lexemes_eq fun part hp => (hr part hp).isWhole

theorem Lexeme.IsReadable.lineFeed_not_mem (h : part.IsReadable) : '\n' ∉ part.spelling := by
  cases part with
  | equals => decide
  | bar => decide
  | word text =>
    intro hm
    exact absurd (h.2 _ hm) (by decide)
  | quoted text =>
    have hn : '\n' ∉ text.toList := h.2
    simp [Lexeme.spelling, hn]

theorem Spells.lineFeed_not_mem (h : Spells parts text) (hr : ∀ part ∈ parts, part.IsReadable) :
    '\n' ∉ text := by
  induction h with
  | nil hg => exact fun hm => (hg _ hm).2 rfl
  | cons hg _ _ ih =>
    rw [List.forall_mem_cons] at hr
    rw [List.mem_append, List.mem_append, not_or, not_or]
    exact ⟨⟨fun hm => (hg _ hm).2 rfl, hr.1.lineFeed_not_mem⟩, ih hr.2⟩

theorem withoutGaps_gap_append (hg : ∀ c ∈ gap, isBlank c = true) :
    withoutGaps false (gap ++ text) = withoutGaps false text := by
  induction gap with
  | nil => rfl
  | cons c gap ih =>
    obtain ⟨hc, hg⟩ := List.forall_mem_cons.1 hg
    have hne : c ≠ '"' := by
      rintro rfl
      cases hc
    rw [List.cons_append, withoutGaps, if_neg hne, hc]
    exact ih hg

theorem withoutGaps_word_append (hw : ∀ c ∈ word, isWordChar c = true) :
    withoutGaps false (word ++ text) = word ++ withoutGaps false text := by
  induction word with
  | nil => rfl
  | cons c word ih =>
    obtain ⟨hc, hw⟩ := List.forall_mem_cons.1 hw
    obtain ⟨hb, _, _, hq⟩ := isWordChar_eq_true_iff.1 hc
    rw [List.cons_append, withoutGaps, if_neg hq, hb, ih hw]
    rfl

theorem withoutGaps_quoted_append (hq : '"' ∉ quoted) :
    withoutGaps true (quoted ++ text) = quoted ++ withoutGaps true text := by
  induction quoted with
  | nil => rfl
  | cons c quoted ih =>
    rw [List.mem_cons, not_or] at hq
    rw [List.cons_append, withoutGaps, if_neg (Ne.symm hq.1), ih hq.2]
    rfl

theorem withoutGaps_spelling_append (hp : part.IsWhole) :
    withoutGaps false (part.spelling ++ text) = part.spelling ++ withoutGaps false text := by
  cases part with
  | equals => rfl
  | bar => rfl
  | word word => exact withoutGaps_word_append hp.2
  | quoted quoted =>
    rw [Lexeme.spelling, List.cons_append, withoutGaps, if_pos rfl, List.append_assoc,
      Bool.not_false, withoutGaps_quoted_append hp]
    simp [withoutGaps]

theorem Spaced.withoutGaps_eq (h : Spaced parts text) (hp : ∀ part ∈ parts, part.IsWhole) :
    withoutGaps false text = parts.flatMap Lexeme.spelling := by
  induction h with
  | @nil gap hg =>
    rw [← List.append_nil gap, withoutGaps_gap_append hg]
    rfl
  | @cons part parts gap text hg _ _ ih =>
    obtain ⟨hp, hps⟩ := List.forall_mem_cons.1 hp
    rw [List.append_assoc, withoutGaps_gap_append hg, withoutGaps_spelling_append hp, ih hps,
      List.flatMap_cons]

/-- A line is read just when its quotation marks pair up. The lexemes are those that it is written
with, and spelling them loses nothing but the white space between them. -/
theorem lexemes_lossless (text : List Char) :
    (∀ cause, lexemes text = .error cause ↔
      cause = .unmatchedQuote ∧ Odd (text.count '"')) ∧
    ∀ parts, (lexemes text = .ok parts ↔ (∀ part ∈ parts, part.IsWhole) ∧ Spaced parts text) ∧
      (lexemes text = .ok parts → parts.flatMap Lexeme.spelling = withoutGaps false text) := by
  apply And.intro fun _ => lexemes_eq_error_iff
  intro parts
  apply And.intro lexemes_eq_ok_iff
  intro h
  obtain ⟨hp, hs⟩ := lexemes_eq_ok_iff.1 h
  exact (hs.withoutGaps_eq hp).symm

/-- Signs stand between quotation marks, and lexemes without white space between them. -/
def crammedLine : List Char :=
  "S=\"a |\"|A \tB".toList

theorem lexemes_lossless_crammed :
    lexemes crammedLine =
      .ok [.word "S", .equals, .quoted "a |", .bar, .word "A", .word "B"] ∧
    withoutGaps false crammedLine = "S=\"a |\"|AB".toList ∧
    lexemes ('"' :: crammedLine) = .error .unmatchedQuote := by
  have hl : lexemes crammedLine =
      .ok [.word "S", .equals, .quoted "a |", .bar, .word "A", .word "B"] := by
    apply eq_ok_of_toOption
    decide +kernel
  have hs := ((lexemes_lossless crammedLine).2 _).2 hl
  have ho : Odd (('"' :: crammedLine).count '"') := by decide
  exact ⟨hl, hs.symm, ((lexemes_lossless _).1 _).2 ⟨rfl, ho⟩⟩

end PhraseGrammar.Bnf
