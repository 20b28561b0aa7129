import PhraseGrammar.Text.CodeRange

namespace PhraseGrammar

/-- The code points with the Unicode property White_Space. The zero-width space, the byte order
mark and the information separators are not among them. -/
def blankRanges : List CodeRange :=
  [⟨0x9, 0xD, 1⟩, ⟨0x20, 0x20, 1⟩, ⟨0x85, 0x85, 1⟩, ⟨0xA0, 0xA0, 1⟩, ⟨0x1680, 0x1680, 1⟩,
  ⟨0x2000, 0x200A, 1⟩, ⟨0x2028, 0x2029, 1⟩, ⟨0x202F, 0x202F, 1⟩, ⟨0x205F, 0x205F, 1⟩,
  ⟨0x3000, 0x3000, 1⟩]

/-- White space in the sense of the property White_Space. -/
def isBlank (c : Char) : Bool :=
  CodeRange.covers blankRanges c.toNat

/-- Drops the white space at both ends. -/
def trimBlanks (text : List Char) : List Char :=
  ((text.dropWhile isBlank).reverse.dropWhile isBlank).reverse

/-- Puts a character in front of the first of the words that follow it. -/
def extendWord (c : Char) : List (List Char) → List (List Char)
  | [] => [[c]]
  | word :: words => (c :: word) :: words

/-- Cuts a text at each white space. Two neighbouring blanks have an empty piece between them. -/
def splitAtBlanks : List Char → List (List Char)
  | [] => [[]]
  | c :: text => if isBlank c then [] :: splitAtBlanks text else extendWord c (splitAtBlanks text)

/-- The maximal runs of characters that are not white space. -/
def words (text : List Char) : List (List Char) :=
  (splitAtBlanks text).filter (! ·.isEmpty)

theorem splitAtBlanks_ne_nil (text : List Char) : splitAtBlanks text ≠ [] := by
  cases text with
  | nil => simp [splitAtBlanks]
  | cons c text =>
    rw [splitAtBlanks]
    split
    · simp
    · cases splitAtBlanks text <;> simp [extendWord]

end PhraseGrammar
