import PhraseGrammar.Bnf.Error
import PhraseGrammar.Text.Blank

namespace PhraseGrammar.Bnf

/-- The pieces of a rule line. -/
inductive Lexeme where
  | equals
  | bar
  | word (text : String)
  | quoted (text : String)
deriving DecidableEq

/-- A bare word ends at white space and before a character that begins another lexeme. -/
def isWordChar (c : Char) : Bool :=
  !isBlank c && c != '=' && c != '|' && c != '"'

/-- The word at the beginning of a text, which may be empty, and what follows it. -/
def readWord (text : List Char) : List Char × List Char :=
  (text.takeWhile isWordChar, text.dropWhile isWordChar)

/-- The text before the next quotation mark and the text after it, if there is one. -/
def readQuoted? (text : List Char) : Option (List Char × List Char) :=
  match text.dropWhile (· != '"') with
  | [] => none
  | _ :: rest => some (text.takeWhile (· != '"'), rest)

theorem length_readQuoted_lt {text quoted rest : List Char}
    (h : readQuoted? text = some (quoted, rest)) : rest.length < text.length := by
  have hs : (text.dropWhile (· != '"')).length ≤ text.length :=
    (List.dropWhile_sublist _).length_le
  rw [readQuoted?] at h
  split at h
  · simp at h
  · rename_i hd
    rw [hd, List.length_cons] at hs
    simp only [Option.some.injEq, Prod.mk.injEq] at h
    rw [← h.2]
    omega

theorem length_readWord_le (text : List Char) : (readWord text).2.length ≤ text.length :=
  (List.dropWhile_sublist _).length_le

/-- The lexemes of a line. Only an open quotation mark makes a line unreadable. -/
def lexemes : List Char → Except ReadError (List Lexeme)
  | [] => .ok []
  | c :: text =>
    if c = '=' then (lexemes text).map (.equals :: ·)
    else if c = '|' then (lexemes text).map (.bar :: ·)
    else if c = '"' then
      match _h : readQuoted? text with
      | none => .error .unmatchedQuote
      | some (quoted, rest) => (lexemes rest).map (.quoted (String.ofList quoted) :: ·)
    else if isBlank c then lexemes text
    else
      let word := readWord text
      (lexemes word.2).map (.word (String.ofList (c :: word.1)) :: ·)
termination_by text => text.length
decreasing_by
  all_goals simp only [List.length_cons]
  · omega
  · omega
  · have := length_readQuoted_lt ‹_›
    omega
  · omega
  · have := length_readWord_le text
    omega

end PhraseGrammar.Bnf
