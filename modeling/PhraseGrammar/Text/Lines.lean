namespace PhraseGrammar

/-- The byte that ends a line. -/
def lineFeed : UInt8 := 10

/-- The byte that may stand before a line feed as a part of the line's end. -/
def carriageReturn : UInt8 := 13

/-- A line without the carriage return that stood before its line feed. -/
def dropCarriageReturn (line : List UInt8) : List UInt8 :=
  if line.getLast? = some carriageReturn then line.dropLast else line

theorem length_afterLine_lt {bytes rest : List UInt8} {b : UInt8}
    (h : bytes.dropWhile (· != lineFeed) = b :: rest) : rest.length < bytes.length := by
  have hs : (bytes.dropWhile (· != lineFeed)).length ≤ bytes.length :=
    (List.dropWhile_sublist _).length_le
  rw [h, List.length_cons] at hs
  omega

/-- The lines of a text. Each ends at a line feed, which is dropped together with one carriage
return before it. What follows the last line feed is a line of its own when it is not empty, and
keeps its carriage return. -/
def splitLines (bytes : List UInt8) : List (List UInt8) :=
  match _h : bytes.dropWhile (· != lineFeed) with
  | [] => if bytes.isEmpty then [] else [bytes]
  | _ :: rest => dropCarriageReturn (bytes.takeWhile (· != lineFeed)) :: splitLines rest
termination_by bytes.length
decreasing_by exact length_afterLine_lt ‹_›

/-- The text that a line spells in UTF-8, if it spells one. -/
def decodeLine (line : List UInt8) : Option String :=
  String.fromUTF8? ⟨line.toArray⟩

/-- The lines of a text, those that are not UTF-8 marked as unreadable. -/
def decodedLines (bytes : List UInt8) : List (Option String) :=
  (splitLines bytes).map decodeLine

theorem splitLines_nil : splitLines [] = [] := by
  rw [splitLines]
  rfl

end PhraseGrammar
