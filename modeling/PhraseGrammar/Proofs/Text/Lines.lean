import Mathlib.Data.List.Basic
import Mathlib.Data.List.TakeWhile
import PhraseGrammar.Text.Lines

namespace PhraseGrammar

variable {text line rest : List Char} {bytes more input before after : List UInt8} {b : UInt8}
  {c : Char}

/-- The bytes of a text in UTF-8. -/
def utf8 (text : List Char) : List UInt8 :=
  text.flatMap String.utf8EncodeChar

theorem toList_toUTF8 (text : String) : text.toUTF8.data.toList = utf8 text.toList := by
  have hb : text.toUTF8 = text.toList.utf8Encode := by
    rw [String.toUTF8_eq_toByteArray, ← String.toByteArray_ofList, String.ofList_toList]
  rw [hb]
  exact List.toList_data_toByteArray

theorem utf8_append : utf8 (text ++ rest) = utf8 text ++ utf8 rest :=
  List.flatMap_append

/-- Bytes below 128 stand for the characters of their own numbers, and occur in no other
character. -/
theorem mem_utf8EncodeChar_iff (hb : b.toNat < 128) :
    b ∈ String.utf8EncodeChar c ↔ c.toNat = b.toNat := by
  have hc : c.toNat = c.val.toNat := rfl
  rw [hc, String.utf8EncodeChar]
  generalize c.val.toNat = code
  split
  · rw [List.mem_singleton, ← UInt8.toNat_inj, UInt8.toNat_ofNat']
    omega
  · -- Every byte of a longer code is 128 or more.
    split
    · simp only [List.mem_cons, List.not_mem_nil, or_false, ← UInt8.toNat_inj, UInt8.toNat_ofNat']
      omega
    · split
      · simp only [List.mem_cons, List.not_mem_nil, or_false, ← UInt8.toNat_inj,
          UInt8.toNat_ofNat']
        omega
      · simp only [List.mem_cons, List.not_mem_nil, or_false, ← UInt8.toNat_inj,
          UInt8.toNat_ofNat']
        omega

theorem lineFeed_mem_utf8_iff : lineFeed ∈ utf8 text ↔ '\n' ∈ text := by
  have hc (c : Char) : lineFeed ∈ String.utf8EncodeChar c ↔ '\n' = c := by
    rw [mem_utf8EncodeChar_iff (by decide), eq_comm, ← Char.toNat_inj]
    rfl
  simp only [utf8, List.mem_flatMap, hc, exists_eq_right']

theorem bne_lineFeed_of_not_mem (h : lineFeed ∉ bytes) : ∀ b ∈ bytes, (b != lineFeed) = true := by
  intro b hm
  simpa using fun he : b = lineFeed => h (he ▸ hm)

theorem splitLines_append_lineFeed (h : lineFeed ∉ bytes) :
    splitLines (bytes ++ lineFeed :: more) = dropCarriageReturn bytes :: splitLines more := by
  have hb := bne_lineFeed_of_not_mem h
  have hd : (bytes ++ lineFeed :: more).dropWhile (· != lineFeed) = lineFeed :: more := by
    rw [List.dropWhile_append_of_pos hb]
    rfl
  have ht : (bytes ++ lineFeed :: more).takeWhile (· != lineFeed) = bytes := by
    rw [List.takeWhile_append_of_pos hb]
    exact List.append_nil _
  rw [splitLines]
  split
  · rename_i he
    rw [hd] at he
    cases he
  · rename_i he
    rw [hd] at he
    cases he
    rw [ht]

theorem decodedLines_append_lineFeed (h : lineFeed ∉ bytes) :
    decodedLines (bytes ++ lineFeed :: more) =
      decodeLine (dropCarriageReturn bytes) :: decodedLines more := by
  rw [decodedLines, splitLines_append_lineFeed h]
  rfl

theorem decodeLine_utf8 : decodeLine (utf8 text) = some (String.ofList text) := by
  have hb : (⟨(utf8 text).toArray⟩ : ByteArray) = (String.ofList text).toByteArray := by
    rw [String.toByteArray_ofList]
    exact ByteArray.ext List.data_toByteArray.symm
  rw [decodeLine, hb, String.fromUTF8?, dif_pos (String.ofList text).isValidUTF8]
  rfl

/-- A line without the carriage return at its end. -/
def withoutReturn (line : List Char) : List Char :=
  if line.getLast? = some '\r' then line.dropLast else line

theorem dropCarriageReturn_utf8 : dropCarriageReturn (utf8 line) = utf8 (withoutReturn line) := by
  rcases List.eq_nil_or_concat line with rfl | ⟨init, c, rfl⟩
  · rfl
  · have hu : utf8 (init ++ [c]) = utf8 init ++ String.utf8EncodeChar c := by
      rw [utf8_append, utf8, utf8, List.flatMap_singleton]
    rw [List.concat_eq_append, withoutReturn, List.getLast?_concat, List.dropLast_concat, hu,
      dropCarriageReturn, List.getLast?_append_of_ne_nil _ String.utf8EncodeChar_ne_nil]
    by_cases hc : c = '\r'
    · rw [hc]
      exact List.dropLast_concat
    · have hr : (String.utf8EncodeChar c).getLast? ≠ some carriageReturn := by
        intro he
        have hm := (mem_utf8EncodeChar_iff (by decide)).1 (List.mem_of_getLast? he)
        exact hc (Char.toNat_inj.1 hm)
      rw [if_neg hr, if_neg (by simpa using hc), hu]

/-- Lines can be told apart before or after decoding. -/
theorem decodedLines_utf8_cons (h : '\n' ∉ line) : decodedLines (utf8 (line ++ '\n' :: rest)) =
    some (String.ofList (withoutReturn line)) :: decodedLines (utf8 rest) := by
  have hl : lineFeed ∉ utf8 line := mt lineFeed_mem_utf8_iff.1 h
  have hu : utf8 (line ++ '\n' :: rest) = utf8 line ++ lineFeed :: utf8 rest := utf8_append
  rw [hu, decodedLines_append_lineFeed hl, dropCarriageReturn_utf8, decodeLine_utf8]

end PhraseGrammar
