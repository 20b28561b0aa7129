import PhraseGrammar.Proofs.Bnf.Document
import PhraseGrammar.Proofs.Bnf.Mistake
import PhraseGrammar.Proofs.Bnf.Spelling

namespace PhraseGrammar.Bnf

variable {parts piece before after : List Lexeme} {cause : ReadError} {location : Location}
  {line path : String} {fault : Fault ReadError} {faults : List (Fault ReadError)}
  {bytes : List UInt8}

/-- The mistakes of the reader and not of the file. -/
def ReadError.isInternal : ReadError → Bool
  | .unsplitAlternatives => true
  | .unexpectedBlankLine => true
  | .invalidGrammar _ => true
  | _ => false

theorem bar_not_mem_of_mem_splitOn (h : piece ∈ parts.splitOn .bar) : Lexeme.bar ∉ piece := by
  induction parts generalizing piece with
  | nil =>
    rw [List.splitOn_nil, List.mem_singleton] at h
    rw [h]
    exact List.not_mem_nil
  | cons part parts ih =>
    rw [List.splitOn_cons_eq_if_modifyHead] at h
    split at h
    · rcases List.mem_cons.1 h with rfl | h
      · exact List.not_mem_nil
      · exact ih h
    · rename_i hne
      obtain ⟨first, rest, he⟩ := List.exists_cons_of_ne_nil (List.splitOn_ne_nil .bar parts)
      rw [he] at h ih
      rcases List.mem_cons.1 h with rfl | h
      · intro hb
        rcases List.mem_cons.1 hb with rfl | hb
        · exact hne (beq_self_eq_true _)
        · exact ih List.mem_cons_self hb
      · exact ih (List.mem_cons_of_mem _ h)

theorem Offends.isInternal (h : Offends before after cause) : cause.isInternal = false := by
  cases h <;> rfl

theorem FirstMistake.isInternal {outcome : Except ReadError (List Lexeme)}
    (h : FirstMistake outcome cause) (hne : outcome ≠ .ok []) : cause.isInternal = false := by
  cases h with
  | openQuote => rfl
  | blank => exact absurd rfl hne
  | nonterminal => rfl
  | equals => rfl
  | offence _ h =>
    obtain ⟨_, _, _, ho, _⟩ := h
    exact ho.isInternal

/-- The first visible character of a rule line belongs to some lexeme. -/
theorem lexemes_ne_nil_of_holdsRule (h : holdsRule line = true) : lexemes line.toList ≠ .ok [] := by
  intro hn
  rw [lexemes_eq_nil_iff] at hn
  have hd : line.toList.dropWhile isBlank = [] := List.dropWhile_eq_nil_iff.2 hn
  rw [holdsRule, hd] at h
  cases h

theorem isInternal_of_ofLine (hr : holdsRule line = true)
    (h : Rule.ofLine line location = .error fault) : fault.cause.isInternal = false :=
  (Rule.ofLine_eq_error_iff.1 h).2.isInternal (lexemes_ne_nil_of_holdsRule hr)

theorem TellsFault.isInternal {line : Option String × Nat} (h : TellsFault path line fault)
    (hb : isBadLine path line = true) : fault.cause.isInternal = false := by
  cases h with
  | unreadable => rfl
  | @mistake text number cause h =>
    have hr : isRuleLine (some text, number) = true := (Bool.and_eq_true_iff.1 hb).1
    rw [← holdsRule_eq_isRuleLine] at hr
    exact isInternal_of_ofLine hr h

theorem isInternal_of_readDocument (h : readDocument path bytes = .error faults) :
    ∀ fault ∈ faults, fault.cause.isInternal = false := by
  have ho := outcome_readDocument path bytes
  rw [h] at ho
  intro fault hf
  cases ho with
  | badLines _ hfs =>
    obtain ⟨line, hl, ht⟩ := (exists_mem_of_forall₂ hfs).2 fault hf
    exact ht.isInternal (List.mem_filter.1 hl).2
  | noRules =>
    obtain rfl := List.mem_singleton.1 hf
    rfl
  | undefinedSymbols _ _ _ hfs =>
    obtain ⟨told, htold, hm⟩ := List.mem_flatten.1 hf
    obtain ⟨rule, _, symbols, _, rfl⟩ := (exists_mem_of_forall₂ hfs).2 told htold
    obtain ⟨s, _, rfl⟩ := List.mem_map.1 hm
    rfl

/-- The reader never has to tell of a mistake of its own: a rule line is not blank, alternatives are
split at every bar, and what is read line by line makes a grammar. -/
theorem reader_mistakes_unreachable (path : String) (bytes : List UInt8) :
    (∀ faults, readDocument path bytes = .error faults →
      ∀ fault ∈ faults, fault.cause.isInternal = false) ∧
    (∀ line, holdsRule line = true → lexemes line.toList ≠ .ok []) ∧
    (∀ parts : List Lexeme, ∀ piece ∈ parts.splitOn .bar, Lexeme.bar ∉ piece) ∧
    ∀ first rules, (∀ rule ∈ first :: rules, ∃ line location,
        Rule.ofLine line location = .ok rule) →
      ∃ g, Grammar.validate first.symbol ((first :: rules).flatMap (·.productions)) = .ok g := by
  apply And.intro fun _ => isInternal_of_readDocument
  apply And.intro fun _ => lexemes_ne_nil_of_holdsRule
  apply And.intro fun _ _ => bar_not_mem_of_mem_splitOn
  intro first rules hr
  have hw : ∀ rule ∈ first :: rules, rule.WellFormed := by
    intro rule hm
    obtain ⟨line, location, hl⟩ := hr rule hm
    exact (Rule.wellFormed_of_ofLine hl).1
  exact ⟨_, validate_of_wellFormed hw⟩

/-- The equals sign of the second line is misspelt. -/
def misspeltText : String :=
  "S = A | \"\"\nA : \"b\""

theorem reader_mistakes_unreachable_misspelt :
    (∃ faults, readDocument "misspelt.txt" misspeltText.toUTF8.data.toList = .error faults ∧
      ∀ fault ∈ faults, fault.cause.isInternal = false) ∧
    lexemes "A : \"b\"".toList ≠ .ok [] ∧
    Lexeme.bar ∉ [Lexeme.word "A"] ∧
    ∃ g, Grammar.validate "S" [⟨"S", ["A"]⟩, ⟨"S", []⟩] = .ok g := by
  have hn : (readDocument "misspelt.txt" misspeltText.toUTF8.data.toList).toOption = none := by
    decide +kernel
  have hr : Rule.ofLine "S = A | \"\"" (.inFile "misspelt.txt" 1) =
      .ok ⟨"S", [["A"], []], .inFile "misspelt.txt" 1⟩ := by
    apply eq_ok_of_toOption
    decide +kernel
  obtain ⟨he, hl, hb, hv⟩ :=
    reader_mistakes_unreachable "misspelt.txt" misspeltText.toUTF8.data.toList
  refine ⟨?_, hl _ (by decide), hb [.word "A", .bar, .quoted ""] _ List.mem_cons_self, ?_⟩
  · cases hd : readDocument "misspelt.txt" misspeltText.toUTF8.data.toList with
    | ok g =>
      rw [hd] at hn
      cases hn
    | error faults => exact ⟨faults, rfl, he faults hd⟩
  · apply hv ⟨"S", [["A"], []], .inFile "misspelt.txt" 1⟩ []
    intro rule hm
    rw [List.mem_singleton.1 hm]
    exact ⟨_, _, hr⟩

end PhraseGrammar.Bnf
