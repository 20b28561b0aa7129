import PhraseGrammar.Proofs.Bnf.Lexeme
import PhraseGrammar.Proofs.Bnf.Rule

namespace PhraseGrammar.Bnf

/-- What is wrong at a place between some lexemes of the right sides and those that follow: an
alternative ends where it begins, or the next lexeme has no business there. -/
inductive Offends : List Lexeme → List Lexeme → ReadError → Prop where
  | nothing {before after : List Lexeme} (hb : ∀ part ∈ before.getLast?, part = .bar)
    (ha : ∀ part ∈ after.head?, part = .bar) : Offends before after .emptyAlternative
  | equals (before after : List Lexeme) : Offends before (.equals :: after) .unexpectedEquals
  | word {s : Symbol} (hs : isTerminal s = true) (before after : List Lexeme) :
    Offends before (.word s :: after) (.unquotedTerminal s)
  | quoted {s : Symbol} (hs : isNonterminal s = true) (before after : List Lexeme) :
    Offends before (.quoted s :: after) (.quotedNonterminal s)

/-- The leftmost of the offences after some lexemes. -/
def FirstOffence (done parts : List Lexeme) (cause : ReadError) : Prop :=
  ∃ before after, before ++ after = parts ∧ Offends (done ++ before) after cause ∧
    ∀ earlier later, earlier ++ later = parts → earlier.length < before.length →
      ∀ other, ¬Offends (done ++ earlier) later other

/-- The mistake that comes first in a line, which may be that it cannot be split into lexemes. -/
inductive FirstMistake : Except ReadError (List Lexeme) → ReadError → Prop where
  | openQuote {cause : ReadError} : FirstMistake (.error cause) .unmatchedQuote
  | blank : FirstMistake (.ok []) .unexpectedBlankLine
  | nonterminal {part : Lexeme} {parts : List Lexeme}
    (h : ∀ s, part = .word s → isTerminal s = true) :
    FirstMistake (.ok (part :: parts)) .missingNonterminal
  | equals {s : Symbol} {parts : List Lexeme} (hs : isNonterminal s = true)
    (h : parts.head? ≠ some .equals) : FirstMistake (.ok (.word s :: parts)) .missingEquals
  | offence {s : Symbol} {parts : List Lexeme} {cause : ReadError} (hs : isNonterminal s = true)
    (h : FirstOffence [] parts cause) :
    FirstMistake (.ok (.word s :: .equals :: parts)) cause

variable {part : Lexeme} {parts before after done seen : List Lexeme} {right : List Symbol}
  {cause : ReadError} {rule : Rule} {fault : Fault ReadError} {location : Location} {line : String}

theorem firstOffence_nil_iff : FirstOffence done [] cause ↔ Offends done [] cause := by
  apply Iff.intro
  · rintro ⟨before, after, he, ho, _⟩
    obtain ⟨rfl, rfl⟩ := List.append_eq_nil_iff.1 he
    rwa [List.append_nil] at ho
  · intro ho
    refine ⟨[], [], rfl, ?_, fun _ _ _ h => absurd h (Nat.not_lt_zero _)⟩
    rwa [List.append_nil]

/-- The leftmost offence is at the beginning, or nothing is wrong there and it comes later. -/
theorem firstOffence_cons_iff : FirstOffence done (part :: parts) cause ↔
    Offends done (part :: parts) cause ∨
      (∀ other, ¬Offends done (part :: parts) other) ∧
        FirstOffence (done ++ [part]) parts cause := by
  apply Iff.intro
  · rintro ⟨_ | ⟨first, before⟩, after, he, ho, hf⟩
    · rw [List.append_nil] at ho
      exact .inl (he ▸ ho)
    · obtain ⟨rfl, rfl⟩ := List.cons_eq_cons.1 he
      refine .inr ⟨?_, before, after, rfl, by rwa [List.append_assoc], ?_⟩
      · have hn := hf [] (first :: (before ++ after)) rfl (Nat.succ_pos _)
        rwa [List.append_nil] at hn
      · intro earlier later he hl
        rw [List.append_assoc]
        exact hf (first :: earlier) later (congrArg (first :: ·) he) (Nat.succ_lt_succ hl)
  · rintro (ho | ⟨hn, before, after, rfl, ho, hf⟩)
    · refine ⟨[], part :: parts, rfl, ?_, fun _ _ _ h => absurd h (Nat.not_lt_zero _)⟩
      rwa [List.append_nil]
    · refine ⟨part :: before, after, rfl, by rwa [List.append_assoc] at ho, ?_⟩
      rintro (_ | ⟨first, earlier⟩) later he hl
      · rw [List.nil_append] at he
        rwa [List.append_nil, he]
      · obtain ⟨rfl, hr⟩ := List.cons_eq_cons.1 he
        have hn := hf earlier later hr (Nat.lt_of_succ_lt_succ hl)
        rwa [List.append_assoc] at hn

theorem offends_nil_iff : Offends done [] cause ↔
    (∀ part ∈ done.getLast?, part = .bar) ∧ cause = .emptyAlternative := by
  apply Iff.intro
  · intro h
    cases h with
    | nothing hb => exact ⟨hb, rfl⟩
  · rintro ⟨hb, rfl⟩
    exact .nothing hb nofun

theorem offends_bar_iff : Offends done (.bar :: parts) cause ↔
    (∀ part ∈ done.getLast?, part = .bar) ∧ cause = .emptyAlternative := by
  apply Iff.intro
  · intro h
    cases h with
    | nothing hb => exact ⟨hb, rfl⟩
  · rintro ⟨hb, rfl⟩
    exact .nothing hb fun part hp => (Option.some.inj hp).symm

theorem offends_cons_iff (hne : part ≠ .bar) :
    Offends done (part :: parts) cause ↔ symbolOf part = .error cause := by
  apply Iff.intro
  · intro h
    cases h with
    | nothing _ ha => exact absurd (ha part rfl) hne
    | equals => rfl
    | word hs =>
      rw [isTerminal, Bool.not_eq_true'] at hs
      rw [symbolOf, hs]
      rfl
    | @quoted s hs =>
      have he : s ≠ "" := by
        rintro rfl
        cases hs
      rw [symbolOf, if_neg he, if_pos hs]
  · intro h
    cases part with
    | bar => exact absurd rfl hne
    | equals =>
      cases h
      exact .equals done parts
    | word s =>
      rw [symbolOf] at h
      split at h
      · cases h
      · rename_i hs
        cases h
        exact .word (by simpa [isTerminal] using hs) done parts
    | quoted s =>
      rw [symbolOf] at h
      split at h
      · cases h
      · split at h
        · rename_i hs
          cases h
          exact .quoted hs done parts
        · cases h

/-- Where a lexeme denotes something, nothing is wrong. -/
theorem firstOffence_cons_of_ok {symbol? : Option Symbol} (hp : symbolOf part = .ok symbol?) :
    FirstOffence done (part :: parts) cause ↔ FirstOffence (done ++ [part]) parts cause := by
  have hbar : part ≠ .bar := by
    rintro rfl
    cases hp
  rw [firstOffence_cons_iff]
  simp [offends_cons_iff hbar, hp]

theorem firstOffence_cons_of_error {other : ReadError} (hbar : part ≠ .bar)
    (hp : symbolOf part = .error other) :
    FirstOffence done (part :: parts) cause ↔ other = cause := by
  rw [firstOffence_cons_iff]
  simp [offends_cons_iff hbar, hp]

theorem alternativeOf_eq_error_iff : alternativeOf parts = .error cause ↔
    parts = [] ∧ cause = .emptyAlternative ∨ parts.mapM symbolOf = .error cause := by
  cases parts with
  | nil => simp [alternativeOf, pure, Except.pure, eq_comm]
  | cons part parts =>
    rw [alternativeOf, if_neg (by simp), map_eq_error_iff]
    simp

theorem alternativesOf_eq_error_iff_of_not_mem (hb : Lexeme.bar ∉ parts) :
    alternativesOf parts = .error cause ↔ alternativeOf parts = .error cause := by
  rw [alternativesOf, List.splitOn_eq_singleton hb, mapM_cons_eq_error_iff]
  simp [pure, Except.pure]

theorem alternativesOf_append_bar_eq_error_iff (hb : Lexeme.bar ∉ before) :
    alternativesOf (before ++ .bar :: after) = .error cause ↔
      alternativeOf before = .error cause ∨
        (∃ right, alternativeOf before = .ok right) ∧ alternativesOf after = .error cause := by
  rw [alternativesOf, List.splitOn_append_cons_self_of_not_mem hb, mapM_cons_eq_error_iff]
  rfl

/-- The lexemes all denote something. -/
def AllDenote (seen : List Lexeme) : Prop :=
  ∀ part ∈ seen, ∃ symbol?, symbolOf part = .ok symbol?

namespace AllDenote

theorem concat (hs : AllDenote seen) {symbol? : Option Symbol}
    (hp : symbolOf part = .ok symbol?) : AllDenote (seen ++ [part]) :=
  List.forall_mem_append.2 ⟨hs, fun _ hm => List.mem_singleton.1 hm ▸ ⟨symbol?, hp⟩⟩

theorem bar_not_mem (hs : AllDenote seen) : Lexeme.bar ∉ seen := by
  intro hb
  obtain ⟨_, ho⟩ := hs _ hb
  cases ho

theorem alternativeOf_eq_error_iff (hs : AllDenote seen) :
    alternativeOf seen = .error cause ↔ seen = [] ∧ cause = .emptyAlternative := by
  rw [Bnf.alternativeOf_eq_error_iff]
  apply or_iff_left
  intro he
  obtain ⟨_, part, _, rfl, _, hp⟩ := mapM_eq_error_iff.1 he
  obtain ⟨_, ho⟩ := hs part (by simp)
  rw [hp] at ho
  cases ho

theorem alternativeOf_append (hs : AllDenote seen) (hp : symbolOf part = .error cause) :
    alternativeOf (seen ++ part :: after) = .error cause :=
  Bnf.alternativeOf_eq_error_iff.2
    (.inr (mapM_eq_error_iff.2 ⟨seen, part, after, rfl, hs, hp⟩))

theorem alternativesOf_append (hs : AllDenote seen) (hbar : part ≠ .bar)
    (hp : symbolOf part = .error cause) :
    alternativesOf (seen ++ part :: after) = .error cause := by
  by_cases ha : Lexeme.bar ∈ after
  · obtain ⟨rest, later, rfl, hr⟩ := List.eq_append_cons_of_mem ha
    rw [← List.cons_append, ← List.append_assoc, alternativesOf_append_bar_eq_error_iff]
    · exact .inl (hs.alternativeOf_append hp)
    · simp [hs.bar_not_mem, hr, hbar.symm]
  · rw [alternativesOf_eq_error_iff_of_not_mem]
    · exact hs.alternativeOf_append hp
    · simp [hs.bar_not_mem, ha, hbar.symm]

/-- An alternative begins where none of its lexemes has been seen. -/
theorem begins_iff (hs : AllDenote seen) (hd : ∀ part ∈ done.getLast?, part = .bar) :
    (∀ part ∈ (done ++ seen).getLast?, part = .bar) ↔ seen = [] := by
  apply Iff.intro
  · intro hb
    rcases List.eq_nil_or_concat seen with rfl | ⟨init, last, rfl⟩
    · rfl
    · have hl : last = .bar := hb last (by simp)
      exact absurd (by simp [hl]) hs.bar_not_mem
  · rintro rfl
    rwa [List.append_nil]

/-- The lexemes seen since the last bar are the beginning of an alternative. As long as they all
denote something, what is told of it and of the others is the leftmost offence after them. -/
theorem alternativesOf_eq_error_iff (hs : AllDenote seen)
    (hd : ∀ part ∈ done.getLast?, part = .bar) :
    alternativesOf (seen ++ after) = .error cause ↔ FirstOffence (done ++ seen) after cause := by
  induction after generalizing done seen with
  | nil =>
    rw [firstOffence_nil_iff, offends_nil_iff, hs.begins_iff hd, List.append_nil,
      alternativesOf_eq_error_iff_of_not_mem hs.bar_not_mem, hs.alternativeOf_eq_error_iff]
  | cons part after ih =>
    by_cases hbar : part = .bar
    · have hnext : alternativesOf after = .error cause ↔
          FirstOffence (done ++ seen ++ [.bar]) after cause := by
        have hi := @ih (done ++ seen ++ [.bar]) [] (List.forall_mem_nil _) (by simp)
        rwa [List.append_nil] at hi
      have hok : (∃ right, alternativeOf seen = .ok right) ↔
          ∀ other, ¬Offends (done ++ seen) (.bar :: after) other := by
        simp only [offends_bar_iff, hs.begins_iff hd, ← hs.alternativeOf_eq_error_iff]
        cases alternativeOf seen <;> simp
      rw [hbar, alternativesOf_append_bar_eq_error_iff hs.bar_not_mem, hok, hnext,
        hs.alternativeOf_eq_error_iff, firstOffence_cons_iff, offends_bar_iff, hs.begins_iff hd]
    · cases hp : symbolOf part with
      | error other =>
        rw [hs.alternativesOf_append hbar hp, firstOffence_cons_of_error hbar hp,
          Except.error.injEq]
      | ok symbol? =>
        have hnext := @ih done (seen ++ [part]) (hs.concat hp) hd
        rwa [List.append_assoc, List.singleton_append, ← List.append_assoc done,
          ← firstOffence_cons_of_ok hp] at hnext

end AllDenote

theorem alternativesOf_eq_error_iff :
    alternativesOf parts = .error cause ↔ FirstOffence [] parts cause :=
  @AllDenote.alternativesOf_eq_error_iff parts [] [] cause (List.forall_mem_nil _) nofun

theorem Rule.ofLexemes_eq_error_iff :
    Rule.ofLexemes location parts = .error cause ↔ FirstMistake (.ok parts) cause := by
  apply Iff.intro
  · intro h
    unfold Rule.ofLexemes at h
    split at h
    · cases h
      exact .blank
    · split at h
      · rename_i hs
        cases h
        exact .nonterminal fun _ he => Lexeme.word.inj he ▸ hs
      · rename_i s _ hs
        have hs : isNonterminal s = true := by simpa [isTerminal] using hs
        split at h
        · exact .offence hs (alternativesOf_eq_error_iff.1 (map_eq_error_iff.1 h))
        · rename_i hne
          cases h
          refine .equals hs fun he => ?_
          obtain ⟨rest, rfl⟩ := List.head?_eq_some_iff.1 he
          exact hne rest rfl
    · rename_i hw
      cases h
      exact .nonterminal fun s he => absurd he (hw s)
  · intro h
    cases h with
    | blank => rfl
    | @nonterminal part parts h =>
      cases part with
      | word s => exact if_pos (h s rfl)
      | equals | bar | quoted => rfl
    | @equals s parts hs h =>
      rw [Rule.ofLexemes, isTerminal, hs]
      · rfl
      · rintro rest rfl
        exact h rfl
    | @offence s parts _ hs h =>
      rw [Rule.ofLexemes, isTerminal, hs]
      exact map_eq_error_iff.2 (alternativesOf_eq_error_iff.2 h)

theorem Rule.ofLine_eq_error_iff : Rule.ofLine line location = .error fault ↔
    fault.location = location ∧ FirstMistake (lexemes line.toList) fault.cause := by
  obtain ⟨place, cause⟩ := fault
  rw [Rule.ofLine]
  cases hl : lexemes line.toList with
  | error other =>
    obtain ⟨rfl, _⟩ := lexemes_eq_error_iff.1 hl
    apply Iff.intro
    · intro h
      cases h
      exact ⟨rfl, .openQuote⟩
    · rintro ⟨rfl, h⟩
      cases h
      rfl
  | ok parts =>
    rw [← @Rule.ofLexemes_eq_error_iff parts cause location]
    cases ho : Rule.ofLexemes location parts <;> simp [ho, eq_comm]

/-- What is read as a rule is a nonterminal, an equals sign and alternatives with bars between them.
Of any other line the first mistake is told. -/
theorem Rule.ofLine_exact (line : String) (location : Location) :
    (∀ rule, Rule.ofLine line location = .ok rule ↔
      isNonterminal rule.symbol = true ∧ rule.location = location ∧ ∃ alternatives,
        alternatives ≠ [] ∧
          lexemes line.toList =
            .ok (.word rule.symbol :: .equals :: [.bar].intercalate alternatives) ∧
          List.Forall₂ IsAlternative alternatives rule.alternatives) ∧
    (∀ rule, Rule.ofLine line location = .ok rule →
      rule.alternatives ≠ [] ∧ ∀ right ∈ rule.alternatives, "" ∉ right) ∧
    ∀ fault, Rule.ofLine line location = .error fault ↔
      fault.location = location ∧ FirstMistake (lexemes line.toList) fault.cause := by
  refine ⟨fun rule => ?_, fun rule h => ?_, fun fault => Rule.ofLine_eq_error_iff⟩
  · simp only [Rule.ofLine_eq_ok_iff, Rule.ofLexemes_eq_ok_iff, alternativesOf_eq_ok_iff]
    apply Iff.intro
    · rintro ⟨_, hl, hs, hp, _, rfl, alternatives, hne, rfl, ha⟩
      exact ⟨hs, hp, alternatives, hne, hl, ha⟩
    · rintro ⟨hs, hp, alternatives, hne, hl, ha⟩
      exact ⟨_, hl, hs, hp, _, rfl, alternatives, hne, rfl, ha⟩
  · exact ⟨Rule.alternatives_ne_nil_of_ofLine h, (Rule.wellFormed_of_ofLine h).1.alternatives⟩

/-- The middle alternative is missing, and what comes after it is no better. -/
def blunderedLine : String :=
  "S = A | | = \"B\" c"

theorem Rule.ofLine_exact_blundered :
    Rule.ofLine "S = A \"\" | \"\"" (.inFile "rules.txt" 1) =
      .ok ⟨"S", [["A"], []], .inFile "rules.txt" 1⟩ ∧
    Rule.ofLine blunderedLine (.inFile "rules.txt" 2) =
      .error ⟨.inFile "rules.txt" 2, .emptyAlternative⟩ := by
  apply And.intro
  · have hs : isNonterminal "S" = true := by decide
    have hl : lexemes "S = A \"\" | \"\"".toList =
        .ok [.word "S", .equals, .word "A", .quoted "", .bar, .quoted ""] := by
      apply eq_ok_of_toOption
      decide +kernel
    have hf : IsAlternative [.word "A", .quoted ""] ["A"] :=
      ⟨List.cons_ne_nil _ _, _, .cons (.word (by decide)) (.cons .nothing .nil), rfl⟩
    have hn : IsAlternative [.quoted ""] [] :=
      ⟨List.cons_ne_nil _ _, _, .cons .nothing .nil, rfl⟩
    exact ((Rule.ofLine_exact _ _).1 _).2 ⟨hs, rfl, [[.word "A", .quoted ""], [.quoted ""]],
      List.cons_ne_nil _ _, hl, .cons hf (.cons hn .nil)⟩
  · have hl : lexemes blunderedLine.toList =
        .ok [.word "S", .equals, .word "A", .bar, .bar, .equals, .quoted "B", .word "c"] := by
      apply eq_ok_of_toOption
      decide +kernel
    refine ((Rule.ofLine_exact _ _).2.2 _).2 ⟨rfl, ?_⟩
    rw [hl]
    have ha : symbolOf (.word "A") = .ok (some "A") := symbolOf_eq_ok_iff.2 (.word (by decide))
    refine .offence (by decide) ((firstOffence_cons_of_ok ha).2 ?_)
    refine firstOffence_cons_iff.2 (.inr ⟨?_, firstOffence_cons_iff.2 (.inl ?_)⟩)
    · intro other ho
      obtain ⟨hb, _⟩ := offends_bar_iff.1 ho
      cases hb _ rfl
    · exact .nothing (by decide) (by decide)

end PhraseGrammar.Bnf
