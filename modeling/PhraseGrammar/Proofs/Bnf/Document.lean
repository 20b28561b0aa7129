import PhraseGrammar.Bnf.Document
import PhraseGrammar.Grammar.WellFormed
import PhraseGrammar.Proofs.Bnf.Rule
import PhraseGrammar.Proofs.FirstAppearance

namespace PhraseGrammar.Bnf

/-- A line whose trimmed text is not empty and does not begin with a semicolon. -/
def isRuleLine : Option String × Nat → Bool
  | (none, _) => false
  | (some line, _) =>
    !(trimBlanks line.toList).isEmpty && (trimBlanks line.toList).head? != some ';'

/-- A line that is not UTF-8, or a rule line that cannot be read. -/
def isBadLine (path : String) : Option String × Nat → Bool
  | (none, _) => true
  | (some line, number) =>
    isRuleLine (some line, number) && !(Rule.ofLine line ⟨.file path, number⟩).isOk

/-- What is told of a bad line, and where. -/
inductive TellsFault (path : String) : Option String × Nat → Fault ReadError → Prop where
  | unreadable (number : Nat) :
    TellsFault path (none, number) ⟨⟨.file path, 0⟩, .fileError .invalidText⟩
  | mistake {line : String} {number : Nat} {cause : ReadError}
    (h : Rule.ofLine line ⟨.file path, number⟩ = .error ⟨⟨.file path, number⟩, cause⟩) :
    TellsFault path (some line, number) ⟨⟨.file path, number⟩, cause⟩

/-- What is read from a rule line. -/
inductive TellsRule (path : String) : Option String × Nat → Rule → Prop where
  | rule {line : String} {number : Nat} {rule : Rule}
    (h : Rule.ofLine line ⟨.file path, number⟩ = .ok rule)
    (hl : rule.location = ⟨.file path, number⟩) : TellsRule path (some line, number) rule

/-- A nonterminal for which there is no rule. -/
def IsUndefined (rules : List Rule) (s : Symbol) : Prop :=
  isNonterminal s = true ∧ ∀ rule ∈ rules, rule.symbol ≠ s

/-- What is told of the undefined nonterminals on the right sides of a rule. -/
def TellsUndefined (rules : List Rule) (rule : Rule) (faults : List (Fault ReadError)) : Prop :=
  ∃ symbols, FirstAppearances rule.alternatives.flatten (IsUndefined rules) symbols ∧
    faults = symbols.map fun s => ⟨rule.location, .undefinedNonterminal s⟩

/-- What the numbered lines of a file come to. Bad lines are told before all else, then that there
is no rule, then undefined nonterminals. -/
inductive Outcome (path : String) (lines : List (Option String × Nat)) :
    Except (List (Fault ReadError)) Grammar → Prop where
  | badLines {faults : List (Fault ReadError)} (hb : lines.filter (isBadLine path) ≠ [])
    (hf : List.Forall₂ (TellsFault path) (lines.filter (isBadLine path)) faults) :
    Outcome path lines (.error faults)
  | noRules (hb : lines.filter (isBadLine path) = []) (hr : lines.filter isRuleLine = []) :
    Outcome path lines (.error [⟨⟨.file path, 0⟩, .noRules⟩])
  | undefinedSymbols {rules : List Rule} {faults : List (List (Fault ReadError))}
    (hb : lines.filter (isBadLine path) = [])
    (hr : List.Forall₂ (TellsRule path) (lines.filter isRuleLine) rules)
    (hu : ∃ rule ∈ rules, ∃ s ∈ rule.alternatives.flatten, IsUndefined rules s)
    (hf : List.Forall₂ (TellsUndefined rules) rules faults) :
    Outcome path lines (.error faults.flatten)
  | grammar {first : Rule} {rules : List Rule} {g : Grammar}
    (hb : lines.filter (isBadLine path) = [])
    (hr : List.Forall₂ (TellsRule path) (lines.filter isRuleLine) (first :: rules))
    (hd : ∀ rule ∈ first :: rules, ∀ s ∈ rule.alternatives.flatten,
      ¬IsUndefined (first :: rules) s)
    (hs : g.start = first.symbol)
    (hp : FirstAppearances
      ((first :: rules).flatMap fun rule => rule.alternatives.map fun right => ⟨rule.symbol, right⟩)
      (fun _ => True) g.productions) : Outcome path lines (.ok g)

variable {path : String} {number : Nat} {line : Option String} {lines : List (Option String)}
  {rule : Rule} {rules : List Rule} {s : Symbol}

/-- Trimming at the end does not touch the first visible character. -/
theorem holdsRule_eq_isRuleLine (text : String) (number : Nat) :
    holdsRule text = isRuleLine (some text, number) := by
  rw [holdsRule, isRuleLine, trimBlanks]
  split
  · rename_i he
    rw [he]
    rfl
  · rename_i c rest he
    have hc : isBlank c = false := by
      have hd := List.head?_dropWhile_not isBlank text.toList
      rw [he] at hd
      simpa using hd
    have ht : ((c :: rest).reverse.dropWhile isBlank).reverse =
        c :: (rest.reverse.dropWhile isBlank).reverse := by
      rw [List.reverse_cons, List.dropWhile_append]
      split
      · rename_i hn
        rw [List.isEmpty_iff.1 hn, List.dropWhile_cons_of_neg (by simp [hc])]
        rfl
      · rw [List.reverse_append, List.reverse_singleton, List.singleton_append]
    rw [he, ht]
    rfl

/-- A line is bad and told, or it is a rule line that is read, or nothing comes of it. -/
theorem readLine?_cases (path : String) (number : Nat) (line : Option String) :
    (∃ fault, readLine? path number line = some (.error fault) ∧
      isBadLine path (line, number) = true ∧ TellsFault path (line, number) fault) ∨
    (∃ rule, readLine? path number line = some (.ok rule) ∧
      isBadLine path (line, number) = false ∧ isRuleLine (line, number) = true ∧
      TellsRule path (line, number) rule) ∨
    (readLine? path number line = none ∧ isBadLine path (line, number) = false ∧
      isRuleLine (line, number) = false) := by
  cases line with
  | none => exact .inl ⟨_, rfl, rfl, .unreadable number⟩
  | some text =>
    rw [readLine?, holdsRule_eq_isRuleLine text number, isBadLine, Location.inFile]
    cases hr : isRuleLine (some text, number) with
    | false => exact .inr (.inr ⟨rfl, rfl, rfl⟩)
    | true =>
      cases h : Rule.ofLine text ⟨.file path, number⟩ with
      | error fault =>
        obtain ⟨location, cause⟩ := fault
        obtain rfl : location = ⟨.file path, number⟩ := Rule.location_of_ofLine_eq_error h
        exact .inl ⟨_, rfl, rfl, .mistake h⟩
      | ok rule =>
        have hl := (Rule.wellFormed_of_ofLine h).2
        exact .inr (.inl ⟨rule, rfl, rfl, rfl, .rule h hl⟩)

theorem forall₂_faultsOf_readLines :
    List.Forall₂ (TellsFault path) ((lines.zipIdx number).filter (isBadLine path))
      (faultsOf (readLines path number lines)) := by
  induction lines generalizing number with
  | nil => exact .nil
  | cons line lines ih =>
    rw [List.zipIdx_cons, readLines]
    rcases readLine?_cases path number line with ⟨fault, he, hb, ht⟩ | ⟨rule, he, hb, _⟩ |
      ⟨he, hb, _⟩
    · rw [he, List.filter_cons_of_pos hb]
      exact .cons ht ih
    · rw [he, List.filter_cons_of_neg (by simp [hb])]
      exact ih
    · rw [he, List.filter_cons_of_neg (by simp [hb])]
      exact ih

theorem forall₂_rulesOf_readLines (h : (lines.zipIdx number).filter (isBadLine path) = []) :
    List.Forall₂ (TellsRule path) ((lines.zipIdx number).filter isRuleLine)
      (rulesOf (readLines path number lines)) := by
  induction lines generalizing number with
  | nil => exact .nil
  | cons line lines ih =>
    rw [List.zipIdx_cons] at h ⊢
    rw [readLines]
    rcases readLine?_cases path number line with ⟨fault, he, hb, ht⟩ | ⟨rule, he, hb, hr, ht⟩ |
      ⟨he, hb, hr⟩
    · rw [List.filter_cons_of_pos hb] at h
      cases h
    · rw [List.filter_cons_of_neg (by simp [hb])] at h
      rw [he, List.filter_cons_of_pos hr]
      exact .cons ht (ih h)
    · rw [List.filter_cons_of_neg (by simp [hb])] at h
      rw [he, List.filter_cons_of_neg (by simp [hr])]
      exact ih h

theorem isUndefined_iff :
    IsUndefined rules s ↔ (isNonterminal s && !(rules.map (·.symbol)).contains s) = true := by
  simp [IsUndefined]

theorem firstAppearances_undefinedSymbols (rules : List Rule) (rule : Rule) :
    FirstAppearances rule.alternatives.flatten (IsUndefined rules)
      (rule.undefinedSymbols (rules.map (·.symbol))) := by
  have hu : IsUndefined rules =
      fun s => (isNonterminal s && !(rules.map (·.symbol)).contains s) = true := by
    funext s
    exact propext isUndefined_iff
  rw [hu]
  exact firstAppearances_eraseDups_filter _ _

theorem undefinedFaults_eq (rules : List Rule) : ∃ faults,
    undefinedFaults rules = faults.flatten ∧ List.Forall₂ (TellsUndefined rules) rules faults := by
  refine ⟨_, rfl, ?_⟩
  rw [List.forall₂_map_right_iff, List.forall₂_same]
  intro rule _
  exact ⟨_, firstAppearances_undefinedSymbols rules rule, rfl⟩

theorem undefinedFaults_eq_nil_iff : undefinedFaults rules = [] ↔
    ∀ rule ∈ rules, ∀ s ∈ rule.alternatives.flatten, ¬IsUndefined rules s := by
  rw [undefinedFaults, List.flatMap_eq_nil_iff]
  apply forall₂_congr
  intro rule _
  rw [List.map_eq_nil_iff, List.eq_nil_iff_forall_not_mem]
  simp only [(firstAppearances_undefinedSymbols rules rule).mem_iff, not_and]

theorem validate_of_wellFormed {first : Rule} (h : ∀ rule ∈ first :: rules, rule.WellFormed) :
    Grammar.validate first.symbol ((first :: rules).flatMap (·.productions)) =
      .ok (.ofProductions first.symbol ((first :: rules).flatMap (·.productions))) := by
  rw [Grammar.validate_eq_ok_iff]
  refine ⟨rfl, .of_productions (h first List.mem_cons_self).symbol ?_ ?_⟩
  · intro p hp
    obtain ⟨rule, hr, hm⟩ := List.mem_flatMap.1 hp
    obtain ⟨right, _, rfl⟩ := List.mem_map.1 hm
    exact (h rule hr).symbol
  · intro p hp
    obtain ⟨rule, hr, hm⟩ := List.mem_flatMap.1 hp
    obtain ⟨right, ha, rfl⟩ := List.mem_map.1 hm
    exact (h rule hr).alternatives right ha

theorem exists_line_of_tellsRule {lines : List (Option String × Nat)}
    (h : List.Forall₂ (TellsRule path) lines rules) :
    ∀ rule ∈ rules, ∃ line location, Rule.ofLine line location = .ok rule := by
  intro rule hr
  obtain ⟨_, _, ht⟩ := (exists_mem_of_forall₂ h).2 rule hr
  cases ht with
  | rule h _ => exact ⟨_, _, h⟩

theorem wellFormed_of_tellsRule {lines : List (Option String × Nat)}
    (h : List.Forall₂ (TellsRule path) lines rules) : ∀ rule ∈ rules, rule.WellFormed := by
  intro rule hr
  obtain ⟨line, location, hl⟩ := exists_line_of_tellsRule h rule hr
  exact (Rule.wellFormed_of_ofLine hl).1

theorem outcome_assemble {lines : List (Option String × Nat)}
    (hb : lines.filter (isBadLine path) = [])
    (hr : List.Forall₂ (TellsRule path) (lines.filter isRuleLine) rules) :
    Outcome path lines (assemble path rules) := by
  cases rules with
  | nil => exact .noRules hb (List.forall₂_nil_right_iff.1 hr)
  | cons first rules =>
    rw [assemble]
    split
    · rename_i hu
      rw [validate_of_wellFormed (wellFormed_of_tellsRule hr)]
      exact .grammar hb hr (undefinedFaults_eq_nil_iff.1 hu) rfl (firstAppearances_distinct _)
    · rename_i faults hne
      obtain ⟨parts, he, hf⟩ := undefinedFaults_eq (first :: rules)
      rw [he]
      refine .undefinedSymbols hb hr ?_ hf
      by_contra hn
      simp only [not_exists, not_and] at hn
      exact hne (undefinedFaults_eq_nil_iff.2 hn)

theorem outcome_readDocument (path : String) (bytes : List UInt8) :
    Outcome path ((decodedLines bytes).zipIdx 1) (readDocument path bytes) := by
  have hf : List.Forall₂ (TellsFault path)
      (((decodedLines bytes).zipIdx 1).filter (isBadLine path))
      (faultsOf (readLines path 1 (decodedLines bytes))) := forall₂_faultsOf_readLines
  rw [readDocument]
  split
  · rename_i he
    rw [he, List.forall₂_nil_right_iff] at hf
    exact outcome_assemble hf (forall₂_rulesOf_readLines hf)
  · rename_i hne
    refine .badLines ?_ hf
    intro hb
    rw [hb, List.forall₂_nil_left_iff] at hf
    exact hne hf

theorem rightUnique_tellsFault : Relator.RightUnique (TellsFault path) := by
  intro _ _ _ h h'
  cases h with
  | unreadable =>
    cases h'
    rfl
  | mistake h =>
    cases h' with
    | mistake h' =>
      rw [h] at h'
      cases h'
      rfl

theorem rightUnique_tellsRule : Relator.RightUnique (TellsRule path) := by
  intro _ _ _ h h'
  cases h with
  | rule h _ =>
    cases h' with
    | rule h' _ =>
      rw [h] at h'
      cases h'
      rfl

theorem rightUnique_tellsUndefined : Relator.RightUnique (TellsUndefined rules) := by
  intro _ _ _ h h'
  obtain ⟨_, hf, rfl⟩ := h
  obtain ⟨_, hf', rfl⟩ := h'
  rw [hf.unique hf']

theorem faultsOf_readLines_eq {faults : List (Fault ReadError)}
    (h : List.Forall₂ (TellsFault path) ((lines.zipIdx number).filter (isBadLine path)) faults) :
    faultsOf (readLines path number lines) = faults :=
  rightUnique_tellsFault.forall₂ forall₂_faultsOf_readLines h

theorem readDocument_eq_assemble {bytes : List UInt8}
    (hb : ((decodedLines bytes).zipIdx 1).filter (isBadLine path) = [])
    (hr : List.Forall₂ (TellsRule path) (((decodedLines bytes).zipIdx 1).filter isRuleLine) rules) :
    readDocument path bytes = assemble path rules := by
  have he : rulesOf (readLines path 1 (decodedLines bytes)) = rules :=
    rightUnique_tellsRule.forall₂ (forall₂_rulesOf_readLines hb) hr
  have hf : faultsOf (readLines path 1 (decodedLines bytes)) = [] := by
    apply faultsOf_readLines_eq
    rw [hb]
    exact .nil
  rw [readDocument, hf, he]

theorem undefinedFaults_eq_flatten {faults : List (List (Fault ReadError))}
    (h : List.Forall₂ (TellsUndefined rules) rules faults) :
    undefinedFaults rules = faults.flatten := by
  obtain ⟨_, he, hf⟩ := undefinedFaults_eq rules
  rw [he, rightUnique_tellsUndefined.forall₂ hf h]

theorem readDocument_of_outcome {bytes : List UInt8}
    {result : Except (List (Fault ReadError)) Grammar}
    (h : Outcome path ((decodedLines bytes).zipIdx 1) result) :
    readDocument path bytes = result := by
  cases h with
  | @badLines faults hb hf =>
    rw [readDocument, faultsOf_readLines_eq hf]
    cases faults with
    | nil => exact absurd (List.forall₂_nil_right_iff.1 hf) hb
    | cons => rfl
  | noRules hb hr =>
    have hn : List.Forall₂ (TellsRule path)
        (((decodedLines bytes).zipIdx 1).filter isRuleLine) [] := hr ▸ .nil
    exact readDocument_eq_assemble hb hn
  | @undefinedSymbols rules faults hb hr hu hf =>
    rw [readDocument_eq_assemble hb hr]
    cases rules with
    | nil =>
      obtain ⟨_, hm, _⟩ := hu
      cases hm
    | cons first rules =>
      have hne : undefinedFaults (first :: rules) ≠ [] := by
        intro he
        obtain ⟨rule, hm, s, hs, hi⟩ := hu
        exact undefinedFaults_eq_nil_iff.1 he rule hm s hs hi
      rw [undefinedFaults_eq_flatten hf] at hne
      rw [assemble, undefinedFaults_eq_flatten hf]
      split
      · rename_i he
        exact absurd he hne
      · rfl
  | @grammar first rules g hb hr hd hs hp =>
    have hd' : distinct ((first :: rules).flatMap (·.productions)) = g.productions :=
      (firstAppearances_distinct _).unique hp
    have he :
        Grammar.ofProductions first.symbol ((first :: rules).flatMap (·.productions)) = g := by
      rw [Grammar.ofProductions, ← hs, hd']
    rw [readDocument_eq_assemble hb hr, assemble, undefinedFaults_eq_nil_iff.2 hd,
      validate_of_wellFormed (wellFormed_of_tellsRule hr), he]

/-- Reading a file tells exactly what is wrong with it, or gives the grammar that it spells. -/
theorem readDocument_eq_iff {bytes : List UInt8}
    {result : Except (List (Fault ReadError)) Grammar} :
    readDocument path bytes = result ↔ Outcome path ((decodedLines bytes).zipIdx 1) result := by
  apply Iff.intro
  · intro h
    exact h ▸ outcome_readDocument path bytes
  · exact readDocument_of_outcome

theorem tellsRule_of_toOption {text : String}
    (h : (Rule.ofLine text ⟨.file path, number⟩).toOption = some rule) :
    TellsRule path (some text, number) rule := by
  have ho := eq_ok_of_toOption h
  exact .rule ho (Rule.wellFormed_of_ofLine ho).2

theorem tellsFault_of_lexemes {text : String} {parts : List Lexeme} {cause : ReadError}
    (hl : (lexemes text.toList).toOption = some parts)
    (h : Rule.ofLexemes ⟨.file path, number⟩ parts = .error cause) :
    TellsFault path (some text, number) ⟨⟨.file path, number⟩, cause⟩ := by
  apply TellsFault.mistake
  simp only [Rule.ofLine, eq_ok_of_toOption hl, h]

/-- The third line is not UTF-8, and two rule lines are misspelt. -/
def damagedBytes : List UInt8 :=
  "; words\nS S\n".toUTF8.data.toList ++ [255, 10] ++ " \nS = A\nA = b\n".toUTF8.data.toList

theorem outcome_damaged : Outcome "g.txt" ((decodedLines damagedBytes).zipIdx 1) (.error
    [⟨⟨.file "g.txt", 2⟩, .missingEquals⟩, ⟨⟨.file "g.txt", 0⟩, .fileError .invalidText⟩,
    ⟨⟨.file "g.txt", 6⟩, .unquotedTerminal "b"⟩]) := by
  have hb : ((decodedLines damagedBytes).zipIdx 1).filter (isBadLine "g.txt") =
      [(some "S S", 2), (none, 3), (some "A = b", 6)] := by decide +kernel
  have hl : (lexemes "S S".toList).toOption = some [.word "S", .word "S"] := by decide +kernel
  have hl' : (lexemes "A = b".toList).toOption = some [.word "A", .equals, .word "b"] := by
    decide +kernel
  apply Outcome.badLines
  · rw [hb]
    exact List.cons_ne_nil _ _
  · rw [hb]
    exact .cons (tellsFault_of_lexemes hl rfl)
      (.cons (.unreadable 3) (.cons (tellsFault_of_lexemes hl' rfl) .nil))

/-- Two of its nonterminals have no rule, and one of them stands on two lines. -/
def incompleteBytes : List UInt8 :=
  "\nS = B A | B\n;\nS = \"a\" A".toUTF8.data.toList

theorem outcome_incomplete : Outcome "g.txt" ((decodedLines incompleteBytes).zipIdx 1) (.error
    [⟨⟨.file "g.txt", 2⟩, .undefinedNonterminal "B"⟩,
    ⟨⟨.file "g.txt", 2⟩, .undefinedNonterminal "A"⟩,
    ⟨⟨.file "g.txt", 4⟩, .undefinedNonterminal "A"⟩]) := by
  have hl : ((decodedLines incompleteBytes).zipIdx 1).filter isRuleLine =
      [(some "S = B A | B", 2), (some "S = \"a\" A", 4)] := by decide +kernel
  have hr : List.Forall₂ (TellsRule "g.txt")
      (((decodedLines incompleteBytes).zipIdx 1).filter isRuleLine)
      [⟨"S", [["B", "A"], ["B"]], ⟨.file "g.txt", 2⟩⟩, ⟨"S", [["a", "A"]], ⟨.file "g.txt", 4⟩⟩] := by
    rw [hl]
    exact .cons (tellsRule_of_toOption (by decide +kernel))
      (.cons (tellsRule_of_toOption (by decide +kernel)) .nil)
  have hs := firstAppearances_undefinedSymbols
    [⟨"S", [["B", "A"], ["B"]], ⟨.file "g.txt", 2⟩⟩, ⟨"S", [["a", "A"]], ⟨.file "g.txt", 4⟩⟩]
  have hu := (hs ⟨"S", [["B", "A"], ["B"]], ⟨.file "g.txt", 2⟩⟩).mem_iff "B"
  exact .undefinedSymbols (by decide +kernel) hr
    ⟨_, List.mem_cons_self, "B", hu.1 (by decide +kernel)⟩
    (.cons ⟨["B", "A"], hs _, rfl⟩ (.cons ⟨["A"], hs _, rfl⟩ .nil))

/-- Its first production is repeated. -/
def wholeBytes : List UInt8 :=
  "S = \"a\" S\nT = \"\"\nS = T | \"a\" S".toUTF8.data.toList

theorem outcome_whole : Outcome "g.txt" ((decodedLines wholeBytes).zipIdx 1)
    (.ok ⟨"S", [⟨"S", ["a", "S"]⟩, ⟨"T", []⟩, ⟨"S", ["T"]⟩]⟩) := by
  have hl : ((decodedLines wholeBytes).zipIdx 1).filter isRuleLine =
      [(some "S = \"a\" S", 1), (some "T = \"\"", 2), (some "S = T | \"a\" S", 3)] := by
    decide +kernel
  have hr : List.Forall₂ (TellsRule "g.txt")
      (((decodedLines wholeBytes).zipIdx 1).filter isRuleLine)
      [⟨"S", [["a", "S"]], ⟨.file "g.txt", 1⟩⟩, ⟨"T", [[]], ⟨.file "g.txt", 2⟩⟩,
      ⟨"S", [["T"], ["a", "S"]], ⟨.file "g.txt", 3⟩⟩] := by
    rw [hl]
    exact .cons (tellsRule_of_toOption (by decide +kernel))
      (.cons (tellsRule_of_toOption (by decide +kernel))
        (.cons (tellsRule_of_toOption (by decide +kernel)) .nil))
  have hp := firstAppearances_distinct [(⟨"S", ["a", "S"]⟩ : Production), ⟨"T", []⟩, ⟨"S", ["T"]⟩,
    ⟨"S", ["a", "S"]⟩]
  have hd : distinct [(⟨"S", ["a", "S"]⟩ : Production), ⟨"T", []⟩, ⟨"S", ["T"]⟩,
    ⟨"S", ["a", "S"]⟩] = [⟨"S", ["a", "S"]⟩, ⟨"T", []⟩, ⟨"S", ["T"]⟩] := by decide +kernel
  rw [hd] at hp
  exact .grammar (by decide +kernel) hr (undefinedFaults_eq_nil_iff.1 (by rfl)) rfl hp

theorem readDocument_reports :
    readDocument "g.txt" damagedBytes = .error
      [⟨⟨.file "g.txt", 2⟩, .missingEquals⟩, ⟨⟨.file "g.txt", 0⟩, .fileError .invalidText⟩,
      ⟨⟨.file "g.txt", 6⟩, .unquotedTerminal "b"⟩] ∧
    readDocument "g.txt" incompleteBytes = .error
      [⟨⟨.file "g.txt", 2⟩, .undefinedNonterminal "B"⟩,
      ⟨⟨.file "g.txt", 2⟩, .undefinedNonterminal "A"⟩,
      ⟨⟨.file "g.txt", 4⟩, .undefinedNonterminal "A"⟩] ∧
    readDocument "g.txt" ";".toUTF8.data.toList = .error [⟨⟨.file "g.txt", 0⟩, .noRules⟩] ∧
    readDocument "g.txt" wholeBytes =
      .ok ⟨"S", [⟨"S", ["a", "S"]⟩, ⟨"T", []⟩, ⟨"S", ["T"]⟩]⟩ :=
  ⟨readDocument_eq_iff.2 outcome_damaged, readDocument_eq_iff.2 outcome_incomplete,
    readDocument_eq_iff.2 (.noRules (by decide +kernel) (by decide +kernel)),
    readDocument_eq_iff.2 outcome_whole⟩

end PhraseGrammar.Bnf
