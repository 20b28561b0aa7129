import PhraseGrammar.Proofs.Bnf.Document
import PhraseGrammar.Proofs.Bnf.Spelling
import PhraseGrammar.Proofs.Text.Lines

namespace PhraseGrammar.Bnf

/-- A nonterminal is written bare, and a terminal between quotation marks. -/
def Lexeme.ofSymbol (s : Symbol) : Lexeme :=
  if isNonterminal s then .word s else .quoted s

/-- An empty right side is written as an empty text between quotation marks. -/
def lexemesOfRight : List Symbol → List Lexeme
  | [] => [.quoted ""]
  | right => right.map .ofSymbol

/-- The right sides are written with bars between them. -/
def lexemesOfRule (left : Symbol) (alternatives : List (List Symbol)) : List Lexeme :=
  .word left :: .equals :: [.bar].intercalate (alternatives.map lexemesOfRight)

/-- A line feed, or a carriage return and a line feed. -/
def IsLineEnd (text : List Char) : Prop :=
  text = ['\n'] ∨ text = ['\r', '\n']

/-- A line that is blank, or whose first visible character is a semicolon. -/
def IsRemark (line : List Char) : Prop :=
  (line.dropWhile isBlank).head? = none ∨ (line.dropWhile isBlank).head? = some ';'

instance : DecidablePred IsRemark :=
  fun _ => instDecidableOr

/-- Some productions are written down as the lines of a file. Productions that follow one another
and have one left side may share a line. -/
inductive Writes : List Production → List Char → Prop where
  | nil : Writes [] []
  | remark {productions : List Production} {line ending text : List Char}
    (hl : '\n' ∉ line) (hr : IsRemark line) (he : IsLineEnd ending)
    (h : Writes productions text) :
    Writes productions (line ++ ending ++ text)
  | rule {left : Symbol} {alternatives : List (List Symbol)} {productions : List Production}
    {line ending text : List Char} (hne : alternatives ≠ [])
    (hl : Spells (lexemesOfRule left alternatives) line) (he : IsLineEnd ending)
    (h : Writes productions text) :
    Writes (alternatives.map (⟨left, ·⟩) ++ productions) (line ++ ending ++ text)

/-- A nonterminal that can be written bare, or a terminal that can be quoted. -/
def CanBeWritten (s : Symbol) : Prop :=
  (isNonterminal s = true → ∀ c ∈ s.toList, isBlank c = false ∧ c ≠ '=' ∧ c ≠ '|' ∧ c ≠ '"') ∧
    (isTerminal s = true → '"' ∉ s.toList ∧ '\n' ∉ s.toList)

instance : DecidablePred CanBeWritten := fun s =>
  have := List.decidableBAll
    (fun c => isBlank c = false ∧ c ≠ '=' ∧ c ≠ '|' ∧ c ≠ '"') s.toList
  instDecidableAnd

/-- A grammar that a file can spell. It begins with a production of the start symbol, and no
nonterminal is without a production. -/
structure IsWritable (g : Grammar) : Prop where
  nonempty : g.productions ≠ []
  start : ∀ p ∈ g.productions.head?, p.left = g.start
  defined : ∀ p ∈ g.productions, ∀ s ∈ p.right, isNonterminal s = true →
    ∃ q ∈ g.productions, q.left = s
  symbols : ∀ p ∈ g.productions, ∀ s ∈ p.symbols, CanBeWritten s

/-- What the parts of a production need for the production to be read from a line. -/
structure IsSpellable (p : Production) : Prop where
  left : isNonterminal p.left = true
  right : "" ∉ p.right
  symbols : ∀ s ∈ p.symbols, CanBeWritten s

variable {s left : Symbol} {right : List Symbol} {alternatives : List (List Symbol)}
  {productions : List Production} {line ending text : List Char} {part : Lexeme}
  {parts : List Lexeme} {path : String} {number : Nat}

theorem isReadable_word (hs : isNonterminal s = true) (hw : CanBeWritten s) :
    (Lexeme.word s).IsReadable := by
  refine ⟨?_, ?_⟩
  · rintro rfl
    cases hs
  · intro c hc
    exact isWordChar_eq_true_iff.2 (hw.1 hs c hc)

theorem isReadable_ofSymbol (hw : CanBeWritten s) : (Lexeme.ofSymbol s).IsReadable := by
  rw [Lexeme.ofSymbol]
  split
  · rename_i hs
    exact isReadable_word hs hw
  · rename_i hs
    have ht : isTerminal s = true := by simpa [isTerminal] using hs
    exact hw.2 ht

theorem isReadable_of_mem_right (hw : ∀ s ∈ right, CanBeWritten s)
    (hp : part ∈ lexemesOfRight right) : part.IsReadable := by
  cases right with
  | nil =>
    rw [List.mem_singleton.1 hp]
    exact ⟨List.not_mem_nil, List.not_mem_nil⟩
  | cons =>
    obtain ⟨s, hs, rfl⟩ := List.mem_map.1 hp
    exact isReadable_ofSymbol (hw s hs)

theorem mem_intercalate {α : Type} {separator x : α} {pieces : List (List α)}
    (h : x ∈ [separator].intercalate pieces) : x = separator ∨ ∃ piece ∈ pieces, x ∈ piece := by
  induction pieces with
  | nil => cases h
  | cons piece pieces ih =>
    by_cases hn : pieces = []
    · rw [hn, List.intercalate_singleton] at h
      exact .inr ⟨piece, List.mem_cons_self, h⟩
    · rw [List.intercalate_cons_of_ne_nil hn, List.mem_append, List.mem_append,
        List.mem_singleton] at h
      rcases h with (h | h) | h
      · exact .inr ⟨piece, List.mem_cons_self, h⟩
      · exact .inl h
      · rcases ih h with h | ⟨other, hm, h⟩
        · exact .inl h
        · exact .inr ⟨other, List.mem_cons_of_mem _ hm, h⟩

theorem isReadable_of_mem_rule (hp : ∀ right ∈ alternatives, IsSpellable ⟨left, right⟩)
    (hne : alternatives ≠ []) (hm : part ∈ lexemesOfRule left alternatives) :
    part.IsReadable := by
  rw [lexemesOfRule, List.mem_cons, List.mem_cons] at hm
  rcases hm with rfl | rfl | hm
  · obtain ⟨right, hr⟩ := List.exists_mem_of_ne_nil _ hne
    exact isReadable_word (hp right hr).left ((hp right hr).symbols left List.mem_cons_self)
  · trivial
  · rcases mem_intercalate hm with rfl | ⟨piece, hpiece, hm⟩
    · trivial
    · obtain ⟨right, hr, rfl⟩ := List.mem_map.1 hpiece
      exact isReadable_of_mem_right
        (fun s hs => (hp right hr).symbols s (List.mem_cons_of_mem _ hs)) hm

theorem denotes_ofSymbol (hs : s ≠ "") : Denotes (.ofSymbol s) (some s) := by
  rw [Lexeme.ofSymbol]
  split
  · rename_i hn
    exact .word hn
  · rename_i hn
    exact .quoted (by simpa [isTerminal] using hn) hs

theorem isAlternative_lexemesOfRight (h : "" ∉ right) :
    IsAlternative (lexemesOfRight right) right := by
  cases right with
  | nil => exact ⟨List.cons_ne_nil _ _, [none], .cons .nothing .nil, rfl⟩
  | cons s right =>
    refine ⟨List.cons_ne_nil _ _, (s :: right).map some, ?_, ?_⟩
    · rw [lexemesOfRight, List.forall₂_map_left_iff, List.forall₂_map_right_iff, List.forall₂_same]
      · intro s hs
        exact denotes_ofSymbol fun he => h (he ▸ hs)
      · exact List.cons_ne_nil _ _
    · simp [List.filterMap_map]

theorem ofLexemes_lexemesOfRule {location : Location}
    (hp : ∀ right ∈ alternatives, IsSpellable ⟨left, right⟩) (hne : alternatives ≠ []) :
    Rule.ofLexemes location (lexemesOfRule left alternatives) =
      .ok ⟨left, alternatives, location⟩ := by
  obtain ⟨first, hf⟩ := List.exists_mem_of_ne_nil _ hne
  have ha : List.Forall₂ IsAlternative (alternatives.map lexemesOfRight) alternatives := by
    rw [List.forall₂_map_left_iff, List.forall₂_same]
    exact fun right hr => isAlternative_lexemesOfRight (hp right hr).right
  exact Rule.ofLexemes_eq_ok_iff.2 ⟨(hp first hf).left, rfl, _, rfl,
    alternativesOf_eq_ok_iff.2 ⟨_, by simpa using hne, rfl, ha⟩⟩

theorem holdsRule_of_spells (h : Spells (.word s :: parts) line) (hs : isNonterminal s = true)
    (hw : CanBeWritten s) : holdsRule (String.ofList line) = true := by
  cases h with
  | @cons _ _ gap rest hg =>
    have hd : ∀ c ∈ gap, isBlank c = true := fun c hc => (hg c hc).1
    rw [holdsRule, String.toList_ofList, List.append_assoc, List.dropWhile_append_of_pos hd,
      Lexeme.spelling]
    cases hc : s.toList with
    | nil => simp [isNonterminal, hc] at hs
    | cons c chars =>
      have hu : isUppercase c = true := by simpa [isNonterminal, hc] using hs
      have hb := (hw.1 hs c (hc ▸ List.mem_cons_self)).1
      have hne : c ≠ ';' := by
        intro he
        rw [he] at hu
        exact absurd hu (by decide)
      rw [List.cons_append, List.dropWhile_cons_of_neg (by simp [hb])]
      simpa using hne

theorem IsRemark.holdsRule_eq_false (h : IsRemark line) :
    holdsRule (String.ofList line) = false := by
  rw [holdsRule, String.toList_ofList]
  cases hd : line.dropWhile isBlank with
  | nil => rfl
  | cons c rest =>
    rw [IsRemark, hd] at h
    simpa using h

theorem holdsRule_concat_blank {c : Char} (hc : isBlank c = true) :
    holdsRule (String.ofList (line ++ [c])) = holdsRule (String.ofList line) := by
  rw [holdsRule, holdsRule, String.toList_ofList, String.toList_ofList, List.dropWhile_append]
  cases line.dropWhile isBlank with
  | nil => simp [hc]
  | cons => rfl

/-- It makes no difference to a line whether a carriage return at its end belongs to it. -/
theorem readLine?_concat_return : readLine? path number (some (String.ofList (line ++ ['\r']))) =
    readLine? path number (some (String.ofList line)) := by
  have hr : isBlank '\r' = true := by decide
  rw [readLine?, readLine?, holdsRule_concat_blank hr, Rule.ofLine, Rule.ofLine,
    String.toList_ofList, String.toList_ofList, lexemes_concat_blank hr]

theorem readLine?_withoutReturn :
    readLine? path number (some (String.ofList (withoutReturn line))) =
      readLine? path number (some (String.ofList line)) := by
  rcases List.eq_nil_or_concat line with rfl | ⟨init, c, rfl⟩
  · rfl
  · rw [List.concat_eq_append, withoutReturn, List.getLast?_concat, List.dropLast_concat]
    split
    · rename_i hc
      cases hc
      rw [readLine?_concat_return]
    · rfl

theorem readLines_line (hl : '\n' ∉ line) (he : IsLineEnd ending) :
    readLines path number (decodedLines (utf8 (line ++ ending ++ text))) =
      (readLine? path number (some (String.ofList line))).toList ++
        readLines path (number + 1) (decodedLines (utf8 text)) := by
  rcases he with rfl | rfl
  · rw [List.append_assoc, List.singleton_append, decodedLines_utf8_cons hl, readLines,
      readLine?_withoutReturn]
  · have hr : '\n' ∉ line ++ ['\r'] := by simp [hl]
    have hs : line ++ ['\r', '\n'] ++ text = line ++ ['\r'] ++ '\n' :: text := by simp
    rw [hs, decodedLines_utf8_cons hr, readLines, readLine?_withoutReturn, readLine?_concat_return]

theorem readLine?_of_spells (hl : Spells (lexemesOfRule left alternatives) line)
    (hp : ∀ right ∈ alternatives, IsSpellable ⟨left, right⟩) (hne : alternatives ≠ []) :
    readLine? path number (some (String.ofList line)) =
      some (.ok ⟨left, alternatives, .inFile path number⟩) := by
  obtain ⟨first, hf⟩ := List.exists_mem_of_ne_nil _ hne
  have hh := holdsRule_of_spells hl (hp first hf).left ((hp first hf).symbols _ List.mem_cons_self)
  have hr : ∀ part ∈ lexemesOfRule left alternatives, part.IsReadable :=
    fun part hm => isReadable_of_mem_rule hp hne hm
  rw [readLine?, if_pos hh]
  refine congrArg some (Rule.ofLine_eq_ok_iff.2 ⟨_, ?_, ofLexemes_lexemesOfRule hp hne⟩)
  rw [String.toList_ofList]
  exact hl.lexemes_eq hr

/-- From a file in which some productions are written, rules are read that stand for them. -/
theorem readLines_of_writes (path : String) (number : Nat) (h : Writes productions text)
    (hp : ∀ p ∈ productions, IsSpellable p) :
    ∃ rules : List Rule, readLines path number (decodedLines (utf8 text)) = rules.map .ok ∧
      rules.flatMap (·.productions) = productions ∧ ∀ rule ∈ rules, rule.alternatives ≠ [] := by
  induction h generalizing number with
  | nil =>
    refine ⟨[], ?_, rfl, List.forall_mem_nil _⟩
    rw [utf8, List.flatMap_nil, decodedLines, splitLines_nil]
    rfl
  | remark hn hb he _ ih =>
    obtain ⟨rules, hr, hps, hne⟩ := ih (number + 1) hp
    refine ⟨rules, ?_, hps, hne⟩
    rw [readLines_line hn he, readLine?, hb.holdsRule_eq_false, hr]
    rfl
  | @rule left alternatives _ _ _ _ hne hl he _ ih =>
    rw [List.forall_mem_append, List.forall_mem_map] at hp
    obtain ⟨rules, hr, hps, hnes⟩ := ih (number + 1) hp.2
    have hn := hl.lineFeed_not_mem fun part hm => isReadable_of_mem_rule hp.1 hne hm
    refine ⟨⟨left, alternatives, .inFile path number⟩ :: rules, ?_, ?_, ?_⟩
    · rw [readLines_line hn he, readLine?_of_spells hl hp.1 hne, hr]
      rfl
    · rw [List.flatMap_cons, hps]
      rfl
    · exact List.forall_mem_cons.2 ⟨hne, hnes⟩

theorem faultsOf_map_ok (rules : List Rule) : faultsOf (rules.map .ok) = [] := by
  simp [faultsOf, List.filterMap_map]

theorem rulesOf_map_ok (rules : List Rule) : rulesOf (rules.map .ok) = rules := by
  simp [rulesOf, List.filterMap_map]

theorem assemble_of_productions {g : Grammar} {rules : List Rule} (hg : g.WellFormed)
    (hw : IsWritable g) (hp : rules.flatMap (·.productions) = g.productions)
    (hne : ∀ rule ∈ rules, rule.alternatives ≠ []) : assemble path rules = .ok g := by
  cases rules with
  | nil => exact absurd hp.symm hw.nonempty
  | cons first rules =>
    have hm : ∀ p, p ∈ g.productions ↔ ∃ rule ∈ first :: rules, p ∈ rule.productions := by
      intro p
      rw [← hp, List.mem_flatMap]
    have hu : undefinedFaults (first :: rules) = [] := by
      rw [undefinedFaults_eq_nil_iff]
      intro rule hr s hs
      obtain ⟨right, ha, hs⟩ := List.mem_flatten.1 hs
      intro hn
      have hpm := (hm ⟨rule.symbol, right⟩).2 ⟨rule, hr, List.mem_map_of_mem ha⟩
      obtain ⟨q, hq, rfl⟩ := hw.defined _ hpm s hs hn.1
      obtain ⟨rule', hr', hq⟩ := (hm q).1 hq
      obtain ⟨_, _, rfl⟩ := List.mem_map.1 hq
      exact hn.2 rule' hr' rfl
    have hs : first.symbol = g.start := by
      cases ha : first.alternatives with
      | nil => exact absurd ha (hne first List.mem_cons_self)
      | cons right _ =>
        apply hw.start ⟨first.symbol, right⟩
        rw [← hp, List.flatMap_cons, Rule.productions, ha]
        rfl
    rw [assemble, hu, hp, hs, hg.validate_eq]

/-- A grammar is read back from a file in which it is written, whatever the layout. -/
theorem readDocument_of_writes {start : Symbol} {given : List Production} {g : Grammar}
    {text : String} (path : String) (hg : Grammar.validate start given = .ok g)
    (hw : IsWritable g) (ht : Writes g.productions text.toList) :
    readDocument path text.toUTF8.data.toList = .ok g := by
  have hgw : g.WellFormed := (Grammar.validate_eq_ok_iff.1 hg).2
  have hp : ∀ p ∈ g.productions, IsSpellable p := fun p hm =>
    ⟨hgw.left p hm, hgw.right p hm, hw.symbols p hm⟩
  obtain ⟨rules, hr, hps, hne⟩ := readLines_of_writes path 1 ht hp
  rw [toList_toUTF8, readDocument, hr, faultsOf_map_ok, rulesOf_map_ok]
  exact assemble_of_productions hgw hw hps hne

/-- Its symbols hold marks that mean something else between them. -/
def punctuated : Grammar :=
  ⟨"S", [⟨"S", [";=|", "A-1"]⟩, ⟨"S", []⟩, ⟨"A-1", ["x\ry"]⟩]⟩

/-- Lines of it are grouped, or apart, and the ends of lines differ. -/
def punctuatedText : String :=
  "; S =\r\nS= \";=|\"A-1|\"\"\n \nA-1 =\"x\ry\"\r\n"

theorem isWritable_punctuated : IsWritable punctuated where
  nonempty := by decide
  start := by decide
  defined := by decide
  symbols := by decide

theorem writes_punctuated : Writes punctuated.productions punctuatedText.toList := by
  refine @Writes.remark _ "; S =".toList _ _ (by decide) (by decide) (.inr rfl) ?_
  refine @Writes.rule "S" [[";=|", "A-1"], []] _ "S= \";=|\"A-1|\"\"".toList _ _ (by decide) ?_
    (.inl rfl) ?_
  · refine @Spells.cons _ _ [] _ (by decide) ?_ (by decide)
    refine @Spells.cons _ _ [] _ (by decide) ?_ (by decide)
    refine @Spells.cons _ _ [' '] _ (by decide) ?_ (by decide)
    refine @Spells.cons _ _ [] _ (by decide) ?_ (by decide)
    refine @Spells.cons _ _ [] _ (by decide) ?_ (by decide)
    refine @Spells.cons _ _ [] _ (by decide) ?_ (by decide)
    exact .nil (by decide)
  · refine @Writes.remark _ [' '] _ _ (by decide) (by decide) (.inl rfl) ?_
    refine @Writes.rule "A-1" [["x\ry"]] _ "A-1 =\"x\ry\"".toList _ _ (by decide) ?_
      (.inr rfl) .nil
    refine @Spells.cons _ _ [] _ (by decide) ?_ (by decide)
    refine @Spells.cons _ _ [' '] _ (by decide) ?_ (by decide)
    refine @Spells.cons _ _ [] _ (by decide) ?_ (by decide)
    exact .nil (by decide)

theorem readDocument_punctuated :
    readDocument "marks.txt" punctuatedText.toUTF8.data.toList = .ok punctuated := by
  have hv : Grammar.validate "S" punctuated.productions = .ok punctuated := rfl
  exact readDocument_of_writes "marks.txt" hv isWritable_punctuated writes_punctuated

end PhraseGrammar.Bnf
