import PhraseGrammar.Proofs.Command.Verdict

namespace PhraseGrammar

variable {g : Grammar} {tokens : List Token}

namespace Grammar

/-- A production that is left over is enough for a sentence of at least one token. -/
theorem isEmpty_normalize_iff (hw : g.WellFormed) :
    g.normalize.isEmpty = true ↔ ¬∃ tokens, tokens ≠ [] ∧ g.IsSentence tokens := by
  have hs : g.shaped.solid.WellFormed := hw.shaped.solid
  rw [isEmpty, List.isEmpty_iff, normalize_eq, productions_withoutUseless_eq_nil_iff hs]
  simp only [start_solid, yields_solid_shaped_iff hw, isSentence_iff_yields]

theorem isEmpty_normalize_iff_rejects (hw : g.WellFormed) :
    g.normalize.isEmpty = true ↔
      ∀ tokens, ((Parser.ofGrammar g.normalize).parse tokens).accepted = false := by
  rw [isEmpty_normalize_iff hw, not_exists]
  simp only [← Bool.not_eq_true, accepted_iff_isSentence hw]

end Grammar

namespace SyntaxTree

/-- Where no production leads down by more than one rank, a tree is as high as its root ranks. -/
theorem DerivedBy.rank_le_height {tree : SyntaxTree} (rank : Symbol → Nat)
    (hl : ∀ a, isTerminal a = true → rank a = 0)
    (hp : ∀ p ∈ g.productions, ∃ s ∈ p.right, rank p.left ≤ rank s + 1) (h : tree.DerivedBy g) :
    rank tree.root ≤ tree.height := by
  induction h with
  | leaf ha => exact Nat.le_of_eq (hl _ ha)
  | @node a below rule _ ih =>
    obtain ⟨s, hs, hr⟩ := hp _ rule
    obtain ⟨tree, ht, rfl⟩ := List.mem_map.1 hs
    calc rank a ≤ rank tree.root + 1 := hr
      _ ≤ tree.height + 1 := Nat.succ_le_succ (ih tree ht)
      _ ≤ heightOfAll below + 1 := Nat.succ_le_succ (height_le_heightOfAll ht)

end SyntaxTree

namespace Command

variable {session : Session} {options : Options} {tapes : Nat → Tape} {elapsed : String}
  {before between after text : String}

/-- What is said of a grammar whose normal form is empty. -/
def warningText (source : Grammar) : String :=
  "Warning: `" ++ source.start ++ "` derives no sentence, every input will be rejected\n"

theorem warnings_ofGrammar : (Session.ofGrammar g).warnings =
    if g.normalize.isEmpty then [.warn (warningText g)] else [] :=
  rfl

/-- What has been added to a text does not begin like the warning. -/
def Continues (before after : String) : Prop :=
  ∃ text, after = before ++ text ∧ text.toList.head? ≠ some 'W'

theorem continues_append (h : text.toList.head? ≠ some 'W') : Continues before (before ++ text) :=
  ⟨text, rfl, h⟩

theorem Continues.refl (text : String) : Continues text text :=
  ⟨"", String.append_empty.symm, nofun⟩

theorem Continues.trans (h : Continues before between) (h' : Continues between after) :
    Continues before after := by
  obtain ⟨first, rfl, hf⟩ := h
  obtain ⟨second, rfl, hs⟩ := h'
  refine ⟨first ++ second, String.append_assoc, ?_⟩
  -- Where the first text is empty, the second one begins the whole.
  rw [String.toList_append]
  cases h : first.toList with
  | nil => exact hs
  | cons c rest => rwa [h] at hf

theorem Continues.isPrefix (h : Continues before after) : before.toList <+: after.toList := by
  obtain ⟨text, rfl, _⟩ := h
  exact prefix_append _ _

theorem Continues.not_warning_prefix (h : Continues "" after) :
    ¬(warningText g).toList <+: after.toList := by
  obtain ⟨text, rfl, ht⟩ := h
  rw [String.empty_append]
  rintro ⟨rest, he⟩
  apply ht
  rw [← he, warningText, String.append_assoc, String.toList_append]
  rfl

/-- A fault is shown in colour. -/
theorem head?_display {Cause : Type} (message : Cause → String) (fault : Fault Cause) :
    (fault.display message ++ text).toList.head? = some '\x1b' := by
  simp only [Fault.display, String.append_assoc]
  rw [String.toList_append]
  rfl

namespace Console

theorem continues_writeSample (session : Session) (console : Console) (tape : Tape) :
    Continues console.errors (console.writeSample session tape).errors := by
  rw [writeSample]
  split
  · exact .refl _
  · apply continues_append
    rw [head?_display]
    decide

theorem continues_writeSamples (session : Session) (console : Console) (count : Nat) :
    Continues console.errors (console.writeSamples session tapes count).errors := by
  induction count with
  | zero => exact .refl _
  | succ count ih =>
    rw [writeSamples_succ]
    exact ih.trans (continues_writeSample ..)

theorem continues_perform {step : Step} (h : ∀ text, step ≠ .warn text) (console : Console) :
    Continues console.errors (console.perform session tapes elapsed step).errors := by
  cases step with
  | print | check => exact .refl _
  | sample count => exact continues_writeSamples ..
  | warn text => exact absurd rfl (h text)

theorem continues_foldl_perform {steps : List Step} (h : ∀ text, .warn text ∉ steps)
    (console : Console) :
    Continues console.errors (steps.foldl (perform session tapes elapsed) console).errors := by
  induction steps generalizing console with
  | nil => exact .refl _
  | cons step steps ih =>
    have hs : ∀ text, step ≠ .warn text := fun text he => h text (he ▸ List.mem_cons_self)
    have ht : ∀ text, .warn text ∉ steps := fun text hm => h text (List.mem_cons_of_mem _ hm)
    exact (continues_perform hs console).trans (ih ht _)

theorem errors_outcome (console : Console) (exitCode : Nat) :
    (console.outcome exitCode).errors = console.errors :=
  rfl

theorem warn_empty (text : String) : warn ⟨"", ""⟩ text = ⟨"", text⟩ := by
  rw [warn, String.empty_append]

end Console

theorem exists_steps_eq (session : Session) (options : Options) :
    ∃ steps, session.steps options = session.warnings ++ steps ∧ ∀ text, .warn text ∉ steps := by
  simp only [Session.steps, List.append_assoc]
  refine ⟨_, rfl, ?_⟩
  intro text
  simp

theorem continues_converse (session : Session) (lines : List (Option String)) (console : Console) :
    Continues console.errors (converse session elapsed lines console).errors := by
  induction lines generalizing console with
  | nil => exact .refl _
  | cons line lines ih =>
    rw [converse]
    split
    · exact continues_append (by decide)
    · exact ih console
    · exact ih _

/-- Nothing but the warning begins with its first letter. -/
theorem continues_serve (g : Grammar) (options : Options) (input : List UInt8)
    (tapes : Nat → Tape) (elapsed : String) :
    Continues (if g.normalize.isEmpty then warningText g else "")
      (serve g options input tapes elapsed).errors := by
  obtain ⟨steps, he, hs⟩ := exists_steps_eq (.ofGrammar g) options
  have hw : Continues (if g.normalize.isEmpty then warningText g else "")
      (consoleAfter (.ofGrammar g) tapes elapsed ((Session.ofGrammar g).steps options)).errors := by
    rw [he, consoleAfter_append, consoleAfter, warnings_ofGrammar]
    split
    · rw [List.foldl_cons, List.foldl_nil, Console.perform, Console.warn_empty]
      exact Console.continues_foldl_perform hs _
    · exact Console.continues_foldl_perform hs _
  cases hb : options.isBatch with
  | true =>
    rw [serve_of_isBatch hb, Console.errors_outcome]
    exact hw
  | false =>
    rw [serve_of_not_isBatch hb]
    exact hw.trans (continues_converse ..)

theorem warning_prefix_serve_iff (g : Grammar) (options : Options) (input : List UInt8)
    (tapes : Nat → Tape) (elapsed : String) :
    (warningText g).toList <+: (serve g options input tapes elapsed).errors.toList ↔
      g.normalize.isEmpty = true := by
  have hc := continues_serve g options input tapes elapsed
  cases he : g.normalize.isEmpty with
  | true =>
    rw [he, if_pos rfl] at hc
    simp [hc.isPrefix]
  | false =>
    rw [he, if_neg Bool.false_ne_true] at hc
    simp [hc.not_warning_prefix]

/-- The warning is exact. It stands at the head of the errors just when the normal form is empty,
and that is just when no sentence has a token and the parser accepts nothing; then nothing is
answered with YES. Where there is no warning, texts can be answered so just when a sentence consists
of words, and random sentences just when a derivation is not too deep to be drawn. -/
theorem warning_exact {start : Symbol} {productions : List Production}
    (h : Grammar.validate start productions = .ok g) :
    (g.normalize.isEmpty = true ↔ ¬∃ tokens, tokens ≠ [] ∧ g.IsSentence tokens) ∧
    (g.normalize.isEmpty = true ↔
      ∀ tokens, ((Parser.ofGrammar g.normalize).parse tokens).accepted = false) ∧
    (∀ options files input tapes elapsed, options.loadGrammar files = some (.ok g) →
      ∃ outcome, run options files input tapes elapsed = some outcome ∧
        ((warningText g).toList <+: outcome.errors.toList ↔
          ∀ tokens, ((Parser.ofGrammar g.normalize).parse tokens).accepted = false) ∧
        Judges g options input tapes elapsed outcome) ∧
    (g.normalize.isEmpty = true →
      (∀ text, ¬AnswersYes g text) ∧ ∀ tokens, ¬SamplesYes g tokens) ∧
    ((∃ text, AnswersYes g text) ↔
      ∃ tokens, tokens ≠ [] ∧ g.IsSentence tokens ∧ ∀ token ∈ tokens, IsWord token) ∧
    (∀ tokens, SamplesYes g tokens → tokens ≠ [] ∧ ∃ tree : SyntaxTree,
      tree.DerivedBy g ∧ tree.root = g.start ∧ tree.height ≤ 12 ∧ tree.tokens = tokens) ∧
    ((∀ a, (g.rightSides a).length < 2 ^ 32) → ∀ tree : SyntaxTree,
      tree.DerivedBy g → tree.root = g.start → tree.height ≤ 12 → tree.tokens ≠ [] →
        SamplesYes g tree.tokens) := by
  obtain ⟨_, hw⟩ := Grammar.validate_eq_ok_iff.1 h
  have he := Grammar.isEmpty_normalize_iff hw
  have hr := Grammar.isEmpty_normalize_iff_rejects hw
  refine ⟨he, hr, ?_, ?_, exists_answersYes_iff hw, fun _ => SamplesYes.exists_tree hw,
    fun hl tree => samplesYes_of_tree hw hl⟩
  · intro options files input tapes elapsed hl
    refine ⟨_, run_of_ok hl, ?_, judges_serve hw options input tapes elapsed⟩
    rw [warning_prefix_serve_iff, hr]
  · intro hn
    refine ⟨?_, ?_⟩
    · intro text ha
      exact he.1 hn ⟨_, (answersYes_iff hw).1 ha⟩
    · intro tokens hs
      obtain ⟨ht, _, hd⟩ := (samplesYes_iff hw).1 hs
      exact he.1 hn ⟨_, ht, Grammar.isSentence_of_sample hd⟩

/-- It derives the empty sentence only. -/
def hollow : Grammar :=
  ⟨"S", [⟨"S", ["A"]⟩, ⟨"S", []⟩, ⟨"A", ["A", "b"]⟩]⟩

def plain : Grammar :=
  ⟨"S", [⟨"S", ["b"]⟩]⟩

/-- Thirteen nonterminals. -/
def chainNames : List Symbol :=
  ["S", "A", "B", "C", "D", "E", "F", "G", "H", "I", "J", "K", "L"]

/-- Each nonterminal leads to the next one, and the last to a full stop, which is no word. -/
def deep : Grammar :=
  ⟨"S", chainNames.zipWith (fun a b => ⟨a, [b]⟩) (chainNames.tail ++ ["."])⟩

/-- There are three grammars in files of their own. -/
def grammarFiles : Files
  | "hollow.txt" => .file "S = A | \"\"\nA = A \"b\"".toUTF8.data.toList
  | "plain.txt" => .file "S = \"b\"".toUTF8.data.toList
  | "deep.txt" => .file ("S = A\nA = B\nB = C\nC = D\nD = E\nE = F\nF = G\nG = H\n" ++
    "H = I\nI = J\nJ = K\nK = L\nL = \".\"").toUTF8.data.toList
  | _ => .closed .missing

/-- Where the derivation stands, counted from its end. -/
def chainRank (symbol : Symbol) : Nat :=
  chainNames.length - chainNames.idxOf symbol

theorem chainRank_of_isTerminal {symbol : Symbol} (h : isTerminal symbol = true) :
    chainRank symbol = 0 := by
  have hn : symbol ∉ chainNames := by
    intro hm
    have ha : ∀ name ∈ chainNames, isTerminal name = false := by decide
    rw [ha symbol hm] at h
    cases h
  rw [chainRank, List.idxOf_eq_length hn, Nat.sub_self]

theorem eq_of_mem_sentence_deep {token : Token} (h : deep.IsSentence tokens)
    (ht : token ∈ tokens) : token = "." := by
  have hs : isTerminal token = true := h.2 token ht
  rcases (Grammar.isSentence_iff_yields.1 h).mem_right ht with hm | hm
  · rw [List.mem_singleton.1 hm] at hs
    cases hs
  · obtain ⟨p, hp, hm⟩ := hm
    have ha : ∀ p ∈ deep.productions, ∀ s ∈ p.right, isTerminal s = true → s = "." := by decide
    exact ha p hp token hm hs

/-- Without a warning, it can still be that nothing is ever answered with YES. -/
theorem no_warning_deep :
    Grammar.validate "S" deep.productions = .ok deep ∧
    (∃ outcome, run { grammarFile := some "deep.txt" } grammarFiles ".\n".toUTF8.data.toList
        (fun _ => .ofWords []) "0" = some outcome ∧
      ¬(warningText deep).toList <+: outcome.errors.toList) ∧
    (∀ text, ¬AnswersYes deep text) ∧ ∀ tokens, ¬SamplesYes deep tokens := by
  have hv : Grammar.validate "S" deep.productions = .ok deep := rfl
  obtain ⟨_, hw⟩ := Grammar.validate_eq_ok_iff.1 hv
  refine ⟨hv, ?_, ?_, ?_⟩
  · have hl : ({ grammarFile := some "deep.txt" } : Options).loadGrammar grammarFiles =
        some (.ok deep) := loadGrammar_of_file rfl (by decide +kernel)
    refine ⟨_, run_of_ok hl, ?_⟩
    rw [warning_prefix_serve_iff]
    decide +kernel
  · intro text ha
    obtain ⟨hn, hs⟩ := (answersYes_iff hw).1 ha
    obtain ⟨token, ht⟩ := List.exists_mem_of_ne_nil _ hn
    have hd := (isWord_of_mem_tokenize ht).not_punctuation
    rw [eq_of_mem_sentence_deep hs ht] at hd
    exact absurd (hd '.' (by decide)) (by decide)
  · intro tokens hs
    obtain ⟨_, tree, hd, hr, hh, _⟩ := hs.exists_tree hw
    have hp : ∀ p ∈ deep.productions, ∃ s ∈ p.right, chainRank p.left ≤ chainRank s + 1 := by
      decide
    have hk := hd.rank_le_height chainRank (fun _ => chainRank_of_isTerminal) hp
    rw [hr] at hk
    exact absurd (Nat.le_trans hk hh) (by decide)

/-- The first line that is typed comes after the greeting. -/
theorem comesTo_plain : ComesTo plain { grammarFile := some "plain.txt" }
    " B.\n".toUTF8.data.toList (fun _ => .ofWords []) "0"
    "Type a sentence and press Enter (Ctrl+D to quit):\n" "B." := by
  have hi : decodedLines " B.\n".toUTF8.data.toList = [] ++ some " B." :: [] := by decide +kernel
  have hb : "Type a sentence and press Enter (Ctrl+D to quit):\n" =
      (converse (.ofGrammar plain) "0" [] (consoleAfter (.ofGrammar plain) (fun _ => .ofWords [])
        "0" ((Session.ofGrammar plain).steps { grammarFile := some "plain.txt" }))).output := by
    decide +kernel
  rw [hb]
  exact .typed rfl hi List.not_mem_nil rfl

/-- A grammar that derives the empty sentence only is warned of. With the other one, a sentence can
be typed and a random one can be drawn. -/
theorem warning_hollow :
    (∃ outcome, run { grammarFile := some "hollow.txt" } grammarFiles "b\n".toUTF8.data.toList
        (fun _ => .ofWords []) "0" = some outcome ∧
      "Warning: `S` derives no sentence, every input will be rejected\n".toList <+:
        outcome.errors.toList) ∧
    (∀ text, ¬AnswersYes hollow text) ∧
    (∃ outcome, run { grammarFile := some "plain.txt" } grammarFiles " B.\n".toUTF8.data.toList
        (fun _ => .ofWords []) "0" = some outcome ∧
      ("Type a sentence and press Enter (Ctrl+D to quit):\nInput:  B.\nTokens: [\"b\"]\n" ++
        "Result: YES  |  Time: 0 ms\n").toList <+: outcome.output.toList) ∧
    SamplesYes plain ["b"] := by
  have hv : Grammar.validate "S" hollow.productions = .ok hollow := rfl
  have hv' : Grammar.validate "S" plain.productions = .ok plain := rfl
  have hm : ⟨"S", ["b"]⟩ ∈ plain.productions := by decide
  obtain ⟨_, hr, hp, hn, _⟩ := warning_exact hv
  obtain ⟨_, _, hp', _, _, _, hs⟩ := warning_exact hv'
  have he : hollow.normalize.isEmpty = true := by decide +kernel
  refine ⟨?_, (hn he).1, ?_, ?_⟩
  · have hl : ({ grammarFile := some "hollow.txt" } : Options).loadGrammar grammarFiles =
        some (.ok hollow) := loadGrammar_of_file rfl (by decide +kernel)
    obtain ⟨outcome, ho, hw, _⟩ := hp _ _ "b\n".toUTF8.data.toList (fun _ => .ofWords []) "0" hl
    exact ⟨outcome, ho, hw.2 (hr.1 he)⟩
  · have hl : ({ grammarFile := some "plain.txt" } : Options).loadGrammar grammarFiles =
        some (.ok plain) := loadGrammar_of_file rfl (by decide +kernel)
    obtain ⟨outcome, ho, _, hj⟩ :=
      hp' _ _ " B.\n".toUTF8.data.toList (fun _ => .ofWords []) "0" hl
    have hk : tokenize "B." = ["b"] := by decide +kernel
    have hy : plain.IsSentence ["b"] :=
      Grammar.isSentence_iff_yields.2 (.of_mem hm (.terminal rfl .nil))
    have ht := (hj.texts _ _ comesTo_plain).2 (hk ▸ ⟨List.cons_ne_nil _ _, hy⟩)
    rw [yesText, hk] at ht
    exact ⟨outcome, ho, ht⟩
  · have ht : SyntaxTree.DerivedBy plain (.node "S" [.leaf "b"]) := by
      apply SyntaxTree.DerivedBy.node hm
      simpa using SyntaxTree.DerivedBy.leaf rfl
    exact hs (fun a => Nat.lt_of_le_of_lt Grammar.length_rightSides_le (by decide)) _ ht rfl
      (by decide) (List.cons_ne_nil _ _)

end Command

end PhraseGrammar
