import PhraseGrammar.Proofs.Agreement
import PhraseGrammar.Proofs.Command.Run
import PhraseGrammar.Proofs.Language.Sampling
import PhraseGrammar.Proofs.Text.Tokens

namespace PhraseGrammar

variable {g : Grammar} {tokens : List Token}

theorem accepted_iff_isSentence (hw : g.WellFormed) :
    ((Parser.ofGrammar g.normalize).parse tokens).accepted = true ↔
      tokens ≠ [] ∧ g.IsSentence tokens := by
  rw [accepted_normalize_iff hw, Grammar.isSentence_iff_yields]

theorem Grammar.isSentence_of_sample {depth : Nat} {tape : Tape}
    (h : (g.sample depth tape).1 = .ok tokens) : g.IsSentence tokens := by
  obtain ⟨tree, hd, hr, _, rfl⟩ := exists_tree_of_expand h
  rw [isSentence_iff_yields, ← hr]
  exact hd.yields

namespace Command

variable {options : Options} {input : List UInt8} {tapes : Nat → Tape} {elapsed : String}
  {session : Session} {before text : String} {tape : Tape}

/-- A run comes to a text, one that the options ask about or that is typed, when it has written
`before`. -/
inductive ComesTo (g : Grammar) (options : Options) (input : List UInt8) (tapes : Nat → Tape)
    (elapsed : String) : String → String → Prop where
  | asked {earlier later : List Step} {text : String}
    (hs : (Session.ofGrammar g).steps options = earlier ++ .check text :: later) :
    ComesTo g options input tapes elapsed
      (consoleAfter (.ofGrammar g) tapes elapsed earlier).output text
  | typed {earlier later : List (Option String)} {line text : String}
    (hb : options.isBatch = false) (hi : decodedLines input = earlier ++ some line :: later)
    (he : none ∉ earlier) (hl : Request.ofLine (some line) = .sentence text) :
    ComesTo g options input tapes elapsed
      (converse (.ofGrammar g) elapsed earlier (consoleAfter (.ofGrammar g) tapes elapsed
        ((Session.ofGrammar g).steps options))).output text

/-- A run draws a random sentence from a tape when it has written `before`. -/
inductive DrawsFrom (g : Grammar) (options : Options) (tapes : Nat → Tape) (elapsed : String) :
    String → Tape → Prop where
  | sample {earlier later : List Step} {count i : Nat}
    (hs : (Session.ofGrammar g).steps options = earlier ++ .sample count :: later)
    (hi : i < count) :
    DrawsFrom g options tapes elapsed (Console.writeSamples (.ofGrammar g) tapes i
      (consoleAfter (.ofGrammar g) tapes elapsed earlier)).output (tapes i)

/-- How the answer to a text begins that says YES. -/
def yesText (text elapsed : String) : String :=
  "Input:  " ++ text ++ "\nTokens: " ++ quotedList (tokenize text) ++
    "\nResult: YES  |  Time: " ++ elapsed ++ " ms\n"

/-- The line of a random sentence that is answered with YES. -/
def yesLine (tokens : List Token) : String :=
  " ".intercalate tokens ++ "  [YES]\n"

/-- A run comes to all that the options ask for. Texts are answered with YES just when their tokens
are a sentence that is not empty, and random sentences just when they are not empty. -/
structure Judges (g : Grammar) (options : Options) (input : List UInt8) (tapes : Nat → Tape)
    (elapsed : String) (outcome : Outcome) : Prop where
  asked : ∀ text, options.sentence = some text ∨ options.demo = true ∧ text ∈ demoSentences →
    ∃ before, ComesTo g options input tapes elapsed before text
  drawn : ∀ count i, options.sampleCount = some count → i < count →
    ∃ before, DrawsFrom g options tapes elapsed before (tapes i)
  texts : ∀ before text, ComesTo g options input tapes elapsed before text →
    ((before ++ yesText text elapsed).toList <+: outcome.output.toList ↔
      tokenize text ≠ [] ∧ g.IsSentence (tokenize text))
  samples : ∀ before tape tokens, DrawsFrom g options tapes elapsed before tape →
    (sampleWithin g sampleRetries tape).1 = .ok tokens →
    ((before ++ yesLine tokens).toList <+: outcome.output.toList ↔ tokens ≠ [])

/-- Some run answers a text with YES. -/
def AnswersYes (g : Grammar) (text : String) : Prop :=
  ∃ options input tapes elapsed before, ComesTo g options input tapes elapsed before text ∧
    (before ++ yesText text elapsed).toList <+:
      (serve g options input tapes elapsed).output.toList

/-- Some run answers a random sentence with YES. -/
def SamplesYes (g : Grammar) (tokens : List Token) : Prop :=
  ∃ options input tapes elapsed before tape, DrawsFrom g options tapes elapsed before tape ∧
    (sampleWithin g sampleRetries tape).1 = .ok tokens ∧
    (before ++ yesLine tokens).toList <+: (serve g options input tapes elapsed).output.toList

theorem prefix_append (text more : String) : text.toList <+: (text ++ more).toList := by
  rw [String.toList_append]
  exact List.prefix_append _ _

theorem append_prefix_append {shorter longer : String} (h : shorter.toList <+: longer.toList)
    (text : String) : (text ++ shorter).toList <+: (text ++ longer).toList := by
  rw [String.toList_append, String.toList_append]
  exact (List.prefix_append_right_inj _).2 h

theorem eq_of_append_cons {common rest rest' whole : List Char} {c d : Char}
    (h : common ++ c :: rest <+: whole) (h' : common ++ d :: rest' <+: whole) : c = d := by
  obtain ⟨more, rfl⟩ := h
  obtain ⟨more', he⟩ := h'
  rw [List.append_assoc, List.append_assoc, List.append_cancel_left_eq] at he
  exact (List.cons.inj he).1.symm

/-- Where a verdict stands, it can be read off. -/
theorem yes_prefix_iff {common rest shown whole : String} {accepted : Bool}
    (h : (before ++ (common ++ verdict accepted ++ rest)).toList <+: whole.toList)
    (hr : accepted = true → shown.toList <+: rest.toList) :
    (before ++ (common ++ "YES" ++ shown)).toList <+: whole.toList ↔ accepted = true := by
  cases accepted with
  | true =>
    have hs : (common ++ "YES" ++ shown).toList <+: (common ++ verdict true ++ rest).toList :=
      append_prefix_append (hr rfl) _
    exact iff_of_true ((append_prefix_append hs _).trans h) rfl
  | false =>
    refine iff_of_false ?_ Bool.false_ne_true
    intro hy
    have hn : before.toList ++ common.toList ++ 'N' :: 'O' :: rest.toList <+: whole.toList := by
      simpa [verdict] using h
    have hs : before.toList ++ common.toList ++ 'Y' :: 'E' :: 'S' :: shown.toList <+:
        whole.toList := by simpa using hy
    exact absurd (eq_of_append_cons hn hs) (by decide)

namespace Console

@[simp]
theorem output_outcome (console : Console) (exitCode : Nat) :
    (console.outcome exitCode).output = console.output :=
  rfl

theorem output_prefix_print (console : Console) (text : String) :
    console.output.toList <+: (console.print text).output.toList :=
  prefix_append _ _

theorem output_prefix_writeSample (session : Session) (console : Console) (tape : Tape) :
    console.output.toList <+: (console.writeSample session tape).output.toList := by
  rw [writeSample]
  split
  · exact output_prefix_print _ _
  · exact List.prefix_refl _

theorem writeSamples_succ (session : Session) (tapes : Nat → Tape) (count : Nat)
    (console : Console) : console.writeSamples session tapes (count + 1) =
      (console.writeSamples session tapes count).writeSample session (tapes count) := by
  rw [writeSamples, Nat.fold_succ]
  rfl

theorem output_prefix_writeSamples {count count' : Nat} (h : count ≤ count')
    (session : Session) (tapes : Nat → Tape) (console : Console) :
    (console.writeSamples session tapes count).output.toList <+:
      (console.writeSamples session tapes count').output.toList := by
  induction h with
  | refl => exact List.prefix_refl _
  | step _ ih =>
    rw [writeSamples_succ]
    exact ih.trans (output_prefix_writeSample ..)

theorem output_prefix_perform (console : Console) (step : Step) :
    console.output.toList <+: (console.perform session tapes elapsed step).output.toList := by
  cases step with
  | print text => exact output_prefix_print _ _
  | warn text => exact List.prefix_refl _
  | sample count => exact output_prefix_writeSamples (Nat.zero_le count) session tapes console
  | check sentence => exact output_prefix_print _ _

theorem output_prefix_foldl_perform (steps : List Step) (console : Console) :
    console.output.toList <+:
      (steps.foldl (perform session tapes elapsed) console).output.toList := by
  induction steps generalizing console with
  | nil => exact List.prefix_refl _
  | cons step steps ih => exact (output_prefix_perform console step).trans (ih _)

end Console

theorem output_prefix_converse (lines : List (Option String)) (console : Console) :
    console.output.toList <+: (converse session elapsed lines console).output.toList := by
  induction lines generalizing console with
  | nil => exact List.prefix_refl _
  | cons line lines ih =>
    rw [converse]
    split
    · exact List.prefix_refl _
    · exact ih console
    · exact (Console.output_prefix_print _ _).trans (ih _)

/-- What the pieces of work have written is not taken back. -/
theorem output_prefix_serve {earlier later : List Step}
    (h : (Session.ofGrammar g).steps options = earlier ++ later) (input : List UInt8)
    (tapes : Nat → Tape) (elapsed : String) :
    (consoleAfter (.ofGrammar g) tapes elapsed earlier).output.toList <+:
      (serve g options input tapes elapsed).output.toList := by
  have hs : (consoleAfter (.ofGrammar g) tapes elapsed earlier).output.toList <+:
      (consoleAfter (.ofGrammar g) tapes elapsed
        ((Session.ofGrammar g).steps options)).output.toList := by
    rw [h, consoleAfter_append]
    exact Console.output_prefix_foldl_perform _ _
  cases hb : options.isBatch with
  | true => rwa [serve_of_isBatch hb, Console.output_outcome]
  | false =>
    rw [serve_of_not_isBatch hb]
    exact hs.trans (output_prefix_converse _ _)

theorem converse_sentence {line : String} {later : List (Option String)}
    (h : Request.ofLine (some line) = .sentence text) (console : Console) :
    converse session elapsed (some line :: later) console = converse session elapsed later
      (console.print ((session.parser.answer text).render elapsed ++ "\n")) := by
  rw [converse, h]

/-- Each text that a run comes to is answered. -/
theorem ComesTo.answered (h : ComesTo g options input tapes elapsed before text) :
    (before ++ ((Parser.ofGrammar g.normalize).answer text).render elapsed).toList <+:
      (serve g options input tapes elapsed).output.toList := by
  cases h with
  | @asked earlier later _ hs =>
    rw [List.append_cons] at hs
    have hp := output_prefix_serve hs input tapes elapsed
    rw [consoleAfter_append] at hp
    exact hp
  | @typed earlier later line _ hb hi he hl =>
    obtain ⟨console, hc⟩ := exists_converse_append he
      (consoleAfter (.ofGrammar g) tapes elapsed ((Session.ofGrammar g).steps options))
    have hn := hc []
    rw [List.append_nil] at hn
    rw [serve_of_not_isBatch hb, hi, hc, hn, converse_sentence hl]
    refine List.IsPrefix.trans ?_ (output_prefix_converse _ _)
    rw [Console.print, ← String.append_assoc]
    exact prefix_append _ _

/-- Each random sentence that a run draws is written with the parser's verdict. -/
theorem DrawsFrom.written (h : DrawsFrom g options tapes elapsed before tape)
    (ht : (sampleWithin g sampleRetries tape).1 = .ok tokens) (input : List UInt8) :
    (before ++ (" ".intercalate tokens ++ "  [" ++
      verdict ((Parser.ofGrammar g.normalize).parse tokens).accepted ++ "]\n")).toList <+:
        (serve g options input tapes elapsed).output.toList := by
  cases h with
  | @sample earlier later count i hs hi =>
    have hw : (Console.writeSamples (.ofGrammar g) tapes (i + 1)
        (consoleAfter (.ofGrammar g) tapes elapsed earlier)).output =
          (Console.writeSamples (.ofGrammar g) tapes i
            (consoleAfter (.ofGrammar g) tapes elapsed earlier)).output ++
          (" ".intercalate tokens ++ "  [" ++
            verdict ((Parser.ofGrammar g.normalize).parse tokens).accepted ++ "]\n") := by
      rw [Console.writeSamples_succ, Console.writeSample]
      split
      · rename_i drawn hd
        cases ht.symm.trans hd
        rfl
      · rename_i cause hd
        cases ht.symm.trans hd
    rw [List.append_cons] at hs
    rw [← hw]
    have hp := output_prefix_serve hs input tapes elapsed
    rw [consoleAfter_append] at hp
    exact (Console.output_prefix_writeSamples hi _ _ _).trans hp

theorem unlines_cons (line : String) (lines : List String) :
    unlines (line :: lines) = line ++ "\n" ++ unlines lines := by
  rw [unlines, List.map_cons, String.join_cons, unlines]

/-- The line with the verdict tells the time only where there are tokens. -/
theorem exists_resultLine_eq (answer : Answer) (elapsed : String)
    (h : answer.parse.accepted = true → answer.tokens ≠ []) :
    ∃ rest, answer.resultLine elapsed = "Result: " ++ verdict answer.parse.accepted ++ rest ∧
      (answer.parse.accepted = true → rest = "  |  Time: " ++ elapsed ++ " ms") := by
  rw [Answer.resultLine]
  split
  · rename_i hn
    cases ha : answer.parse.accepted with
    | true => exact absurd (List.isEmpty_iff.1 hn) (h ha)
    | false => exact ⟨"  |  No tokens", rfl, nofun⟩
  · exact ⟨"  |  Time: " ++ elapsed ++ " ms", by simp only [String.append_assoc], fun _ => rfl⟩

/-- An answer begins with the text, its tokens and the verdict. -/
theorem exists_render_eq (parser : Parser) (text elapsed : String)
    (h : (parser.parse (tokenize text)).accepted = true → tokenize text ≠ []) :
    ∃ rest, (parser.answer text).render elapsed = "Input:  " ++ text ++ "\nTokens: " ++
        quotedList (tokenize text) ++ "\nResult: " ++
        verdict (parser.parse (tokenize text)).accepted ++ rest ∧
      ((parser.parse (tokenize text)).accepted = true →
        ("  |  Time: " ++ elapsed ++ " ms\n").toList <+: rest.toList) := by
  obtain ⟨rest, hr, ha⟩ := exists_resultLine_eq (parser.answer text) elapsed h
  have ht : "\nTokens: " = "\n" ++ "Tokens: " := rfl
  have hv : "\nResult: " = "\n" ++ "Result: " := rfl
  have hm : " ms\n" = " ms" ++ "\n" := rfl
  refine ⟨rest ++ "\n" ++ unlines (parser.answer text).treeLines, ?_, ?_⟩
  · simp only [Answer.render, List.cons_append, List.nil_append, unlines_cons, hr, ht, hv,
      String.append_assoc]
    rfl
  · intro hy
    rw [ha hy, hm, ← String.append_assoc]
    exact prefix_append _ _

theorem yesText_eq (text elapsed : String) : yesText text elapsed =
    "Input:  " ++ text ++ "\nTokens: " ++ quotedList (tokenize text) ++ "\nResult: " ++ "YES" ++
      ("  |  Time: " ++ elapsed ++ " ms\n") := by
  have hy : "\nResult: YES  |  Time: " = "\nResult: " ++ "YES" ++ "  |  Time: " := rfl
  rw [yesText, hy]
  simp only [String.append_assoc]

theorem yesLine_eq (tokens : List Token) :
    yesLine tokens = " ".intercalate tokens ++ "  [" ++ "YES" ++ "]\n" := by
  have hy : "  [YES]\n" = "  [" ++ "YES" ++ "]\n" := rfl
  rw [yesLine, hy]
  simp only [String.append_assoc]

theorem sampleWithin_of_sample_eq_ok (h : (g.sample sampleDepth tape).1 = .ok tokens)
    (retries : Nat) : (sampleWithin g retries tape).1 = .ok tokens := by
  cases retries with
  | zero => exact h
  | succ retries =>
    rw [sampleWithin]
    split
    · rename_i cause rest hs
      rw [hs] at h
      cases h
    · exact h

/-- Random sentences that come out after some failures could have come out at once. -/
theorem exists_sample_of_sampleWithin {retries : Nat}
    (h : (sampleWithin g retries tape).1 = .ok tokens) :
    ∃ tape, (g.sample sampleDepth tape).1 = .ok tokens := by
  induction retries generalizing tape with
  | zero => exact ⟨tape, h⟩
  | succ retries ih =>
    rw [sampleWithin] at h
    split at h
    · exact ih h
    · exact ⟨tape, h⟩

theorem exists_comesTo (h : options.sentence = some text ∨
      options.demo = true ∧ text ∈ demoSentences)
    (g : Grammar) (input : List UInt8) (tapes : Nat → Tape) (elapsed : String) :
    ∃ before, ComesTo g options input tapes elapsed before text := by
  have hm : .check text ∈ (Session.ofGrammar g).steps options := by
    rcases h with hs | ⟨hd, hm⟩
    · simp [Session.steps, hs]
    · simp [Session.steps, hd, hm]
  obtain ⟨earlier, later, he⟩ := List.append_of_mem hm
  exact ⟨_, .asked he⟩

theorem exists_drawsFrom {count i : Nat} (h : options.sampleCount = some count) (hi : i < count)
    (g : Grammar) (tapes : Nat → Tape) (elapsed : String) :
    ∃ before, DrawsFrom g options tapes elapsed before (tapes i) := by
  have hm : .sample count ∈ (Session.ofGrammar g).steps options := by
    simp [Session.steps, h]
  obtain ⟨earlier, later, he⟩ := List.append_of_mem hm
  exact ⟨_, .sample he hi⟩

theorem ComesTo.yes_iff (hw : g.WellFormed)
    (h : ComesTo g options input tapes elapsed before text) :
    (before ++ yesText text elapsed).toList <+:
        (serve g options input tapes elapsed).output.toList ↔
      tokenize text ≠ [] ∧ g.IsSentence (tokenize text) := by
  have hp := h.answered
  obtain ⟨rest, he, hr⟩ := exists_render_eq (Parser.ofGrammar g.normalize) text elapsed
    fun ha => ((accepted_iff_isSentence hw).1 ha).1
  rw [he] at hp
  rw [yesText_eq, yes_prefix_iff hp hr, accepted_iff_isSentence hw]

theorem DrawsFrom.yes_iff (hw : g.WellFormed)
    (h : DrawsFrom g options tapes elapsed before tape)
    (ht : (sampleWithin g sampleRetries tape).1 = .ok tokens) (input : List UInt8) :
    (before ++ yesLine tokens).toList <+: (serve g options input tapes elapsed).output.toList ↔
      tokens ≠ [] := by
  obtain ⟨_, hs⟩ := exists_sample_of_sampleWithin ht
  have hp := h.written ht input
  rw [yesLine_eq, yes_prefix_iff hp fun _ => List.prefix_refl _, accepted_iff_isSentence hw,
    and_iff_left (Grammar.isSentence_of_sample hs)]

/-- A whole run with a grammar judges by the language of the grammar. -/
theorem judges_serve (hw : g.WellFormed) (options : Options) (input : List UInt8)
    (tapes : Nat → Tape) (elapsed : String) :
    Judges g options input tapes elapsed (serve g options input tapes elapsed) where
  asked _ h := exists_comesTo h g input tapes elapsed
  drawn _ _ h hi := exists_drawsFrom h hi g tapes elapsed
  texts _ _ h := h.yes_iff hw
  samples _ _ _ h ht := h.yes_iff hw ht input

/-- A text that is answered with YES by one run would be so by any run that comes to it. -/
theorem answersYes_iff (hw : g.WellFormed) :
    AnswersYes g text ↔ tokenize text ≠ [] ∧ g.IsSentence (tokenize text) := by
  apply Iff.intro
  · intro h
    obtain ⟨options, input, tapes, elapsed, before, hc, hy⟩ := h
    exact (hc.yes_iff hw).1 hy
  · intro h
    have hs : ({ sentence := some text } : Options).sentence = some text := rfl
    obtain ⟨before, hc⟩ := exists_comesTo (.inl hs) g [] (fun _ => .ofWords []) "0"
    exact ⟨_, _, _, _, before, hc, (hc.yes_iff hw).2 h⟩

theorem samplesYes_iff (hw : g.WellFormed) :
    SamplesYes g tokens ↔ tokens ≠ [] ∧ ∃ tape, (g.sample sampleDepth tape).1 = .ok tokens := by
  apply Iff.intro
  · intro h
    obtain ⟨options, input, tapes, elapsed, before, tape, hd, ht, hy⟩ := h
    exact ⟨(hd.yes_iff hw ht input).1 hy, exists_sample_of_sampleWithin ht⟩
  · intro h
    obtain ⟨hn, tape, ht⟩ := h
    have hs := sampleWithin_of_sample_eq_ok ht sampleRetries
    have hc : ({ sampleCount := some 1 } : Options).sampleCount = some 1 := rfl
    obtain ⟨before, hd⟩ := exists_drawsFrom hc Nat.one_pos g (fun _ => tape) "0"
    exact ⟨_, [], _, _, before, tape, hd, hs, (hd.yes_iff hw hs []).2 hn⟩

/-- Some typed text is answered with YES just when a sentence consists of words, since tokenizing
makes no other tokens. -/
theorem exists_answersYes_iff (hw : g.WellFormed) :
    (∃ text, AnswersYes g text) ↔
      ∃ tokens, tokens ≠ [] ∧ g.IsSentence tokens ∧ ∀ token ∈ tokens, IsWord token := by
  simp only [answersYes_iff hw]
  apply Iff.intro
  · intro h
    obtain ⟨text, hn, hy⟩ := h
    exact ⟨tokenize text, hn, hy, fun _ => isWord_of_mem_tokenize⟩
  · intro h
    obtain ⟨tokens, hn, hy, hi⟩ := h
    use " ".intercalate tokens
    rw [tokenize_intercalate hi]
    exact ⟨hn, hy⟩

/-- A random sentence comes from a derivation within the depth, and each of these can be drawn. -/
theorem SamplesYes.exists_tree (hw : g.WellFormed) (h : SamplesYes g tokens) :
    tokens ≠ [] ∧ ∃ tree : SyntaxTree, tree.DerivedBy g ∧ tree.root = g.start ∧
      tree.height ≤ 12 ∧ tree.tokens = tokens := by
  obtain ⟨hn, _, hs⟩ := (samplesYes_iff hw).1 h
  exact ⟨hn, Grammar.exists_tree_of_expand hs⟩

theorem samplesYes_of_tree (hw : g.WellFormed) (hr : ∀ a, (g.rightSides a).length < 2 ^ 32)
    {tree : SyntaxTree} (ht : tree.DerivedBy g) (hs : tree.root = g.start)
    (hh : tree.height ≤ 12) (hn : tree.tokens ≠ []) : SamplesYes g tree.tokens := by
  obtain ⟨words, hc⟩ := Grammar.exists_consumes_expand hw hr ht hh
  rw [hs] at hc
  exact (samplesYes_iff hw).2 ⟨hn, hc.exists_tape⟩

end Command

end PhraseGrammar
