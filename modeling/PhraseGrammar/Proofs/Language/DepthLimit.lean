import PhraseGrammar.Proofs.Language.Sampling

namespace PhraseGrammar

/-- The first of two runs is the second one, or it was cut off at the depth limit before it could
draw more words than the second. -/
inductive CutShort : Sample → Sample → Prop where
  | same (run : Sample) : CutShort run run
  | tooDeep {tape tape' : Tape} {result : Except SampleError (List Token)}
    (h : tape.drawn ≤ tape'.drawn) : CutShort (.error .tooDeep, tape) (result, tape')

/-- A run comes to its result with the first of some words, whatever follows these, or it draws more
words than there are. -/
def ReadsInTurn (run : Tape → Sample) (words : List UInt32) : Prop :=
  (∃ first rest result, words = first ++ rest ∧ Consumes run first result) ∨
    ∀ source drawn, drawn + words.length < (run ⟨words, source, drawn⟩).2.drawn

variable {g : Grammar} {expand expand' : Symbol → Tape → Sample} {depth depth' : Nat} {s : Symbol}
  {right : List Symbol} {tape : Tape} {cause : SampleError} {first words : List UInt32}
  {result : Except SampleError (List Token)} {run run' : Tape → Sample} {short long : Sample}

theorem drawn_le_expandAll (h : ∀ s tape, tape.drawn ≤ (expand s tape).2.drawn) :
    tape.drawn ≤ (expandAll expand right tape).2.drawn := by
  induction right generalizing tape with
  | nil => exact Nat.le_refl _
  | cons s right ih =>
    have hf := h s tape
    rcases he : expand s tape with ⟨cause | tokens, rest⟩
    · rw [expandAll_cons_error he]
      rwa [he] at hf
    · rw [expandAll_cons_ok he]
      rw [he] at hf
      exact Nat.le_trans hf ih

theorem CutShort.map (h : CutShort short long) (made : List Token → List Token) :
    CutShort (short.1.map made, short.2) (long.1.map made, long.2) := by
  cases h with
  | same run => exact .same _
  | tooDeep hd => exact .tooDeep hd

theorem CutShort.eq_of_ne (h : CutShort short long) (hne : short.1 ≠ .error .tooDeep) :
    long = short := by
  cases h with
  | same => rfl
  | tooDeep => exact absurd rfl hne

theorem CutShort.of_tooDeep (h : CutShort short long) (hd : long.1 = .error .tooDeep) :
    short.1 = .error .tooDeep ∧ short.2.drawn ≤ long.2.drawn := by
  cases h with
  | same => exact ⟨hd, Nat.le_refl _⟩
  | tooDeep hle => exact ⟨rfl, hle⟩

/-- Two ways to expand symbols stay in step along a right side, since what is left of the words is
the same until the first of them gives up. -/
theorem CutShort.expandAll (h : ∀ s tape, CutShort (expand s tape) (expand' s tape))
    (hd : ∀ s tape, tape.drawn ≤ (expand' s tape).2.drawn) :
    CutShort (expandAll expand right tape) (expandAll expand' right tape) := by
  induction right generalizing tape with
  | nil => exact .same _
  | cons s right ih =>
    have hf := h s tape
    rcases he : expand s tape with ⟨cause | tokens, rest⟩ <;>
      rcases he' : expand' s tape with ⟨cause' | tokens', rest'⟩ <;> rw [he, he'] at hf
    · rw [expandAll_cons_error he, expandAll_cons_error he']
      exact hf
    · rw [expandAll_cons_error he, expandAll_cons_ok he']
      cases hf with
      | tooDeep hle => exact .tooDeep (Nat.le_trans hle (drawn_le_expandAll hd))
    · cases hf
    · cases hf with
      | same =>
        rw [expandAll_cons_ok he, expandAll_cons_ok he']
        exact ih.map _

theorem Consumes.readsInTurn (h : Consumes run first result) (rest : List UInt32) :
    ReadsInTurn run (first ++ rest) :=
  .inl ⟨first, rest, result, rfl, h⟩

theorem readsInTurn_of_forall (h : ∀ tape, run tape = (result, tape)) : ReadsInTurn run words := by
  have hc : Consumes run [] result := fun _ _ _ => h _
  exact hc.readsInTurn words

/-- A run that has drawn its first words goes on like another one. -/
theorem ReadsInTurn.after (h : ReadsInTurn run words)
    (made : Except SampleError (List Token) → Except SampleError (List Token))
    (he : ∀ more source drawn, run' ⟨first ++ more, source, drawn⟩ =
      (made (run ⟨more, source, drawn + first.length⟩).1,
        (run ⟨more, source, drawn + first.length⟩).2)) :
    ReadsInTurn run' (first ++ words) := by
  rcases h with ⟨second, rest, result, rfl, hs⟩ | hs
  · have hc : Consumes run' (first ++ second) (made result) := by
      intro more source drawn
      rw [List.append_assoc, he, hs, List.length_append, Nat.add_assoc]
    rw [← List.append_assoc]
    exact hc.readsInTurn rest
  · right
    intro source drawn
    rw [he, List.length_append, ← Nat.add_assoc]
    exact hs source _

theorem readsInTurn_expandAll (h : ∀ s words, ReadsInTurn (expand s) words)
    (hd : ∀ s tape, tape.drawn ≤ (expand s tape).2.drawn) :
    ReadsInTurn (expandAll expand right) words := by
  induction right generalizing words with
  | nil => exact readsInTurn_of_forall fun _ => rfl
  | cons s right ih =>
    rcases h s words with ⟨first, rest, cause | tokens, rfl, hf⟩ | hf
    · have hc : Consumes (expandAll expand (s :: right)) first (.error cause) :=
        fun more source drawn => expandAll_cons_error (hf more source drawn)
      exact hc.readsInTurn rest
    · exact ih.after (Except.map (tokens ++ ·)) fun more source drawn =>
        expandAll_cons_ok (hf more source drawn)
    · right
      intro source drawn
      have hlt := hf source drawn
      rcases he : expand s ⟨words, source, drawn⟩ with ⟨cause | tokens, rest⟩ <;> rw [he] at hlt
      · rwa [expandAll_cons_error he]
      · rw [expandAll_cons_ok he]
        exact Nat.lt_of_lt_of_le hlt (drawn_le_expandAll hd)

namespace Grammar

theorem drawn_le_expand (g : Grammar) (depth : Nat) (s : Symbol) (tape : Tape) :
    tape.drawn ≤ (g.expand depth s tape).2.drawn := by
  induction depth generalizing s tape with
  | zero =>
    rw [expand]
    split <;> exact Nat.le_refl _
  | succ depth ih =>
    rw [expand]
    split
    · exact Nat.le_refl _
    · split
      · exact Nat.le_refl _
      · rename_i hc
        exact Nat.le_trans (Tape.drawn_le_of_choose? hc) (drawn_le_expandAll ih)

/-- The runs at two depths draw the same words until the lower limit is hit. -/
theorem cutShort_expand (h : depth ≤ depth') (s : Symbol) (tape : Tape) :
    CutShort (g.expand depth s tape) (g.expand depth' s tape) := by
  induction depth generalizing depth' s tape with
  | zero =>
    cases hs : isTerminal s with
    | true =>
      rw [expand_of_isTerminal hs, expand_of_isTerminal hs]
      exact .same _
    | false =>
      rw [expand_zero hs]
      exact .tooDeep (drawn_le_expand g depth' s tape)
  | succ depth ih =>
    obtain ⟨depth', rfl⟩ := Nat.exists_eq_add_one_of_ne_zero (Nat.ne_zero_of_lt h)
    have hle : depth ≤ depth' := Nat.le_of_succ_le_succ h
    rw [expand, expand]
    split
    · exact .same _
    · split
      · exact .same _
      · exact .expandAll (fun s tape => ih hle s tape) (drawn_le_expand g depth')

theorem readsInTurn_expand (g : Grammar) (depth : Nat) (s : Symbol) (words : List UInt32) :
    ReadsInTurn (g.expand depth s) words := by
  induction depth generalizing s words with
  | zero =>
    cases hs : isTerminal s with
    | true => exact readsInTurn_of_forall fun _ => expand_of_isTerminal hs
    | false => exact readsInTurn_of_forall fun _ => expand_zero hs
  | succ depth ih =>
    cases hs : isTerminal s with
    | true => exact readsInTurn_of_forall fun _ => expand_of_isTerminal hs
    | false =>
      by_cases hr : g.rightSides s = []
      · exact readsInTurn_of_forall fun _ => expand_succ_of_nil hs hr
      · rcases Tape.choose?_cases hr words with ⟨first, rest, right, rfl, hc⟩ | hc
        · exact (readsInTurn_expandAll ih (drawn_le_expand g depth)).after id
            fun more source drawn => expand_succ_of_choose? hs (hc more source drawn)
        · right
          intro source drawn
          obtain ⟨right, rest, hc, hlt⟩ := hc source drawn
          rw [expand_succ_of_choose? hs hc]
          exact Nat.lt_of_lt_of_le hlt (drawn_le_expandAll (drawn_le_expand g depth))

theorem cutShort_sample (h : depth ≤ depth') (tape : Tape) :
    CutShort (g.sample depth tape) (g.sample depth' tape) :=
  cutShort_expand h g.start tape

/-- A run that is too deep with certain words is so at any lesser depth with the first of them. -/
theorem exists_consumes_of_tooDeep (h : depth ≤ depth')
    (hc : Consumes (g.sample depth') words (.error .tooDeep)) :
    ∃ first, first <+: words ∧ Consumes (g.sample depth) first (.error .tooDeep) := by
  have hl := hc [] .zeros 0
  rw [List.append_nil] at hl
  obtain ⟨hd, hle⟩ := (cutShort_sample (g := g) h ⟨words, .zeros, 0⟩).of_tooDeep (by rw [hl])
  rw [hl] at hle
  rcases readsInTurn_expand g depth g.start words with ⟨first, rest, result, rfl, hf⟩ | hlt
  · have hr : (g.sample depth ⟨first ++ rest, .zeros, 0⟩).1 = result :=
      congrArg Prod.fst (hf rest .zeros 0)
    rw [hd] at hr
    exact ⟨first, List.prefix_append first rest, hr ▸ hf⟩
  · exact absurd hle (Nat.not_le_of_lt (hlt .zeros 0))

/-- A greater depth lets more runs come to their end, and changes none that does already. -/
theorem sample_of_depth_le (h : depth ≤ depth') :
    (∀ tape, ((g.sample depth tape).1 ≠ .error .tooDeep →
        g.sample depth' tape = g.sample depth tape) ∧
      ((g.sample depth' tape).1 = .error .tooDeep →
        (g.sample depth tape).1 = .error .tooDeep ∧
          (g.sample depth tape).2.drawn ≤ (g.sample depth' tape).2.drawn)) ∧
    ∀ (source : Stream' UInt32) (count : Nat),
      (∀ result, result ≠ .error .tooDeep → Consumes (g.sample depth) (source.take count) result →
        Consumes (g.sample depth') (source.take count) result) ∧
      (Consumes (g.sample depth') (source.take count) (.error .tooDeep) →
        ∃ count' ≤ count, Consumes (g.sample depth) (source.take count') (.error .tooDeep)) := by
  refine ⟨fun tape => ⟨(cutShort_sample h tape).eq_of_ne, (cutShort_sample h tape).of_tooDeep⟩, ?_⟩
  intro source count
  refine ⟨?_, ?_⟩
  · intro result hne hc more rest drawn
    have hs := hc more rest drawn
    rw [(cutShort_sample h _).eq_of_ne (by rwa [hs]), hs]
  · intro hc
    obtain ⟨first, hp, hf⟩ := exists_consumes_of_tooDeep h hc
    have hl : first.length ≤ count := Stream'.length_take count source ▸ hp.length_le
    refine ⟨first.length, hl, ?_⟩
    have he : source.take first.length = first := by
      calc source.take first.length = (source.take count).take first.length := by
            rw [Stream'.take_take, Nat.min_eq_right hl]
        _ = first := (List.prefix_iff_eq_take.1 hp).symm
    rwa [he]

/-- The words of a derivation with four nonterminals on a path. One of them is not taken. -/
def fiveWords : List UInt32 :=
  [2863311531, 1431655765, 1431655766, 0, 0]

theorem sample_circular_deeper :
    circular.sample 6 (.ofWords fiveWords) = circular.sample 4 (.ofWords fiveWords) ∧
    Consumes (circular.sample 6) ((fiveWords ++ₛ Stream'.const 7).take 5) (.ok ["a", "b"]) ∧
    ∃ count ≤ 4, Consumes (circular.sample 2) ((fiveWords ++ₛ Stream'.const 7).take count)
      (.error .tooDeep) := by
  have hd : Consumes (circular.sample 3) ((fiveWords ++ₛ Stream'.const 7).take 4)
      (.error .tooDeep) := fun _ _ _ => rfl
  have hk : Consumes (circular.sample 4) ((fiveWords ++ₛ Stream'.const 7).take 5)
      (.ok ["a", "b"]) := fun _ _ _ => rfl
  obtain ⟨ht, hs⟩ := sample_of_depth_le (g := circular) (by decide : 4 ≤ 6)
  obtain ⟨_, hs'⟩ := sample_of_depth_le (g := circular) (by decide : 2 ≤ 3)
  exact ⟨(ht (.ofWords fiveWords)).1 (by decide), (hs _ 5).1 _ nofun hk, (hs' _ 4).2 hd⟩

end Grammar

end PhraseGrammar
