import PhraseGrammar.Proofs.Language.Stability
import PhraseGrammar.Proofs.Normal.Form

namespace PhraseGrammar

/-- What a right side is known to yield becomes known of the left side at once, in an entry that
hides the older one. It is kept in mind whether anything was new. -/
def Yields.absorb (bound : Nat) (state : Bool × Yields) (p : Production) : Bool × Yields :=
  let found := state.2.ofRight bound p.right
  let old := state.2.ofSymbol p.left
  (state.1 || found.any fun tokens => !old.contains tokens,
    (p.left, mergeAscending found old) :: state.2)

/-- Goes through productions in the order in which they are given, each of them finding what the
ones before it have added. -/
def sweep (bound : Nat) (productions : List Production) (known : Yields) : Bool × Yields :=
  productions.foldl (Yields.absorb bound) (false, known)

/-- Sweeps follow one another until one of them finds nothing new. -/
inductive SweepsTo (bound : Nat) (productions : List Production) : Yields → Yields → Prop where
  | rest {known : Yields} (h : (sweep bound productions known).1 = false) :
    SweepsTo bound productions known (sweep bound productions known).2
  | again {known result : Yields} (h : (sweep bound productions known).1 = true)
    (hr : SweepsTo bound productions (sweep bound productions known).2 result) :
    SweepsTo bound productions known result

namespace Grammar

variable {g : Grammar} {bound : Nat} {known known' : PhraseGrammar.Yields} {flag flag' : Bool}
  {p : Production} {productions : List Production} {s : Symbol} {tokens : List Token}

/-- What is known is true, within the bound, and kept in order. -/
structure Vouches (g : Grammar) (bound : Nat) (known : PhraseGrammar.Yields) : Prop where
  ascending : ∀ s, Ascending (known.ofSymbol s)
  length_le : ∀ s, isNonterminal s = true → ∀ tokens ∈ known.ofSymbol s, tokens.length ≤ bound
  yields : ∀ s, ∀ tokens ∈ known.ofSymbol s, g.Yields [s] tokens

theorem vouches_yieldsAfter (rounds : Nat) : g.Vouches bound (g.yieldsAfter bound rounds) where
  ascending := ascending_yieldsAfter rounds
  length_le _ hs _ := length_le_of_mem_yieldsAfter hs
  yields _ _ := yields_of_mem_yieldsAfter

theorem vouches_nil : g.Vouches bound [] :=
  vouches_yieldsAfter 0

theorem ofSymbol_of_absorb (hp : isNonterminal p.left = true)
    (ha : PhraseGrammar.Yields.absorb bound (flag, known) p = (flag', known')) (s : Symbol) :
    known'.ofSymbol s =
      if s = p.left then mergeAscending (known.ofRight bound p.right) (known.ofSymbol p.left)
      else known.ofSymbol s := by
  cases ha
  rcases isTerminal_or_isNonterminal s with hs | hs
  · have hne : s ≠ p.left := by
      rintro rfl
      rw [isTerminal, hp] at hs
      cases hs
    rw [if_neg hne, Yields.ofSymbol_of_isTerminal hs, Yields.ofSymbol_of_isTerminal hs]
  · rw [Yields.ofSymbol_of_isNonterminal hs, List.lookup_cons]
    split
    · rename_i he
      rw [if_pos (beq_iff_eq.1 he), Option.getD_some]
    · rename_i he
      rw [if_neg (by simpa using he), Yields.ofSymbol_of_isNonterminal hs]

theorem mem_ofSymbol_of_absorb_iff (hp : isNonterminal p.left = true)
    (ha : PhraseGrammar.Yields.absorb bound (flag, known) p = (flag', known')) :
    tokens ∈ known'.ofSymbol s ↔
      s = p.left ∧ tokens ∈ known.ofRight bound p.right ∨ tokens ∈ known.ofSymbol s := by
  rw [ofSymbol_of_absorb hp ha]
  split
  · rename_i he
    simp [mem_mergeAscending, he]
  · rename_i he
    simp [he]

theorem Vouches.absorb (h : g.Vouches bound known) (hw : g.WellFormed) (hp : p ∈ g.productions)
    (ha : PhraseGrammar.Yields.absorb bound (flag, known) p = (flag', known')) :
    g.Vouches bound known' where
  ascending s := by
    rw [ofSymbol_of_absorb (hw.left p hp) ha]
    split
    · exact ascending_mergeAscending (Yields.ascending_ofRight h.ascending) (h.ascending p.left)
    · exact h.ascending s
  length_le s hs tokens hm := by
    rcases (mem_ofSymbol_of_absorb_iff (hw.left p hp) ha).1 hm with ⟨_, hf⟩ | hk
    · exact (Yields.mem_ofRight_iff.1 hf).1
    · exact h.length_le s hs tokens hk
  yields s tokens hm := by
    rcases (mem_ofSymbol_of_absorb_iff (hw.left p hp) ha).1 hm with ⟨rfl, hf⟩ | hk
    · exact .of_mem hp ((Yields.mem_ofRight_iff.1 hf).2.yields h.yields)
    · exact h.yields s tokens hk

/-- What the nonterminals yield within the bound and are not known to yield. -/
def missing (g : Grammar) (bound : Nat) (known : PhraseGrammar.Yields) :
    List (Symbol × List Token) :=
  (g.nonterminals.flatMap fun a => ((g.yieldsUpTo bound).ofSymbol a).map (a, ·)).filter
    fun entry => !(known.ofSymbol entry.1).contains entry.2

theorem missing_congr (h : ∀ s, known'.ofSymbol s = known.ofSymbol s) :
    g.missing bound known' = g.missing bound known := by
  simp only [missing, h]

theorem mem_missing_iff (hw : g.WellFormed) : (s, tokens) ∈ g.missing bound known ↔
    s ∈ g.nonterminals ∧ (tokens.length ≤ bound ∧ g.Yields [s] tokens) ∧
      tokens ∉ known.ofSymbol s := by
  rw [missing, List.mem_filter, List.mem_flatMap, Bool.not_eq_true', List.contains_eq_mem,
    decide_eq_false_iff_not, ← and_assoc]
  apply and_congr_left
  intro _
  apply Iff.intro
  · intro h
    obtain ⟨a, ha, hm⟩ := h
    obtain ⟨_, hm, he⟩ := List.mem_map.1 hm
    cases he
    obtain ⟨p, hp, rfl⟩ := mem_nonterminals_iff.1 ha
    exact ⟨ha, (mem_yieldsUpTo_iff hw (hw.left p hp)).1 hm⟩
  · intro h
    obtain ⟨p, hp, rfl⟩ := mem_nonterminals_iff.1 h.1
    exact ⟨_, h.1, List.mem_map_of_mem ((mem_yieldsUpTo_iff hw (hw.left p hp)).2 h.2)⟩

theorem length_missing_lt (hk : ∀ s, ∀ tokens ∈ known.ofSymbol s, tokens ∈ known'.ofSymbol s)
    (hm : (s, tokens) ∈ g.missing bound known) (hn : tokens ∈ known'.ofSymbol s) :
    (g.missing bound known').length < (g.missing bound known).length := by
  have he : g.missing bound known' =
      (g.missing bound known).filter fun entry => !(known'.ofSymbol entry.1).contains entry.2 := by
    rw [missing, missing, List.filter_filter]
    apply List.filter_congr
    intro entry _
    have hi := mt (hk entry.1 entry.2)
    simpa using hi
  rw [he, List.length_filter_lt_length_iff_exists]
  exact ⟨_, hm, by simpa using hn⟩

/-- A production finds nothing new, or something that was missing. -/
theorem Vouches.absorb_cases (h : g.Vouches bound known) (hw : g.WellFormed)
    (hp : p ∈ g.productions)
    (ha : PhraseGrammar.Yields.absorb bound (flag, known) p = (flag', known')) :
    (flag' = flag ∧ (∀ s, known'.ofSymbol s = known.ofSymbol s) ∧
      ∀ tokens ∈ known.ofRight bound p.right, tokens ∈ known.ofSymbol p.left) ∨
    (flag' = true ∧ (g.missing bound known').length < (g.missing bound known).length) := by
  have hf : flag' = (flag || (known.ofRight bound p.right).any
      fun tokens => !(known.ofSymbol p.left).contains tokens) := (congrArg Prod.fst ha).symm
  by_cases hc : ∀ tokens ∈ known.ofRight bound p.right, tokens ∈ known.ofSymbol p.left
  · refine .inl ⟨?_, ?_, hc⟩
    · rw [hf, List.any_eq_false.2 (by simpa using hc), Bool.or_false]
    · intro s
      rw [ofSymbol_of_absorb (hw.left p hp) ha]
      split
      · rename_i he
        rw [he]
        exact mergeAscending_eq_right (Yields.ascending_ofRight h.ascending) (h.ascending _) hc
      · rfl
  · simp only [not_forall] at hc
    obtain ⟨tokens, hm, hn⟩ := hc
    refine .inr ⟨?_, ?_⟩
    · rw [hf, List.any_eq_true.2 ⟨tokens, hm, by simpa using hn⟩, Bool.or_true]
    · obtain ⟨hle, hr⟩ := Yields.mem_ofRight_iff.1 hm
      have hy := Yields.of_mem hp (hr.yields h.yields)
      have hl := mem_nonterminals_iff.2 ⟨p, hp, rfl⟩
      apply length_missing_lt _ ((mem_missing_iff hw).2 ⟨hl, ⟨hle, hy⟩, hn⟩)
      · exact (mem_ofSymbol_of_absorb_iff (hw.left p hp) ha).2 (.inl ⟨rfl, hm⟩)
      · intro s list hk
        exact (mem_ofSymbol_of_absorb_iff (hw.left p hp) ha).2 (.inr hk)

theorem IsClosed.congr (h : ∀ s, known'.ofSymbol s = known.ofSymbol s)
    (hc : IsClosed bound productions known') : IsClosed bound productions known := by
  intro p hp tokens hm
  rw [← h]
  rw [← Yields.ofRight_congr h] at hm
  exact hc p hp tokens hm

theorem Vouches.foldl_absorb_cases (h : g.Vouches bound known) (hw : g.WellFormed)
    (hp : ∀ p ∈ productions, p ∈ g.productions)
    (ha : productions.foldl (PhraseGrammar.Yields.absorb bound) (flag, known) = (flag', known')) :
    g.Vouches bound known' ∧
      ((flag' = flag ∧ (∀ s, known'.ofSymbol s = known.ofSymbol s) ∧
        IsClosed bound productions known) ∨
      (flag' = true ∧ (g.missing bound known').length < (g.missing bound known).length)) := by
  induction productions generalizing flag known with
  | nil =>
    cases ha
    exact ⟨h, .inl ⟨rfl, fun _ => rfl, List.forall_mem_nil _⟩⟩
  | cons p productions ih =>
    rw [List.forall_mem_cons] at hp
    rw [List.foldl_cons] at ha
    cases hm : PhraseGrammar.Yields.absorb bound (flag, known) p with
    | mk middle between =>
      rw [hm] at ha
      obtain ⟨hv, hr⟩ := ih (h.absorb hw hp.1 hm) hp.2 ha
      refine ⟨hv, ?_⟩
      -- The flag stays up once something was found, and what is missing does not grow again.
      rcases h.absorb_cases hw hp.1 hm with ⟨rfl, hs, hc⟩ | ⟨rfl, hlt⟩
      · rcases hr with ⟨hf, hs', hcs⟩ | ⟨hf, hlt⟩
        · exact .inl ⟨hf, fun s => (hs' s).trans (hs s),
            List.forall_mem_cons.2 ⟨hc, hcs.congr hs⟩⟩
        · rw [missing_congr hs] at hlt
          exact .inr ⟨hf, hlt⟩
      · rcases hr with ⟨hf, hs', _⟩ | ⟨hf, hlt'⟩
        · rw [missing_congr hs']
          exact .inr ⟨hf, hlt⟩
        · exact .inr ⟨hf, Nat.lt_trans hlt' hlt⟩

/-- A sweep that finds nothing new leaves nothing to add, and any other one finds something that was
missing. -/
theorem Vouches.sweep_cases (h : g.Vouches bound known) (hw : g.WellFormed)
    (hp : ∀ p ∈ productions, p ∈ g.productions) :
    g.Vouches bound (sweep bound productions known).2 ∧
      (((sweep bound productions known).1 = false ∧
        IsClosed bound productions (sweep bound productions known).2) ∨
      ((sweep bound productions known).1 = true ∧
        (g.missing bound (sweep bound productions known).2).length <
          (g.missing bound known).length)) := by
  obtain ⟨hv, hc⟩ := h.foldl_absorb_cases hw hp (rfl : sweep bound productions known = _)
  refine ⟨hv, hc.imp_left ?_⟩
  intro hq
  exact ⟨hq.1, hq.2.2.congr fun s => (hq.2.1 s).symm⟩

/-- The sweeps come to an end, since less is missing after each. -/
theorem Vouches.exists_sweepsTo (h : g.Vouches bound known) (hw : g.WellFormed)
    (hp : ∀ p ∈ productions, p ∈ g.productions) :
    ∃ result, SweepsTo bound productions known result := by
  induction hn : (g.missing bound known).length using Nat.strong_induction_on
    generalizing known with
  | _ count ih =>
    obtain ⟨hv, ⟨hf, _⟩ | ⟨hf, hlt⟩⟩ := h.sweep_cases hw hp
    · exact ⟨_, .rest hf⟩
    · obtain ⟨result, hr⟩ := ih _ (hn ▸ hlt) hv rfl
      exact ⟨result, .again hf hr⟩

theorem Vouches.sweepsTo (h : g.Vouches bound known) (hw : g.WellFormed)
    (hp : ∀ p ∈ productions, p ∈ g.productions) (hr : SweepsTo bound productions known known') :
    g.Vouches bound known' ∧ IsClosed bound productions known' := by
  induction hr with
  | rest hf =>
    obtain ⟨hv, ⟨_, hc⟩ | ⟨hf', _⟩⟩ := h.sweep_cases hw hp
    · exact ⟨hv, hc⟩
    · rw [hf] at hf'
      cases hf'
  | again _ _ ih => exact ih (h.sweep_cases hw hp).1

/-- Sweeps find the same as rounds, in whatever order they go through the productions. -/
theorem ofSymbol_of_sweepsTo (hw : g.WellFormed) (hp : ∀ p, p ∈ productions ↔ p ∈ g.productions)
    (hs : isNonterminal s = true) (hr : SweepsTo bound productions [] known) :
    known.ofSymbol s = (g.yieldsUpTo bound).ofSymbol s := by
  obtain ⟨hv, hc⟩ := vouches_nil.sweepsTo hw (fun p => (hp p).1) hr
  apply List.Pairwise.eq_of_mem_iff (hv.ascending s) (ascending_yieldsUpTo s)
  intro tokens
  rw [mem_yieldsUpTo_iff hw hs]
  apply Iff.intro
  · intro hm
    exact ⟨hv.length_le s hs tokens hm, hv.yields s tokens hm⟩
  · intro h
    exact hc.mem_ofSymbol (fun p => (hp p).2) h.2 h.1

/-- The enumeration comes to rest, its outcome is the set of the sentences within the bound, and
sweeps over the productions come to an end with the same set. -/
theorem sentencesUpTo_spec (hw : g.WellFormed) (bound : Nat) :
    g.extendYields bound (g.yieldsUpTo bound) = g.yieldsUpTo bound ∧
      (∀ tokens, tokens ∈ g.sentencesUpTo bound ↔
        tokens.length ≤ bound ∧ g.IsSentence tokens) ∧
      Ascending (g.sentencesUpTo bound) ∧
      ∀ productions, (∀ p, p ∈ productions ↔ p ∈ g.productions) →
        (∃ known, SweepsTo bound productions [] known) ∧
        ∀ known, SweepsTo bound productions [] known →
          known.ofSymbol g.start = g.sentencesUpTo bound := by
  refine ⟨extendYields_yieldsUpTo hw, ?_, ascending_yieldsUpTo g.start, ?_⟩
  · intro tokens
    rw [mem_sentencesUpTo_iff hw, isSentence_iff_yields]
  · intro productions hp
    refine ⟨vouches_nil.exists_sweepsTo hw fun p => (hp p).1, ?_⟩
    intro known hr
    exact ofSymbol_of_sweepsTo hw hp hw.start hr

theorem sentencesUpTo_circular :
    circular.sentencesUpTo 4 = [[], ["a", "a", "b", "b"], ["a", "b"], ["a", "b", "a", "b"]] ∧
      circular.IsSentence ["a", "b", "a", "b"] ∧
      ∃ known, SweepsTo 4 circular.productions.reverse [] known ∧
        known.ofSymbol "S" = circular.sentencesUpTo 4 := by
  have hw := (validate_eq_ok_iff.1 validate_circular).2
  obtain ⟨_, hm, _, hs⟩ := sentencesUpTo_spec hw 4
  obtain ⟨⟨known, hr⟩, he⟩ := hs circular.productions.reverse fun _ => List.mem_reverse
  have hc : circular.sentencesUpTo 4 =
      [[], ["a", "a", "b", "b"], ["a", "b"], ["a", "b", "a", "b"]] := by decide +kernel
  refine ⟨hc, ((hm _).1 ?_).2, known, hr, he known hr⟩
  rw [hc]
  decide

end Grammar

end PhraseGrammar
