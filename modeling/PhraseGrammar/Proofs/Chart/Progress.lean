import PhraseGrammar.Proofs.Chart.Filling

namespace PhraseGrammar

variable {g : Grammar} {tokens : List Token} {chart : Chart} {first last size : Nat}
  {span : Nat × Nat} {pending : List (Nat × Nat)} {trees : List Tree}

theorem Filled.of_toList (hn : trees.Nodup)
    (ht : ∀ a, (chart.trees first last a).toList = trees.filter (·.isAt first last a))
    (hm : ∀ tree, tree.first = first → tree.last = last →
      (tree ∈ trees ↔ tree.DerivedBy g tokens)) : Filled g tokens chart first last where
  mem_iff a tree := by
    rw [← Array.mem_toList_iff, ht, List.mem_filter, and_congr_left_iff]
    intro hi
    obtain ⟨_, hf, hl⟩ := Tree.isAt_eq_true_iff.1 hi
    exact hm tree hf hl
  nodup a := by
    rw [ht]
    exact hn.filter _

theorem Filled.congr {chart' : Chart} (h : Filled g tokens chart first last)
    (he : ∀ a, chart'.trees first last a = chart.trees first last a) :
    Filled g tokens chart' first last where
  mem_iff a tree := by rw [he, h.mem_iff]
  nodup a := by
    rw [he]
    exact h.nodup a

/-- The spans that are still to be filled have no trees, and all others are filled. -/
structure Progress (g : Grammar) (tokens : List Token) (chart : Chart)
    (pending : List (Nat × Nat)) : Prop where
  wellFormed : chart.WellFormed
  size_eq : chart.size = tokens.length
  filled : ∀ first last, first ≤ last → last < tokens.length → (first, last) ∉ pending →
    Filled g tokens chart first last
  empty : ∀ first last, (first, last) ∈ pending → ∀ a, chart.trees first last a = #[]

/-- A list of different spans, of which none comes after a longer one. -/
def ByLength (spans : List (Nat × Nat)) : Prop :=
  spans.Pairwise fun span span' => span.2 - span.1 ≤ span'.2 - span'.1 ∧ span ≠ span'

theorem ByLength.not_mem_of_shorter (hb : ByLength ((first, last) :: pending)) {first' last' : Nat}
    (hlt : last' - first' < last - first) : (first', last') ∉ (first, last) :: pending := by
  intro hm
  rcases List.mem_cons.1 hm with he | hm
  · cases he
    omega
  · have hle := ((List.pairwise_cons.1 hb).1 _ hm).1
    dsimp only at hle
    omega

theorem Progress.partsFilled (h : Progress g tokens chart ((first, last) :: pending))
    (hb : ByLength ((first, last) :: pending)) (hl : last < tokens.length) :
    PartsFilled g tokens chart first last where
  left middle hf hm := h.filled _ _ hf (by omega) (hb.not_mem_of_shorter (by omega))
  right middle hf hm := h.filled _ _ hm hl (hb.not_mem_of_shorter (by omega))

namespace Parser

theorem mem_spansByLength_iff : (first, last) ∈ spansByLength size ↔
    first < last ∧ last < size := by
  simp only [spansByLength, List.mem_flatMap, List.mem_map, List.mem_range'_1, List.mem_range,
    Prod.mk.injEq]
  apply Iff.intro
  · intro h
    obtain ⟨length, _, start, _, rfl, rfl⟩ := h
    omega
  · intro h
    exact ⟨last + 1 - first, by omega, first, by omega, rfl, by omega⟩

theorem byLength_spansByLength : ByLength (spansByLength size) := by
  rw [ByLength, spansByLength, List.pairwise_flatMap]
  refine ⟨?_, ?_⟩
  · intro length hm
    rw [List.mem_range'_1] at hm
    rw [List.pairwise_map]
    apply List.pairwise_lt_range.imp
    intro first first' hlt
    refine ⟨by omega, ?_⟩
    intro he
    have hf := congrArg Prod.fst he
    omega
  · apply (List.pairwise_lt_range' 1 Nat.one_pos).imp_of_mem
    intro length length' hm hm' hlt span hs span' hs'
    rw [List.mem_range'_1] at hm hm'
    obtain ⟨first, _, rfl⟩ := List.mem_map.1 hs
    obtain ⟨first', _, rfl⟩ := List.mem_map.1 hs'
    refine ⟨by dsimp only; omega, ?_⟩
    intro he
    obtain ⟨hf, hl⟩ := Prod.mk.inj he
    omega

theorem leafChart_eq (parser : Parser) (tokens : List Token) : parser.leafChart tokens =
    (parser.allLeaves tokens).foldl Chart.add (.empty tokens.length) := rfl

/-- At first, all spans of two tokens or more are still to be filled. -/
theorem progress_leafChart (hn : g.productions.Nodup) (tokens : List Token) :
    Progress g tokens ((ofGrammar g).leafChart tokens) (spansByLength tokens.length) := by
  have hw := Chart.wellFormed_empty tokens.length
  have ht (first last : Nat) (hf : first ≤ last) (hl : last < tokens.length) (a : Symbol) :
      (((ofGrammar g).leafChart tokens).trees first last a).toList =
        ((ofGrammar g).allLeaves tokens).filter (·.isAt first last a) := by
    rw [leafChart_eq, Chart.trees_addAll hw hf hl, Chart.trees_empty]
    rfl
  refine ⟨hw.addAll _, ?_, ?_, ?_⟩
  · rw [leafChart_eq, Chart.size_addAll]
    rfl
  · intro first last hf hl hp
    rw [mem_spansByLength_iff] at hp
    obtain rfl : first = last := by omega
    apply Filled.of_toList (nodup_allLeaves hn) (ht first first hf hl)
    intro tree htf htl
    rw [mem_allLeaves_iff, htf, htl]
    simp
  · intro first last hp a
    obtain ⟨hf, hl⟩ := mem_spansByLength_iff.1 hp
    apply Array.toList_inj.1
    rw [ht first last (Nat.le_of_lt hf) hl, Array.toList_empty, List.filter_eq_nil_iff]
    intro tree hm hi
    have he := (mem_allLeaves_iff.1 hm).2
    obtain ⟨_, htf, htl⟩ := Tree.isAt_eq_true_iff.1 hi
    omega

theorem trees_fillSpan (hw : chart.WellFormed) {parser : Parser} {first' last' : Nat} {a : Symbol}
    (hf : first' ≤ last') (hl : last' < chart.size) :
    ((parser.fillSpan chart (first, last)).trees first' last' a).toList =
      (chart.trees first' last' a).toList ++
        (parser.treesOver chart first last).filter (·.isAt first' last' a) :=
  Chart.trees_addAll hw hf hl _

/-- The trees that are found for a span concern no other span. -/
theorem trees_fillSpan_of_ne (hw : chart.WellFormed) (h : PartsFilled g tokens chart first last)
    (hlt : first < last) (hl : last < chart.size) {first' last' : Nat} (hf' : first' ≤ last')
    (hl' : last' < chart.size) (hne : (first', last') ≠ (first, last)) (a : Symbol) :
    ((ofGrammar g).fillSpan chart (first, last)).trees first' last' a =
      chart.trees first' last' a := by
  apply Array.toList_inj.1
  rw [trees_fillSpan hw hf' hl', List.append_right_eq_self, List.filter_eq_nil_iff]
  intro tree hm hi
  obtain ⟨_, htf, htl⟩ := (mem_treesOver_iff hw hl h hlt).1 hm
  obtain ⟨_, htf', htl'⟩ := Tree.isAt_eq_true_iff.1 hi
  exact hne (Prod.ext (htf'.symm.trans htf) (htl'.symm.trans htl))

theorem progress_fillSpan (hn : g.productions.Nodup)
    (h : Progress g tokens chart ((first, last) :: pending))
    (hb : ByLength ((first, last) :: pending))
    (hp : ∀ first' last', (first', last') ∈ (first, last) :: pending →
      first' < last' ∧ last' < tokens.length) :
    Progress g tokens ((ofGrammar g).fillSpan chart (first, last)) pending := by
  have hw := h.wellFormed
  have hs := h.size_eq
  obtain ⟨hlt, hl⟩ := hp first last List.mem_cons_self
  have hparts := h.partsFilled hb hl
  rw [← hs] at hl
  refine ⟨hw.addAll _, ?_, ?_, ?_⟩
  · rw [Parser.fillSpan, Chart.size_addAll, hs]
  · intro first' last' hf' hl' hp'
    rw [← hs] at hl'
    by_cases he : (first', last') = (first, last)
    · cases he
      apply Filled.of_toList (nodup_treesOver hn hw hl hparts)
      · intro a
        rw [trees_fillSpan hw hf' hl, h.empty _ _ List.mem_cons_self]
        rfl
      · intro tree htf htl
        rw [mem_treesOver_iff hw hl hparts hlt]
        simp [htf, htl]
    · have hfilled := h.filled first' last' hf' (hs ▸ hl') (by simp [he, hp'])
      exact hfilled.congr (trees_fillSpan_of_ne hw hparts hlt hl hf' hl' he)
  · intro first' last' hm a
    obtain ⟨hlt', hl'⟩ := hp first' last' (List.mem_cons_of_mem _ hm)
    have hne : (first', last') ≠ (first, last) := ((List.pairwise_cons.1 hb).1 _ hm).2.symm
    rw [trees_fillSpan_of_ne hw hparts hlt hl (Nat.le_of_lt hlt') (hs ▸ hl') hne]
    exact h.empty first' last' (List.mem_cons_of_mem _ hm) a

theorem progress_fill (hn : g.productions.Nodup) (h : Progress g tokens chart pending)
    (hb : ByLength pending) (hp : ∀ first last, (first, last) ∈ pending →
      first < last ∧ last < tokens.length) :
    Progress g tokens (pending.foldl (ofGrammar g).fillSpan chart) [] := by
  induction pending generalizing chart with
  | nil => exact h
  | cons span pending ih =>
    apply ih (progress_fillSpan hn h hb hp) (List.pairwise_cons.1 hb).2
    intro first last hm
    exact hp first last (List.mem_cons_of_mem _ hm)

/-- In the end every span is filled. -/
theorem progress_parse (hn : g.productions.Nodup) (tokens : List Token) :
    Progress g tokens ((ofGrammar g).parse tokens).chart [] :=
  progress_fill hn (progress_leafChart hn tokens) byLength_spansByLength
    fun _ _ => mem_spansByLength_iff.1

theorem filled_parse (hn : g.productions.Nodup) (hf : first ≤ last) (hl : last < tokens.length) :
    Filled g tokens ((ofGrammar g).parse tokens).chart first last :=
  (progress_parse hn tokens).filled first last hf hl List.not_mem_nil

end Parser

end PhraseGrammar
