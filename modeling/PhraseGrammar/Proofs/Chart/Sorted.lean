import PhraseGrammar.Proofs.Chart.Exactness
import PhraseGrammar.Proofs.Chart.Order

namespace PhraseGrammar

variable {g : Grammar} {tokens : List Token} {chart : Chart} {first last middle : Nat}
  {pending : List (Nat × Nat)} {tree : Tree} {a b c : Symbol}

/-- If two trees have the same symbol, the first comes before the second. -/
def Tree.InTurn (tree tree' : Tree) : Prop :=
  tree.symbol = tree'.symbol → tree.Precedes tree'

theorem Tree.inTurn_ofParts {a a' : Symbol} {left right left' right' : Tree}
    (h : (ofParts a left right).Precedes (ofParts a left' right')) :
    (ofParts a left right).InTurn (ofParts a' left' right') := by
  intro hs
  obtain rfl : a = a' := hs
  exact h

namespace Parser

variable {parser : Parser} {lefts rights : List Tree} {left right : Cell}

theorem pairwise_joined (hn : parser.branchRules.Nodup)
    (hl : lefts.Pairwise Tree.Precedes) (hr : rights.Pairwise Tree.Precedes)
    (hls : ∀ left ∈ lefts, left.symbol = b ∧ left.last = middle)
    (hrs : ∀ right ∈ rights, right.symbol = c) :
    (parser.joined b c lefts rights).Pairwise Tree.InTurn := by
  apply pairwise_flatMap_of_pairwise (nodup_rulesFor hn)
  · intro rule _
    apply pairwise_flatMap_of_pairwise hl
    · intro left _
      rw [List.pairwise_map]
      apply hr.imp_of_mem
      intro right right' hm hm' hp _
      exact .rightPart ((hrs right hm).trans (hrs right' hm').symm) hp
    · intro left hm left' hm' hp tree ht tree' ht' _
      obtain ⟨right, hright, rfl⟩ := List.mem_map.1 ht
      obtain ⟨right', hright', rfl⟩ := List.mem_map.1 ht'
      obtain ⟨hs, hc⟩ := hls left hm
      obtain ⟨hs', hc'⟩ := hls left' hm'
      have he := (hrs right hright).trans (hrs right' hright').symm
      exact .leftPart (hc.trans hc'.symm) (hs.trans hs'.symm) he hp
  · intro rule hm rule' hm' hne tree ht tree' ht' hs
    simp only [List.mem_flatMap, List.mem_map] at ht ht'
    obtain ⟨_, _, _, _, rfl⟩ := ht
    obtain ⟨_, _, _, _, rfl⟩ := ht'
    exact absurd (eq_of_parent_eq hm hm' hs) hne

theorem pairwise_branches (hn : parser.branchRules.Nodup) (hl : left.Labelled)
    (hr : right.Labelled) (hls : ∀ entry ∈ left, entry.2.toList.Pairwise Tree.Precedes)
    (hrs : ∀ entry ∈ right, entry.2.toList.Pairwise Tree.Precedes)
    (hc : ∀ entry ∈ left, ∀ tree ∈ entry.2.toList, tree.last = middle) :
    (parser.branches left right).Pairwise Tree.InTurn := by
  rw [branches_eq]
  apply pairwise_flatMap_of_pairwise (List.pairwise_map.1 hl.ordered.increasing)
  · intro entry he
    apply pairwise_flatMap_of_pairwise (List.pairwise_map.1 hr.ordered.increasing)
    · intro entry' he'
      apply pairwise_joined hn (hls entry he) (hrs entry' he')
      · intro tree hm
        exact ⟨hl.symbol_eq entry he tree hm, hc entry he tree hm⟩
      · exact hr.symbol_eq entry' he'
    · intro entry₁ he₁ entry₂ he₂ hlt tree ht tree' ht'
      obtain ⟨_, _, l, hm, r, hmr, rfl⟩ := mem_joined_iff.1 ht
      obtain ⟨_, _, l', hm', r', hmr', rfl⟩ := mem_joined_iff.1 ht'
      have hcut := (hc entry he l hm).trans (hc entry he l' hm').symm
      have hsl := (hl.symbol_eq entry he l hm).trans (hl.symbol_eq entry he l' hm').symm
      rw [← hr.symbol_eq entry₁ he₁ r hmr, ← hr.symbol_eq entry₂ he₂ r' hmr'] at hlt
      exact Tree.inTurn_ofParts (.rightSymbol hcut hsl hlt)
  · intro entry he entry' he' hlt tree ht tree' ht'
    obtain ⟨_, _, hj⟩ := List.mem_flatMap.1 ht
    obtain ⟨_, _, hj'⟩ := List.mem_flatMap.1 ht'
    obtain ⟨_, _, l, hm, r, _, rfl⟩ := mem_joined_iff.1 hj
    obtain ⟨_, _, l', hm', r', _, rfl⟩ := mem_joined_iff.1 hj'
    have hcut := (hc entry he l hm).trans (hc entry' he' l' hm').symm
    rw [← hl.symbol_eq entry he l hm, ← hl.symbol_eq entry' he' l' hm'] at hlt
    exact Tree.inTurn_ofParts (.leftSymbol hcut hlt)

end Parser

/-- The trees of each symbol over a span are in order. -/
def Chart.Sorted (chart : Chart) (first last : Nat) : Prop :=
  ∀ a, (chart.trees first last a).toList.Pairwise Tree.Precedes

theorem Chart.Sorted.pairwise_of_mem {cell : Cell} (h : chart.Sorted first last)
    (hw : chart.WellFormed) (hc : chart.cell? first last = some cell) :
    ∀ entry ∈ cell, entry.2.toList.Pairwise Tree.Precedes := by
  intro entry he
  rw [hw.trees_eq_of_mem hc he]
  exact h entry.1

theorem Filled.last_eq {cell : Cell} (h : Filled g tokens chart first last)
    (hw : chart.WellFormed) (hc : chart.cell? first last = some cell) :
    ∀ entry ∈ cell, ∀ tree ∈ entry.2.toList, tree.last = last := by
  intro entry he tree hm
  rw [hw.trees_eq_of_mem hc he, Array.mem_toList_iff, h.mem_iff] at hm
  exact (Tree.isAt_eq_true_iff.1 hm.2).2.2

/-- The trees over the spans that are not to be filled any more are in order. -/
def Chart.SortedExcept (chart : Chart) (pending : List (Nat × Nat)) : Prop :=
  ∀ first last, first ≤ last → last < chart.size → (first, last) ∉ pending →
    chart.Sorted first last

theorem Chart.trees_of_not_span (h : ¬(first ≤ last ∧ last < chart.size)) :
    chart.trees first last a = #[] := by
  have hi : chart.index? first last = none := if_neg h
  rw [trees, cell?, hi]
  rfl

theorem Tree.DerivedBy.exists_leaf (h : tree.DerivedBy g tokens) (he : tree.first = tree.last) :
    ∃ token, tokens[tree.first]? = some token ∧ tree = .ofToken tree.symbol tree.first token := by
  cases h with
  | @leaf a position token found => exact ⟨token, found, rfl⟩
  | branch hl hr adjacent =>
    have hll := hl.first_le_last
    have hrl := hr.first_le_last
    rw [first_ofParts, last_ofParts] at he
    omega

theorem Tree.DerivedBy.eq_of_single {tree' : Tree} (h : tree.DerivedBy g tokens)
    (h' : tree'.DerivedBy g tokens) (he : tree.first = tree.last) (he' : tree'.first = tree'.last)
    (hf : tree.first = tree'.first) (hs : tree.symbol = tree'.symbol) : tree = tree' := by
  obtain ⟨token, ht, hl⟩ := h.exists_leaf he
  obtain ⟨token', ht', hl'⟩ := h'.exists_leaf he'
  rw [hf, ht', Option.some_inj] at ht
  rw [hl, hl', hf, hs, ht]

namespace Parser

theorem pairwise_treesOver (hn : g.productions.Nodup) (hw : chart.WellFormed)
    (hl : last < chart.size) (h : PartsFilled g tokens chart first last)
    (hs : ∀ middle, first ≤ middle → middle < last →
      chart.Sorted first middle ∧ chart.Sorted (middle + 1) last) :
    ((ofGrammar g).treesOver chart first last).Pairwise Tree.InTurn := by
  rw [treesOver_eq]
  apply pairwise_flatMap_of_pairwise (List.pairwise_lt_range' 1 Nat.one_pos)
  · intro middle hm
    rw [List.mem_range'_1] at hm
    have hf : first ≤ middle := hm.1
    have hlt : middle < last := by omega
    obtain ⟨lefts, rights, hcl, hcr, hll, hrl⟩ := h.exists_cells hw hl hf hlt
    obtain ⟨hsl, hsr⟩ := hs middle hf hlt
    rw [treesCutAt_of_cell? hcl hcr]
    exact pairwise_branches (nodup_branchRules hn) hll hrl (hsl.pairwise_of_mem hw hcl)
      (hsr.pairwise_of_mem hw hcr) ((h.left middle hf hlt).last_eq hw hcl)
  · intro middle hm middle' hm' hlt tree ht tree' ht'
    rw [List.mem_range'_1] at hm hm'
    rw [mem_treesCutAt_iff hw hl h (by omega) (by omega)] at ht ht'
    obtain ⟨_, _, _, _, rfl, _, hc, _⟩ := ht
    obtain ⟨_, _, _, _, rfl, _, hc', _⟩ := ht'
    exact Tree.inTurn_ofParts (.cut (hc ▸ hc' ▸ hlt))

theorem pairwise_filter_isAt (h : ((ofGrammar g).treesOver chart first last).Pairwise Tree.InTurn) :
    (((ofGrammar g).treesOver chart first last).filter (·.isAt first last a)).Pairwise
      Tree.Precedes := by
  apply (h.filter _).imp_of_mem
  intro tree tree' hm hm' ht
  have hs := (Tree.isAt_eq_true_iff.1 (List.mem_filter.1 hm).2).1
  have hs' := (Tree.isAt_eq_true_iff.1 (List.mem_filter.1 hm').2).1
  exact ht (hs.trans hs'.symm)

/-- Over one token a symbol has no more than one derivation. -/
theorem sorted_leafChart (hn : g.productions.Nodup) (hl : first < tokens.length) :
    ((ofGrammar g).leafChart tokens).Sorted first first := by
  intro a
  have hp : (first, first) ∉ spansByLength tokens.length := by simp [mem_spansByLength_iff]
  have hf := (progress_leafChart hn tokens).filled first first (Nat.le_refl _) hl hp
  apply (hf.nodup a).pairwise_of_forall_ne
  intro tree hm tree' hm' hne
  rw [Array.mem_toList_iff, hf.mem_iff, Tree.isAt_eq_true_iff] at hm hm'
  obtain ⟨hd, rfl, hfirst, hlast⟩ := hm
  obtain ⟨hd', hs, hfirst', hlast'⟩ := hm'
  exact absurd (hd.eq_of_single hd' (by omega) (by omega) (by omega) hs.symm) hne

theorem sortedExcept_fillSpan (hn : g.productions.Nodup)
    (h : Progress g tokens chart ((first, last) :: pending))
    (hb : ByLength ((first, last) :: pending)) (hlt : first < last) (hl : last < tokens.length)
    (hs : chart.SortedExcept ((first, last) :: pending)) :
    ((ofGrammar g).fillSpan chart (first, last)).SortedExcept pending := by
  have hw := h.wellFormed
  have hparts := h.partsFilled hb hl
  rw [← h.size_eq] at hl
  intro first' last' hf' hl' hp' a
  rw [fillSpan, Chart.size_addAll] at hl'
  by_cases he : (first', last') = (first, last)
  · cases he
    have hp : ((ofGrammar g).treesOver chart first last).Pairwise Tree.InTurn := by
      apply pairwise_treesOver hn hw hl hparts
      intro middle hf hm
      exact ⟨hs _ _ hf (by omega) (hb.not_mem_of_shorter (by omega)),
        hs _ _ hm hl (hb.not_mem_of_shorter (by omega))⟩
    rw [trees_fillSpan hw hf' hl, h.empty _ _ List.mem_cons_self]
    exact pairwise_filter_isAt hp
  · rw [trees_fillSpan_of_ne hw hparts hlt hl hf' hl' he]
    exact hs _ _ hf' hl' (by simp [he, hp']) a

theorem sortedExcept_fill (hn : g.productions.Nodup) (h : Progress g tokens chart pending)
    (hb : ByLength pending) (hp : ∀ first last, (first, last) ∈ pending →
      first < last ∧ last < tokens.length) (hs : chart.SortedExcept pending) :
    (pending.foldl (ofGrammar g).fillSpan chart).SortedExcept [] := by
  induction pending generalizing chart with
  | nil => exact hs
  | cons span pending ih =>
    obtain ⟨hlt, hl⟩ := hp _ _ List.mem_cons_self
    apply ih (progress_fillSpan hn h hb hp) (List.pairwise_cons.1 hb).2
    · intro first last hm
      exact hp first last (List.mem_cons_of_mem _ hm)
    · exact sortedExcept_fillSpan hn h hb hlt hl hs

theorem sorted_parse (hn : g.productions.Nodup) (tokens : List Token) (first last : Nat) :
    ((ofGrammar g).parse tokens).chart.Sorted first last := by
  have hp := progress_leafChart hn tokens
  have hs : ((ofGrammar g).leafChart tokens).SortedExcept (spansByLength tokens.length) := by
    intro first last hf hl hp'
    rw [hp.size_eq] at hl
    rw [mem_spansByLength_iff] at hp'
    obtain rfl : first = last := by omega
    exact sorted_leafChart hn hl
  by_cases hspan : first ≤ last ∧ last < ((ofGrammar g).parse tokens).chart.size
  · exact sortedExcept_fill hn hp byLength_spansByLength (fun _ _ => mem_spansByLength_iff.1) hs
      first last hspan.1 hspan.2 List.not_mem_nil
  · intro a
    rw [Chart.trees_of_not_span hspan]
    exact .nil

end Parser

end PhraseGrammar
