import PhraseGrammar.Normal.Chain
import PhraseGrammar.Proofs.Normal.Contraction
import PhraseGrammar.Proofs.Normal.Extension

namespace PhraseGrammar

/-- The links of a chain, with the rest of the right side that each stands for. -/
def chainLinks (pool : NamePool) (base : Symbol) : List Symbol → List (Symbol × List Symbol)
  | _ :: b :: c :: right =>
    let link := pool.fresh base
    (link.1, b :: c :: right) :: chainLinks link.2 base (b :: c :: right)
  | _ => []

/-- The links of the chains of all productions. -/
def chainsLinks (pool : NamePool) : List Production → List (Symbol × List Symbol)
  | [] => []
  | p :: productions =>
    chainLinks pool ("BIN_" ++ p.left) p.right
      ++ chainsLinks (chain pool ("BIN_" ++ p.left) p.left p.right).2 productions

/-- A right side of two symbols or fewer is left alone, and a link stands for the rest of a longer
one. -/
inductive Splits (links : List (Symbol × List Symbol)) : List Symbol → List Symbol → Prop where
  | short {right : List Symbol} (hl : right.length ≤ 2) : Splits links right right
  | long {a link : Symbol} {rest : List Symbol} (h : (link, rest) ∈ links) :
    Splits links (a :: rest) [a, link]

variable {links links' : List (Symbol × List Symbol)} {pool : NamePool} {base left : Symbol}
  {right right' : List Symbol} {p q : Production} {productions : List Production}

theorem Splits.mono (hs : links ⊆ links') (h : Splits links right right') :
    Splits links' right right' := by
  cases h with
  | short hl => exact .short hl
  | long hm => exact .long (hs hm)

theorem Splits.length_le (h : Splits links right right') : right'.length ≤ 2 := by
  cases h with
  | short hl => exact hl
  | long => exact Nat.le_refl _

theorem Splits.flatMap_expansion (hn : (links.map (·.1)).Nodup) (h : Splits links right right')
    (hr : ∀ s ∈ right, s ∉ links.map (·.1)) : right'.flatMap (expansion links) = right := by
  cases h with
  | short => exact flatMap_expansion_of_not_mem hr
  | long hm =>
    rw [List.forall_mem_cons] at hr
    rw [List.flatMap_cons, List.flatMap_singleton, expansion_of_not_mem hr.1,
      expansion_of_mem hn hm]
    rfl

/-- A link is a nonterminal, and stands for the end of a right side. -/
def IsLink (right : List Symbol) (entry : Symbol × List Symbol) : Prop :=
  isNonterminal entry.1 = true ∧ 2 ≤ entry.2.length ∧ entry.2 <:+ right

theorem isLink_of_mem_chainLinks (hb : isNonterminal base = true) :
    ∀ entry ∈ chainLinks pool base right, IsLink right entry := by
  induction right generalizing pool with
  | nil => simp [chainLinks]
  | cons a right ih =>
    rcases right with _ | ⟨b, _ | ⟨c, right⟩⟩
    · simp [chainLinks]
    · simp [chainLinks]
    · rw [chainLinks, List.forall_mem_cons]
      refine ⟨?_, ?_⟩
      · exact ⟨isNonterminal_candidate hb, by simp, List.suffix_cons a _⟩
      · intro entry hm
        obtain ⟨hn, hl, hs⟩ := ih entry hm
        exact ⟨hn, hl, hs.trans (List.suffix_cons a _)⟩

theorem allocates_chainLinks :
    pool.Allocates ((chainLinks pool base right).map (·.1)) (chain pool base left right).2 := by
  fun_induction chain pool base left right with
  | case1 pool left a b c right link rest ih =>
    exact (NamePool.allocates_fresh pool base).append ih
  | case2 pool left right hr =>
    rw [chainLinks]
    · exact NamePool.allocates_nil pool
    · exact hr

theorem mem_chain (hq : q ∈ (chain pool base left right).1) :
    q.left = left ∧ Splits (chainLinks pool base right) right q.right ∨
      ∃ entry ∈ chainLinks pool base right, q.left = entry.1 ∧
        Splits (chainLinks pool base right) entry.2 q.right := by
  fun_induction chain pool base left right with
  | case1 pool left a b c right link rest ih =>
    have hs : chainLinks link.2 base (b :: c :: right) ⊆
        chainLinks pool base (a :: b :: c :: right) := List.subset_cons_self _ _
    have hm : (link.1, b :: c :: right) ∈ chainLinks pool base (a :: b :: c :: right) :=
      List.mem_cons_self
    rcases List.mem_cons.1 hq with rfl | hq
    · exact .inl ⟨rfl, .long hm⟩
    · right
      rcases ih hq with ⟨hl, hr⟩ | ⟨entry, he, hl, hr⟩
      · exact ⟨_, hm, hl, hr.mono hs⟩
      · exact ⟨entry, hs he, hl, hr.mono hs⟩
  | case2 pool left right hr =>
    rw [List.mem_singleton.1 hq]
    refine .inl ⟨rfl, .short ?_⟩
    match right with
    | [] | [_] | [_, _] => simp
    | a :: b :: c :: right => exact (hr a b c right rfl).elim

/-- A chain does what the production does that it was made from. -/
theorem yields_of_chain {g : Grammar} {tokens : List Token} (hr : right ≠ [])
    (hq : ∀ q ∈ (chain pool base left right).1, q ∈ g.productions)
    (hy : g.solid.Yields right tokens) : g.solid.Yields [left] tokens := by
  fun_induction chain pool base left right generalizing tokens with
  | case1 =>
    rename_i ih
    rw [List.forall_mem_cons] at hq
    obtain ⟨first, second, rfl, hf, hs⟩ := Grammar.yields_cons_iff.1 hy
    have hl := ih (List.cons_ne_nil _ _) hq.2 hs
    exact .of_mem (Grammar.mem_solid.2 ⟨hq.1, List.cons_ne_nil _ _⟩) (hf.append hl)
  | case2 pool left right =>
    exact .of_mem (Grammar.mem_solid.2 ⟨hq _ List.mem_cons_self, hr⟩) hy

theorem isLink_of_mem_chainsLinks :
    ∀ entry ∈ chainsLinks pool productions, ∃ p ∈ productions, IsLink p.right entry := by
  induction productions generalizing pool with
  | nil => simp [chainsLinks]
  | cons p productions ih =>
    rw [chainsLinks, List.forall_mem_append]
    refine ⟨?_, ?_⟩
    · intro entry hm
      have hb : isNonterminal ("BIN_" ++ p.left) = true := isNonterminal_append (by decide) _
      exact ⟨p, List.mem_cons_self, isLink_of_mem_chainLinks hb entry hm⟩
    · intro entry hm
      obtain ⟨q, hq, hl⟩ := ih entry hm
      exact ⟨q, List.mem_cons_of_mem p hq, hl⟩

theorem allocates_chainsLinks :
    pool.Allocates ((chainsLinks pool productions).map (·.1)) (chains pool productions).2 := by
  induction productions generalizing pool with
  | nil => exact NamePool.allocates_nil pool
  | cons p productions ih =>
    rw [chainsLinks, List.map_append]
    exact allocates_chainLinks.append ih

theorem mem_chains (hq : q ∈ (chains pool productions).1) :
    (∃ p ∈ productions, q.left = p.left ∧ Splits (chainsLinks pool productions) p.right q.right) ∨
      ∃ entry ∈ chainsLinks pool productions, q.left = entry.1 ∧
        Splits (chainsLinks pool productions) entry.2 q.right := by
  induction productions generalizing pool with
  | nil => cases hq
  | cons p productions ih =>
    have hf := List.subset_append_left (chainLinks pool ("BIN_" ++ p.left) p.right)
      (chainsLinks (chain pool ("BIN_" ++ p.left) p.left p.right).2 productions)
    have hs := List.subset_append_right (chainLinks pool ("BIN_" ++ p.left) p.right)
      (chainsLinks (chain pool ("BIN_" ++ p.left) p.left p.right).2 productions)
    rcases List.mem_append.1 hq with hq | hq
    · rcases mem_chain hq with ⟨hl, hr⟩ | ⟨entry, he, hl, hr⟩
      · exact .inl ⟨p, List.mem_cons_self, hl, hr.mono hf⟩
      · exact .inr ⟨entry, hf he, hl, hr.mono hf⟩
    · rcases ih hq with ⟨p', hp, hl, hr⟩ | ⟨entry, he, hl, hr⟩
      · exact .inl ⟨p', List.mem_cons_of_mem p hp, hl, hr.mono hs⟩
      · exact .inr ⟨entry, hs he, hl, hr.mono hs⟩

theorem exists_chain_of_mem (pool : NamePool) (hp : p ∈ productions) : ∃ pool' : NamePool,
    ∀ q ∈ (chain pool' ("BIN_" ++ p.left) p.left p.right).1, q ∈ (chains pool productions).1 := by
  induction productions generalizing pool with
  | nil => cases hp
  | cons p' productions ih =>
    rcases List.mem_cons.1 hp with rfl | hp
    · exact ⟨pool, fun q hq => List.mem_append_left _ hq⟩
    · obtain ⟨pool', hc⟩ := ih _ hp
      exact ⟨pool', fun q hq => List.mem_append_right _ (hc q hq)⟩

theorem exists_left_of_chain (pool : NamePool) (base left : Symbol) (right : List Symbol) :
    ∃ q ∈ (chain pool base left right).1, q.left = left := by
  match right with
  | [] | [_] | [_, _] => exact ⟨_, List.mem_cons_self, rfl⟩
  | _ :: _ :: _ :: _ => exact ⟨_, List.mem_cons_self, rfl⟩

theorem CutAt.chain {names : List Symbol} {pieces : List Production}
    (h : CutAt names productions pieces) :
    CutAt ((chainLinks pool base right).map (·.1) ++ names) (⟨left, right⟩ :: productions)
      ((chain pool base left right).1 ++ pieces) := by
  induction right generalizing pool left with
  | nil => exact .whole _ h
  | cons a right ih =>
    rcases right with _ | ⟨b, _ | ⟨c, right⟩⟩
    · exact .whole _ h
    · exact .whole _ h
    · exact .cut [a] ih

/-- Every link is where some production is cut in two. -/
theorem cutAt_chains :
    CutAt ((chainsLinks pool productions).map (·.1)) productions (chains pool productions).1 := by
  induction productions generalizing pool with
  | nil => exact .nil
  | cons p productions ih =>
    rw [chains, chainsLinks, List.map_append]
    exact ih.chain

namespace Grammar

variable {g : Grammar}

/-- The links of all chains of a grammar. -/
def linkEntries (g : Grammar) : List (Symbol × List Symbol) :=
  chainsLinks (.ofGrammar g) g.productions

/-- The names of the links, in the order in which they are handed out. -/
def linkNames (g : Grammar) : List Symbol :=
  g.linkEntries.map (·.1)

theorem mem_linkNames {entry : Symbol × List Symbol} (h : entry ∈ g.linkEntries) :
    entry.1 ∈ g.linkNames :=
  List.mem_map.2 ⟨entry, h, rfl⟩

theorem nodup_linkNames : g.linkNames.Nodup :=
  allocates_chainsLinks.nodup

theorem areNew_linkEntries : g.AreNew g.linkNames := by
  intro name hm
  obtain ⟨entry, he, rfl⟩ := List.mem_map.1 hm
  obtain ⟨_, _, hn, _⟩ := isLink_of_mem_chainsLinks entry he
  exact ⟨hn, allocates_chainsLinks.unused _ hm⟩

@[simp]
theorem start_binarize : g.binarize.start = g.start := rfl

theorem mem_binarize (hq : q ∈ g.binarize.productions) :
    (∃ p ∈ g.productions, q.left = p.left ∧ Splits g.linkEntries p.right q.right) ∨
      ∃ entry ∈ g.linkEntries, q.left = entry.1 ∧ Splits g.linkEntries entry.2 q.right :=
  mem_chains (mem_ofProductions.1 hq)

theorem extends_binarize (g : Grammar) : g.Extends g.linkEntries g.binarize where
  areNew := areNew_linkEntries
  ne_nil entry he := by
    obtain ⟨_, _, _, hl, _⟩ := isLink_of_mem_chainsLinks entry he
    exact List.length_pos_iff.1 (Nat.lt_of_lt_of_le Nat.zero_lt_two hl)
  reads q hq := by
    have hn : g.linkNames.Nodup := nodup_linkNames
    rcases mem_binarize hq with ⟨p, hp, hl, hs⟩ | ⟨entry, he, hl, hs⟩
    · right
      rw [hl, expansion_of_not_mem (areNew_linkEntries.left_not_mem hp)]
      have hr := fun s (hm : s ∈ p.right) => areNew_linkEntries.right_not_mem hp hm
      exact ⟨p, hp, rfl, hs.flatMap_expansion hn hr⟩
    · left
      obtain ⟨p, hp, _, _, hsuf⟩ := isLink_of_mem_chainsLinks entry he
      rw [hl, expansion_of_mem hn he]
      apply hs.flatMap_expansion hn
      intro s hm
      exact areNew_linkEntries.right_not_mem hp (hsuf.subset hm)
  simulates p hp tokens hy := by
    obtain ⟨hm, hne⟩ := mem_solid.1 hp
    obtain ⟨pool, hc⟩ := exists_chain_of_mem (.ofGrammar g) hm
    exact yields_of_chain hne (fun q hq => mem_ofProductions.2 (hc q hq)) hy

theorem start_not_mem_linkNames (h : g.IsRooted) : g.start ∉ g.linkNames := by
  intro hm
  obtain ⟨entry, he, _⟩ := List.mem_map.1 hm
  obtain ⟨p, hp, _⟩ := isLink_of_mem_chainsLinks entry he
  exact areNew_linkEntries.start_not_mem h hp hm

theorem yields_solid_binarize_iff {tokens : List Token} (h : g.IsRooted) :
    g.binarize.solid.Yields [g.start] tokens ↔ g.solid.Yields [g.start] tokens := by
  exact (extends_binarize g).yields_solid_iff (start_not_mem_linkNames h)

theorem length_le_of_mem_binarize (hq : q ∈ g.binarize.productions) : q.right.length ≤ 2 := by
  rcases mem_binarize hq with ⟨_, _, _, hs⟩ | ⟨_, _, _, hs⟩
  · exact hs.length_le
  · exact hs.length_le

theorem exists_suffix_of_mem_binarize (hq : q ∈ g.binarize.productions) :
    ∃ p ∈ g.productions, ∃ right, right <:+ p.right ∧ (right = p.right ∨ 2 ≤ right.length) ∧
      Splits g.linkEntries right q.right := by
  rcases mem_binarize hq with ⟨p, hp, _, hs⟩ | ⟨entry, he, _, hs⟩
  · exact ⟨p, hp, p.right, List.suffix_refl _, .inl rfl, hs⟩
  · obtain ⟨p, hp, _, hl, hsuf⟩ := isLink_of_mem_chainsLinks entry he
    exact ⟨p, hp, entry.2, hsuf, .inr hl, hs⟩

theorem isNonterminal_of_mem_binarize
    (hn : ∀ p ∈ g.productions, 2 ≤ p.right.length → ∀ s ∈ p.right, isNonterminal s = true)
    (hq : q ∈ g.binarize.productions) (hl : 2 ≤ q.right.length) :
    ∀ s ∈ q.right, isNonterminal s = true := by
  obtain ⟨p, hp, right, hsuf, _, hs⟩ := exists_suffix_of_mem_binarize hq
  have hle := hsuf.length_le
  generalize q.right = result at hs hl ⊢
  cases hs with
  | short =>
    intro s hm
    exact hn p hp (by omega) s (hsuf.subset hm)
  | @long a link rest hm =>
    obtain ⟨_, _, hnl, hlr, _⟩ := isLink_of_mem_chainsLinks _ hm
    have hlr : 2 ≤ rest.length := hlr
    rw [List.length_cons] at hle
    have ha := hn p hp (by omega) a (hsuf.subset List.mem_cons_self)
    simp [ha, hnl]

theorem isUnit_of_mem_binarize (hu : ∀ p ∈ g.productions, p.isUnit = false)
    (hq : q ∈ g.binarize.productions) : q.isUnit = false := by
  apply eq_false_of_ne_true
  intro he
  obtain ⟨b, hb, hn⟩ := Production.isUnit_eq_true_iff.1 he
  obtain ⟨p, hp, right, _, hr, hs⟩ := exists_suffix_of_mem_binarize hq
  rw [hb] at hs
  cases hs with
  | short =>
    have he : [b] = p.right := hr.resolve_right (by simp)
    exact absurd (Production.isUnit_eq_true_iff.2 ⟨b, he.symm, hn⟩) (by simp [hu p hp])

theorem IsRooted.binarize (h : g.IsRooted) : g.binarize.IsRooted := by
  intro q hq
  obtain ⟨p, hp, _⟩ := exists_suffix_of_mem_binarize hq
  obtain ⟨p', hp', hl⟩ := h p hp
  obtain ⟨pool, hc⟩ := exists_chain_of_mem (.ofGrammar g) hp'
  obtain ⟨q', hq', hl'⟩ := exists_left_of_chain pool ("BIN_" ++ p'.left) p'.left p'.right
  exact ⟨q', mem_ofProductions.2 (hc q' hq'), hl'.trans hl⟩

theorem nil_mem_binarize_iff {a : Symbol} :
    ⟨a, []⟩ ∈ g.binarize.productions ↔ ⟨a, []⟩ ∈ g.productions := by
  apply Iff.intro
  · intro hq
    rcases mem_binarize hq with ⟨⟨left, right⟩, hp, rfl, hs⟩ | ⟨entry, he, _, hs⟩
    · cases hs with
      | short => exact hp
    · obtain ⟨_, _, _, hl, _⟩ := isLink_of_mem_chainsLinks entry he
      generalize entry.2 = rest at hs hl
      cases hs with
      | short => cases hl
  · intro hp
    obtain ⟨pool, hc⟩ := exists_chain_of_mem (.ofGrammar g) hp
    exact mem_ofProductions.2 (hc _ List.mem_cons_self)

theorem mentions_binarize_iff {s : Symbol} :
    g.binarize.Mentions s ↔ g.Mentions s ∨ s ∈ g.linkNames := by
  have hm : (∃ q ∈ g.binarize.productions, s ∈ q.symbols) ↔
      (∃ p ∈ g.productions, s ∈ p.symbols) ∨ s ∈ g.linkNames := by
    simp only [Grammar.binarize, mem_ofProductions]
    exact cutAt_chains.mem_symbols_iff
  rw [Mentions, hm, Mentions, and_or_left]
  apply or_congr_right
  exact and_iff_right_of_imp fun hl => (areNew_linkEntries s hl).1

theorem WellFormed.binarize (hw : g.WellFormed) : g.binarize.WellFormed where
  start := hw.start
  left q hq := by
    rcases mem_binarize hq with ⟨p, hp, hl, _⟩ | ⟨entry, he, hl, _⟩
    · exact hl ▸ hw.left p hp
    · obtain ⟨_, _, hn, _⟩ := isLink_of_mem_chainsLinks entry he
      exact hl ▸ hn
  right q hq := by
    obtain ⟨p, hp, right, hsuf, _, hs⟩ := exists_suffix_of_mem_binarize hq
    have hr : "" ∉ right := fun he => hw.right p hp (hsuf.subset he)
    generalize q.right = result at hs ⊢
    cases hs with
    | short => exact hr
    | @long a link rest hm =>
      intro he
      rcases List.mem_cons.1 he with rfl | he
      · exact hr List.mem_cons_self
      · obtain ⟨_, _, hn, _⟩ := isLink_of_mem_chainsLinks _ hm
        rw [← List.mem_singleton.1 he] at hn
        cases hn
  nodup := nodup_distinct

end Grammar

end PhraseGrammar
