import PhraseGrammar.Proofs.Chart.Sorted

namespace PhraseGrammar

variable {g g' : Grammar} {tokens tokens' : List Token} {first last first' last' : Nat}
  {tree : Tree} {a : Symbol}

/-- A derivation of a whole sentence from the start symbol. -/
structure Tree.Completes (g : Grammar) (tokens : List Token) (tree : Tree) : Prop where
  derivedBy : tree.DerivedBy g tokens
  symbol_eq : tree.symbol = g.start
  first_eq : tree.first = 0
  last_eq : tree.last + 1 = tokens.length

namespace Parser

theorem mem_derivations_parse_iff_completes (hn : g.productions.Nodup) :
    tree ∈ ((ofGrammar g).parse tokens).derivations ↔ tree.Completes g tokens := by
  rw [mem_derivations_parse_iff hn]
  apply Iff.intro
  · rintro ⟨hd, hs, hf, hl⟩
    have hlt := hd.last_lt
    exact ⟨hd, hs, hf, by omega⟩
  · rintro ⟨hd, hs, hf, hl⟩
    exact ⟨hd, hs, hf, by omega⟩

theorem root?_parse_eq_some_iff (hn : g.productions.Nodup) :
    ((ofGrammar g).parse tokens).root? = some tree ↔
      tree ∈ ((ofGrammar g).parse tokens).derivations ∧
        ∀ other ∈ ((ofGrammar g).parse tokens).derivations,
          other = tree ∨ tree.Precedes other := by
  have hs := sorted_parse hn tokens 0 (tokens.length - 1) g.start
  rw [← derivations_parse hn] at hs
  have hl := @Tree.getElem?_zero_eq_some_iff tree _ hs
  simpa only [Parse.root?, Array.getElem?_toList, Array.mem_toList_iff] using hl

end Parser

/-- The same tokens stand at two spans, each in a sentence of its own. -/
structure SameTokens (tokens : List Token) (first last : Nat) (tokens' : List Token)
    (first' last' : Nat) : Prop where
  le : first ≤ last
  lt : last < tokens.length
  le' : first' ≤ last'
  lt' : last' < tokens'.length
  eq : (tokens.drop first).take (last + 1 - first) = (tokens'.drop first').take (last' + 1 - first')

theorem SameTokens.symm (h : SameTokens tokens first last tokens' first' last') :
    SameTokens tokens' first' last' tokens first last :=
  ⟨h.le', h.lt', h.le, h.lt, h.eq.symm⟩

theorem SameTokens.last_eq (h : SameTokens tokens first last tokens' first' last') :
    last' + first = last + first' := by
  have hl := congrArg List.length h.eq
  obtain ⟨hle, hlt, hle', hlt', _⟩ := h
  simp only [List.length_take, List.length_drop] at hl
  omega

theorem SameTokens.getElem?_eq (h : SameTokens tokens first last tokens' first' last')
    {distance : Nat} (hd : first + distance ≤ last) :
    tokens'[first' + distance]? = tokens[first + distance]? := by
  have hl := h.last_eq
  have he := congrArg (·[distance]?) h.eq
  simp only [List.getElem?_take, List.getElem?_drop] at he
  rw [if_pos (by omega), if_pos (by omega)] at he
  exact he.symm

namespace Parser

theorem exists_mem_trees_parse (hn : g.productions.Nodup) (hn' : g'.productions.Nodup)
    (hg : ∀ p ∈ g.productions, p.isNormal = true → p ∈ g'.productions)
    (h : SameTokens tokens first last tokens' first' last')
    (ht : tree ∈ ((ofGrammar g).parse tokens).chart.trees first last a) :
    ∃ tree' ∈ ((ofGrammar g').parse tokens').chart.trees first' last' a,
      tree'.shift first = tree.shift first' := by
  obtain ⟨hd, hs, hf, hl⟩ := (mem_trees_parse_iff hn h.le h.lt).1 ht
  obtain ⟨tree', hd', he⟩ := hd.exists_shift_eq hg hf.ge
    fun distance hle => h.getElem?_eq (hl ▸ hle)
  refine ⟨tree', (mem_trees_parse_iff hn' h.le' h.lt').2 ⟨hd', ?_, ?_, ?_⟩, he⟩
  · have hsym := congrArg Tree.symbol he
    rw [Tree.symbol_shift, Tree.symbol_shift] at hsym
    exact hsym.trans hs
  · have hfirst := congrArg Tree.first he
    rw [Tree.first_shift, Tree.first_shift] at hfirst
    omega
  · have hlast := congrArg Tree.last he
    rw [Tree.last_shift, Tree.last_shift] at hlast
    have heq := h.last_eq
    omega

/-- The trees over a span depend on nothing but its tokens and the productions of a normal shape. -/
theorem map_shift_trees_parse (hn : g.productions.Nodup) (hn' : g'.productions.Nodup)
    (hg : ∀ p : Production, p.isNormal = true → (p ∈ g.productions ↔ p ∈ g'.productions))
    (h : SameTokens tokens first last tokens' first' last') (a : Symbol) :
    (((ofGrammar g).parse tokens).chart.trees first last a).map (·.shift first') =
      (((ofGrammar g').parse tokens').chart.trees first' last' a).map (·.shift first) := by
  apply Array.toList_inj.1
  rw [Array.toList_map, Array.toList_map]
  apply Tree.eq_of_precedes
  · exact Tree.pairwise_precedes_shift (sorted_parse hn tokens first last a) first'
  · exact Tree.pairwise_precedes_shift (sorted_parse hn' tokens' first' last' a) first
  · intro tree
    simp only [List.mem_map, Array.mem_toList_iff]
    apply Iff.intro
    · rintro ⟨other, hm, rfl⟩
      exact exists_mem_trees_parse hn hn' (fun p hp hnorm => (hg p hnorm).1 hp) h hm
    · rintro ⟨other, hm, rfl⟩
      exact exists_mem_trees_parse hn' hn (fun p hp hnorm => (hg p hnorm).2 hp) h.symm hm

end Parser

/-- The trees of a symbol over a span stand in an order of their own, so that the first derivation
of a sentence is the least one. Neither the order of the productions nor those without a normal
shape nor the tokens outside the span have any part in it. -/
theorem trees_parse_canonical (hn : g.productions.Nodup) (tokens : List Token) :
    let parse := (Parser.ofGrammar g).parse tokens
    (∀ first last a, (parse.chart.trees first last a).toList.Pairwise Tree.Precedes) ∧
      (∀ tree, parse.root? = some tree ↔ tree.Completes g tokens ∧
        ∀ other : Tree, other.Completes g tokens → other = tree ∨ tree.Precedes other) ∧
      ∀ g' : Grammar, g'.productions.Nodup →
        (∀ p : Production, p.isNormal = true → (p ∈ g.productions ↔ p ∈ g'.productions)) →
        ∀ first last tokens' first' last', SameTokens tokens first last tokens' first' last' →
          ∀ a, (parse.chart.trees first last a).map (·.shift first') =
            (((Parser.ofGrammar g').parse tokens').chart.trees first' last' a).map
              (·.shift first) := by
  refine ⟨Parser.sorted_parse hn tokens, ?_, ?_⟩
  · intro tree
    simp only [Parser.root?_parse_eq_some_iff hn, Parser.mem_derivations_parse_iff_completes hn]
  · intro g' hn' hg first last tokens' first' last' h a
    exact Parser.map_shift_trees_parse hn hn' hg h a

/-- The productions in another order, among others that have no normal shape. -/
def bracketingsAmongOthers : Grammar :=
  ⟨"S", [⟨"A", []⟩, ⟨"S", ["S", "S"]⟩, ⟨"S", ["S", "a", "S"]⟩, ⟨"S", ["a"]⟩, ⟨"S", ["A"]⟩]⟩

theorem trees_parse_bracketings : bracketings.productions.Nodup ∧
    bracketingsAmongOthers.productions.Nodup ∧
    (((Parser.ofGrammar bracketings).parse ["a", "a", "a"]).chart.trees 0 2 "S").map (·.shift 1) =
      (((Parser.ofGrammar bracketingsAmongOthers).parse ["b", "a", "a", "a", "S"]).chart.trees
        1 3 "S").map (·.shift 0) ∧
    ∀ other : Tree, other.Completes bracketings ["a", "a", "a"] →
      other = .branch "S" 0 2 (.leaf "S" 0 0 "a")
          (.branch "S" 1 2 (.leaf "S" 1 1 "a") (.leaf "S" 2 2 "a")) ∨
        Tree.Precedes (.branch "S" 0 2 (.leaf "S" 0 0 "a")
          (.branch "S" 1 2 (.leaf "S" 1 1 "a") (.leaf "S" 2 2 "a"))) other := by
  have hn : bracketings.productions.Nodup := by decide
  have hn' : bracketingsAmongOthers.productions.Nodup := by decide
  have hg : ∀ p : Production, p.isNormal = true →
      (p ∈ bracketings.productions ↔ p ∈ bracketingsAmongOthers.productions) := by
    intro p hp
    simp only [bracketings, bracketingsAmongOthers, List.mem_cons, List.not_mem_nil, or_false]
    apply Iff.intro
    · rintro (rfl | rfl)
      · exact .inr (.inr (.inr (.inl rfl)))
      · exact .inr (.inl rfl)
    · rintro (rfl | rfl | rfl | rfl | rfl)
      · exact absurd hp (by decide)
      · exact .inr rfl
      · exact absurd hp (by decide)
      · exact .inl rfl
      · exact absurd hp (by decide)
  obtain ⟨_, hr, hc⟩ := trees_parse_canonical hn ["a", "a", "a"]
  exact ⟨hn, hn', hc _ hn' hg 0 2 _ 1 3 ⟨by decide, by decide, by decide, by decide, rfl⟩ "S",
    ((hr _).1 (by decide +kernel)).2⟩

end PhraseGrammar
