import Mathlib.Data.List.Nodup
import PhraseGrammar.Chart.Derivation
import PhraseGrammar.Chart.Parser
import PhraseGrammar.Proofs.Chart.Placement

namespace PhraseGrammar

/-- Where the members of a list are in order, so are the members of the lists made of them, if those
made of an earlier one come before those made of a later one. -/
theorem pairwise_flatMap_of_pairwise {α β : Type} {f : α → List β} {l : List α}
    {S : α → α → Prop} {R : β → β → Prop} (hl : l.Pairwise S) (hf : ∀ x ∈ l, (f x).Pairwise R)
    (hd : ∀ x ∈ l, ∀ y ∈ l, S x y → ∀ z ∈ f x, ∀ w ∈ f y, R z w) : (l.flatMap f).Pairwise R :=
  List.pairwise_flatMap.2 ⟨hf, hl.imp_of_mem fun hx hy => hd _ hx _ hy⟩

theorem nodup_flatMap_of_injOn {α β : Type} {f : α → List β} {l : List α} (hl : l.Nodup)
    (hf : ∀ x ∈ l, (f x).Nodup)
    (hd : ∀ x ∈ l, ∀ y ∈ l, ∀ z, z ∈ f x → z ∈ f y → x = y) : (l.flatMap f).Nodup := by
  apply pairwise_flatMap_of_pairwise hl hf
  intro x hx y hy hne z hz w hw he
  exact hne (hd x hx y hy z hz (he ▸ hw))

namespace Cell

variable {cell : Cell} {entry entry' : Symbol × Array Tree} {tree : Tree}

/-- Each tree is there once, under the symbol that it belongs to. -/
structure Labelled (cell : Cell) : Prop where
  ordered : cell.Ordered
  symbol_eq : ∀ entry ∈ cell, ∀ tree ∈ entry.2.toList, tree.symbol = entry.1
  nodup : ∀ entry ∈ cell, entry.2.toList.Nodup

theorem Ordered.nodup (h : cell.Ordered) : cell.Nodup := by
  apply List.Nodup.of_map (·.1)
  apply h.increasing.imp
  intro s t hlt he
  exact String.lt_irrefl _ (he ▸ hlt)

theorem Labelled.eq_of_mem (h : cell.Labelled) (he : entry ∈ cell) (he' : entry' ∈ cell)
    (ht : tree ∈ entry.2.toList) (ht' : tree ∈ entry'.2.toList) : entry = entry' := by
  have hs := h.symbol_eq entry he tree ht
  have hs' := h.symbol_eq entry' he' tree ht'
  have heq : entry.1 = entry'.1 := hs.symm.trans hs'
  apply Prod.ext heq
  rw [← trees_eq_of_mem h.ordered he, ← trees_eq_of_mem h.ordered he', heq]

end Cell

namespace Parser

variable {g : Grammar} {tokens : List Token} {tree : Tree}

theorem leafRule?_eq_some_iff {p : Production} {rule : LeafRule} : p.leafRule? = some rule ↔
    p = ⟨rule.parent, [rule.token]⟩ ∧ isTerminal rule.token = true := by
  obtain ⟨left, right⟩ := p
  obtain ⟨parent, token⟩ := rule
  simp only [Production.leafRule?]
  split
  · grind
  · grind

theorem branchRule?_eq_some_iff {p : Production} {rule : BranchRule} : p.branchRule? = some rule ↔
    p = ⟨rule.parent, [rule.left, rule.right]⟩ ∧ isNonterminal rule.left = true ∧
      isNonterminal rule.right = true := by
  obtain ⟨left, right⟩ := p
  obtain ⟨parent, b, c⟩ := rule
  simp only [Production.branchRule?]
  split
  · grind
  · grind

theorem mem_leafRules_iff {rule : LeafRule} : rule ∈ (ofGrammar g).leafRules ↔
    ⟨rule.parent, [rule.token]⟩ ∈ g.productions ∧ isTerminal rule.token = true := by
  simp only [ofGrammar, List.mem_filterMap, leafRule?_eq_some_iff]
  apply Iff.intro
  · intro h
    obtain ⟨_, hp, rfl, ht⟩ := h
    exact ⟨hp, ht⟩
  · intro h
    exact ⟨_, h.1, rfl, h.2⟩

theorem mem_branchRules_iff {rule : BranchRule} : rule ∈ (ofGrammar g).branchRules ↔
    ⟨rule.parent, [rule.left, rule.right]⟩ ∈ g.productions ∧
      isNonterminal rule.left = true ∧ isNonterminal rule.right = true := by
  simp only [ofGrammar, List.mem_filterMap, branchRule?_eq_some_iff]
  apply Iff.intro
  · intro h
    obtain ⟨_, hp, rfl, ht⟩ := h
    exact ⟨hp, ht⟩
  · intro h
    exact ⟨_, h.1, rfl, h.2⟩

theorem nodup_leafRules (hn : g.productions.Nodup) : (ofGrammar g).leafRules.Nodup := by
  apply hn.filterMap
  intro p q rule hp hq
  rw [(leafRule?_eq_some_iff.1 hp).1, (leafRule?_eq_some_iff.1 hq).1]

theorem nodup_branchRules (hn : g.productions.Nodup) : (ofGrammar g).branchRules.Nodup := by
  apply hn.filterMap
  intro p q rule hp hq
  rw [(branchRule?_eq_some_iff.1 hp).1, (branchRule?_eq_some_iff.1 hq).1]

variable {parser : Parser} {position : Nat} {token : Token}

theorem mem_leaves_iff : tree ∈ parser.leaves position token ↔
    ∃ rule ∈ parser.leafRules, rule.token = token ∧ tree = .ofToken rule.parent position token := by
  simp only [leaves, List.mem_map, List.mem_filter, beq_iff_eq, and_assoc, @eq_comm _ tree]

theorem nodup_leaves (hn : parser.leafRules.Nodup) : (parser.leaves position token).Nodup := by
  apply List.Nodup.map_on _ (hn.filter _)
  intro rule hr rule' hr' he
  have ht := beq_iff_eq.1 (List.mem_filter.1 hr).2
  have ht' := beq_iff_eq.1 (List.mem_filter.1 hr').2
  have hp := (Tree.ofToken_inj he).1
  cases rule
  cases rule'
  grind

/-- The trees over single tokens, from left to right. -/
def allLeaves (parser : Parser) (tokens : List Token) : List Tree :=
  tokens.zipIdx.flatMap fun (token, position) => parser.leaves position token

theorem mem_allLeaves_iff : tree ∈ (ofGrammar g).allLeaves tokens ↔
    tree.DerivedBy g tokens ∧ tree.first = tree.last := by
  simp only [allLeaves, List.mem_flatMap, mem_leaves_iff, mem_leafRules_iff]
  apply Iff.intro
  · intro h
    obtain ⟨⟨token, position⟩, hm, rule, ⟨hp, ha⟩, rfl, rfl⟩ := h
    exact ⟨.leaf (List.mem_zipIdx_iff_getElem?.1 hm) ha hp, rfl⟩
  · intro h
    obtain ⟨hd, he⟩ := h
    cases hd with
    | @leaf a position token found terminal rule =>
      have hm : (token, position) ∈ tokens.zipIdx := List.mem_zipIdx_iff_getElem?.2 found
      exact ⟨(token, position), hm, ⟨a, token⟩, ⟨rule, terminal⟩, rfl, rfl⟩
    | branch hl hr adjacent =>
      have hll := hl.first_le_last
      have hrr := hr.first_le_last
      rw [Tree.first_ofParts, Tree.last_ofParts] at he
      omega

theorem nodup_allLeaves (hn : g.productions.Nodup) : ((ofGrammar g).allLeaves tokens).Nodup := by
  apply nodup_flatMap_of_injOn
  · exact List.Nodup.of_map _ (by rw [List.zipIdx_map_snd]; exact List.nodup_range')
  · intro entry _
    exact nodup_leaves (nodup_leafRules hn)
  · intro entry _ entry' _ tree hm hm'
    obtain ⟨_, _, _, rfl⟩ := mem_leaves_iff.1 hm
    obtain ⟨_, _, _, he⟩ := mem_leaves_iff.1 hm'
    obtain ⟨_, hp, ht⟩ := Tree.ofToken_inj he
    exact Prod.ext ht hp

section

variable {lefts rights : List Tree} {b c : Symbol} {rule rule' : BranchRule}

/-- The rules that make something of two symbols. -/
def rulesFor (parser : Parser) (b c : Symbol) : List BranchRule :=
  (parser.branchRules.filter (·.left == b)).filter (·.right == c)

theorem mem_rulesFor_iff : rule ∈ parser.rulesFor b c ↔
    rule ∈ parser.branchRules ∧ rule.left = b ∧ rule.right = c := by
  simp only [rulesFor, List.mem_filter, beq_iff_eq, and_assoc]

theorem nodup_rulesFor (hn : parser.branchRules.Nodup) : (parser.rulesFor b c).Nodup :=
  (hn.filter _).filter _

/-- Rules for the same two symbols have different parents. -/
theorem eq_of_parent_eq (hm : rule ∈ parser.rulesFor b c) (hm' : rule' ∈ parser.rulesFor b c)
    (hp : rule.parent = rule'.parent) : rule = rule' := by
  rw [mem_rulesFor_iff] at hm hm'
  cases rule
  cases rule'
  grind

/-- What the rules for two symbols make of trees of these symbols. -/
def joined (parser : Parser) (b c : Symbol) (lefts rights : List Tree) : List Tree :=
  (parser.rulesFor b c).flatMap fun rule => lefts.flatMap fun left =>
    rights.map fun right => .ofParts rule.parent left right

theorem mem_joined_iff : tree ∈ parser.joined b c lefts rights ↔
    ∃ rule ∈ parser.rulesFor b c, ∃ left ∈ lefts, ∃ right ∈ rights,
      .ofParts rule.parent left right = tree := by
  simp only [joined, List.mem_flatMap, List.mem_map]

theorem nodup_joined (hn : parser.branchRules.Nodup) (hl : lefts.Nodup) (hr : rights.Nodup) :
    (parser.joined b c lefts rights).Nodup := by
  apply nodup_flatMap_of_injOn (nodup_rulesFor hn)
  · intro rule _
    apply nodup_flatMap_of_injOn hl
    · intro left _
      apply hr.map
      intro right right' h
      exact (Tree.ofParts_inj h).2.2
    · intro left _ left' _ tree ht ht'
      obtain ⟨_, _, rfl⟩ := List.mem_map.1 ht
      obtain ⟨_, _, h⟩ := List.mem_map.1 ht'
      exact (Tree.ofParts_inj h).2.1.symm
  · intro rule hm rule' hm' tree ht ht'
    simp only [List.mem_flatMap, List.mem_map] at ht ht'
    obtain ⟨_, _, _, _, rfl⟩ := ht
    obtain ⟨_, _, _, _, h⟩ := ht'
    exact eq_of_parent_eq hm hm' (Tree.ofParts_inj h).1.symm

end

variable {lefts rights : Cell}

theorem branches_eq : parser.branches lefts rights =
    lefts.flatMap fun l => rights.flatMap fun r =>
      parser.joined l.1 r.1 l.2.toList r.2.toList := rfl

theorem mem_branches_iff (hl : lefts.Ordered) (hr : rights.Ordered) :
    tree ∈ parser.branches lefts rights ↔ ∃ rule ∈ parser.branchRules,
      ∃ left ∈ lefts.trees rule.left, ∃ right ∈ rights.trees rule.right,
        tree = .ofParts rule.parent left right := by
  simp only [branches_eq, List.mem_flatMap, mem_joined_iff, mem_rulesFor_iff,
    Array.mem_toList_iff]
  apply Iff.intro
  · intro h
    obtain ⟨entry, he, entry', he', rule, ⟨hm, hb, hc⟩, left, hleft, right, hright, rfl⟩ := h
    rw [← Cell.trees_eq_of_mem hl he, ← hb] at hleft
    rw [← Cell.trees_eq_of_mem hr he', ← hc] at hright
    exact ⟨rule, hm, left, hleft, right, hright, rfl⟩
  · intro h
    obtain ⟨rule, hm, left, hleft, right, hright, rfl⟩ := h
    have he := Cell.mem_of_trees_ne (Array.ne_empty_of_mem hleft)
    have he' := Cell.mem_of_trees_ne (Array.ne_empty_of_mem hright)
    exact ⟨_, he, _, he', rule, ⟨hm, rfl, rfl⟩, left, hleft, right, hright, rfl⟩

theorem nodup_branches (hn : parser.branchRules.Nodup) (hl : lefts.Labelled)
    (hr : rights.Labelled) : (parser.branches lefts rights).Nodup := by
  rw [branches_eq]
  apply nodup_flatMap_of_injOn hl.ordered.nodup
  · intro entry he
    apply nodup_flatMap_of_injOn hr.ordered.nodup
    · intro entry' he'
      exact nodup_joined hn (hl.nodup entry he) (hr.nodup entry' he')
    · intro entry₁ he₁ entry₂ he₂ tree ht ht'
      obtain ⟨_, _, _, _, right, hright, rfl⟩ := mem_joined_iff.1 ht
      obtain ⟨_, _, _, _, right', hright', h⟩ := mem_joined_iff.1 ht'
      obtain rfl := (Tree.ofParts_inj h).2.2
      exact hr.eq_of_mem he₁ he₂ hright hright'
  · intro entry₁ he₁ entry₂ he₂ tree ht ht'
    obtain ⟨_, _, hj⟩ := List.mem_flatMap.1 ht
    obtain ⟨_, _, hj'⟩ := List.mem_flatMap.1 ht'
    obtain ⟨_, _, left, hleft, _, _, rfl⟩ := mem_joined_iff.1 hj
    obtain ⟨_, _, left', hleft', _, _, h⟩ := mem_joined_iff.1 hj'
    obtain rfl := (Tree.ofParts_inj h).2.1
    exact hl.eq_of_mem he₁ he₂ hleft hleft'

end Parser

end PhraseGrammar
