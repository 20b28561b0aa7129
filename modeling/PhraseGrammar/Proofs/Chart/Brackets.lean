import PhraseGrammar.Proofs.Chart.Exactness
import PhraseGrammar.Proofs.Grammar.Symbols
import PhraseGrammar.Proofs.Text.Tokens

namespace PhraseGrammar

/-- What stands before the first of certain elements is determined, and so is what follows. -/
theorem append_cons_inj_of_not_mem {α : Type} {c : α} {before before' after after' : List α}
    (hb : c ∉ before) (hb' : c ∉ before') (he : before ++ c :: after = before' ++ c :: after') :
    before = before' ∧ after = after' := by
  induction before generalizing before' with
  | nil =>
    cases before' with
    | nil => exact ⟨rfl, (List.cons.inj he).2⟩
    | cons d before' => exact absurd ((List.cons.inj he).1 ▸ List.mem_cons_self) hb'
  | cons d before ih =>
    cases before' with
    | nil => exact absurd ((List.cons.inj he).1 ▸ List.mem_cons_self) hb
    | cons d' before' =>
      obtain ⟨hd, ht⟩ := List.cons.inj he
      obtain ⟨hs, ha⟩ := ih (mt (List.mem_cons_of_mem _) hb) (mt (List.mem_cons_of_mem _) hb') ht
      exact ⟨congrArg₂ List.cons hd hs, ha⟩

namespace Tree

/-- Two derivations have one shape, with the same symbols and the same tokens. Their spans may
differ. -/
inductive Alike : Tree → Tree → Prop where
  | leaf {a : Symbol} {first last first' last' : Nat} {token : Token} :
    Alike (.leaf a first last token) (.leaf a first' last' token)
  | branch {a : Symbol} {first last first' last' : Nat} {left right left' right' : Tree}
    (hl : Alike left left') (hr : Alike right right') :
    Alike (.branch a first last left right) (.branch a first' last' left' right')

/-- No symbol holds a space, and no token holds a closing bracket or begins with an opening one. -/
def Legible : Tree → Prop
  | leaf a _ _ token => ' ' ∉ a.toList ∧ ')' ∉ token.toList ∧ token.toList.head? ≠ some '('
  | branch a _ _ left right => ' ' ∉ a.toList ∧ left.Legible ∧ right.Legible

variable {g : Grammar} {tokens : List Token} {tree tree' left right : Tree} {a : Symbol}
  {token : Token} {first last : Nat} {rest rest' : List Char}

theorem toList_render_leaf : (leaf a first last token).render.toList ++ rest =
    '(' :: (a.toList ++ ' ' :: (token.toList ++ ')' :: rest)) := by
  simp [render]

theorem toList_render_branch : (branch a first last left right).render.toList ++ rest =
    '(' :: (a.toList ++ ' ' :: (left.render.toList ++ ' ' :: (right.render.toList ++
      ')' :: rest))) := by
  simp [render]

theorem head?_render (tree : Tree) (rest : List Char) :
    (tree.render.toList ++ rest).head? = some '(' := by
  cases tree with
  | leaf => rw [toList_render_leaf, List.head?_cons]
  | branch => rw [toList_render_branch, List.head?_cons]

/-- Where a token could stand, no derivation begins. -/
theorem token_ne_render (ht : token.toList.head? ≠ some '(') :
    token.toList ++ ')' :: rest ≠ tree.render.toList ++ rest' := by
  intro he
  have hh := congrArg List.head? he
  rw [head?_render] at hh
  cases hl : token.toList with
  | nil => simp [hl] at hh
  | cons c text =>
    rw [hl] at hh ht
    exact ht hh

/-- The text of a derivation ends where its last bracket stands, whatever follows. -/
theorem Legible.alike_of_append (h : tree.Legible) (h' : tree'.Legible)
    (he : tree.render.toList ++ rest = tree'.render.toList ++ rest') :
    tree.Alike tree' ∧ rest = rest' := by
  induction tree generalizing tree' rest rest' with
  | leaf a first last token =>
    obtain ⟨ha, hc, ho⟩ := h
    rw [toList_render_leaf] at he
    cases tree' with
    | leaf a' first' last' token' =>
      obtain ⟨ha', hc', _⟩ := h'
      rw [toList_render_leaf] at he
      obtain ⟨hs, ht⟩ := append_cons_inj_of_not_mem ha ha' (List.cons.inj he).2
      obtain ⟨ht, hr⟩ := append_cons_inj_of_not_mem hc hc' ht
      rw [String.toList_inj.1 hs, String.toList_inj.1 ht]
      exact ⟨.leaf, hr⟩
    | branch a' first' last' left' right' =>
      rw [toList_render_branch] at he
      exact absurd (append_cons_inj_of_not_mem ha h'.1 (List.cons.inj he).2).2 (token_ne_render ho)
  | branch a first last left right ihl ihr =>
    obtain ⟨ha, hl, hr⟩ := h
    rw [toList_render_branch] at he
    cases tree' with
    | leaf a' first' last' token' =>
      obtain ⟨ha', _, ho'⟩ := h'
      rw [toList_render_leaf] at he
      have hr := (append_cons_inj_of_not_mem ha ha' (List.cons.inj he).2).2
      exact absurd hr.symm (token_ne_render ho')
    | branch a' first' last' left' right' =>
      obtain ⟨ha', hl', hr'⟩ := h'
      rw [toList_render_branch] at he
      obtain ⟨hs, ht⟩ := append_cons_inj_of_not_mem ha ha' (List.cons.inj he).2
      obtain ⟨hal, ht⟩ := ihl hl hl' ht
      obtain ⟨har, ht⟩ := ihr hr hr' (List.cons.inj ht).2
      rw [String.toList_inj.1 hs]
      exact ⟨.branch hal har, (List.cons.inj ht).2⟩

theorem Alike.render_eq (h : tree.Alike tree') : tree.render = tree'.render := by
  induction h with
  | leaf => rfl
  | branch _ _ ihl ihr => rw [render, render, ihl, ihr]

theorem Alike.tokens_eq (h : tree.Alike tree') : tree.tokens = tree'.tokens := by
  induction h with
  | leaf => rfl
  | branch _ _ ihl ihr => rw [tokens, tokens, ihl, ihr]

theorem Legible.render_eq_iff (h : tree.Legible) (h' : tree'.Legible) :
    tree.render = tree'.render ↔ tree.Alike tree' := by
  apply Iff.intro
  · intro he
    have ht : tree.render.toList ++ [] = tree'.render.toList ++ [] := by rw [he]
    exact (h.alike_of_append h' ht).1
  · exact Alike.render_eq

/-- In a sentence the place of the first leaf determines the places of all others. -/
theorem Alike.eq_of_derivedBy (h : tree.Alike tree') (hd : tree.DerivedBy g tokens)
    (hd' : tree'.DerivedBy g tokens) (hf : tree.first = tree'.first) : tree = tree' := by
  induction h with
  | @leaf _ first _ first' _ _ =>
    obtain rfl : first = first' := hf
    cases hd
    cases hd'
    rfl
  | branch _ _ ihl ihr =>
    cases hd with
    | branch hl hr adjacent =>
      cases hd' with
      | branch hl' hr' adjacent' =>
        obtain rfl := ihl hl hl' hf
        obtain rfl := ihr hr hr' (adjacent.trans adjacent'.symm)
        rfl

theorem DerivedBy.legible (h : tree.DerivedBy g tokens)
    (hs : ∀ a ∈ g.nonterminals, ' ' ∉ a.toList)
    (ht : ∀ token ∈ tokens, ')' ∉ token.toList ∧ token.toList.head? ≠ some '(') :
    tree.Legible := by
  induction h with
  | leaf found _ rule =>
    exact ⟨hs _ (Grammar.mem_nonterminals_iff.2 ⟨_, rule, rfl⟩),
      ht _ (List.mem_of_getElem? found)⟩
  | branch _ _ _ _ rule ihl ihr =>
    exact ⟨hs _ (Grammar.mem_nonterminals_iff.2 ⟨_, rule, rfl⟩), ihl, ihr⟩

end Tree

theorem brackets_of_mem_tokenize {sentence : String} {token : Token}
    (h : token ∈ tokenize sentence) : ')' ∉ token.toList ∧ token.toList.head? ≠ some '(' := by
  have hp := (isWord_of_mem_tokenize h).not_punctuation
  have hn {c : Char} (hc : isPunctuation c = true) : c ∉ token.toList := by
    intro hm
    rw [hp c hm] at hc
    cases hc
  exact ⟨hn rfl, fun ho => hn rfl (List.mem_of_head? ho)⟩

namespace Parser

variable {g : Grammar} {tokens : List Token} {first last : Nat} {cell : Cell}

/-- All trees of a cell, whatever their symbols, are derivations that begin at one position, and
each of them is there once. -/
theorem cell_parse_spec (hn : g.productions.Nodup)
    (hc : ((ofGrammar g).parse tokens).chart.cell? first last = some cell) :
    (cell.flatMap (·.2.toList)).Nodup ∧
      ∀ tree ∈ cell.flatMap (·.2.toList), tree.DerivedBy g tokens ∧ tree.first = first := by
  have hw := (progress_parse hn tokens).wellFormed
  obtain ⟨index, hi, _⟩ := Chart.cell?_eq_some_iff.1 hc
  obtain ⟨hf, hl, _⟩ := Chart.index?_eq_some_iff.1 hi
  rw [(progress_parse hn tokens).size_eq] at hl
  have hfill := filled_parse hn hf hl
  have hlab := hfill.labelled hw hc
  refine ⟨?_, ?_⟩
  · apply nodup_flatMap_of_injOn hlab.ordered.nodup hlab.nodup
    intro entry he entry' he' tree
    exact hlab.eq_of_mem he he'
  · intro tree hm
    obtain ⟨entry, he, ht⟩ := List.mem_flatMap.1 hm
    rw [hw.trees_eq_of_mem hc he, Array.mem_toList_iff, hfill.mem_iff, Tree.isAt_eq_true_iff] at ht
    exact ⟨ht.1, ht.2.2.1⟩

end Parser

/-- The text of a derivation shows its shape, its symbols and its tokens. So in the chart of a typed
sentence no two derivations over a span are written in the same way. -/
theorem render_determines_tree :
    (∀ tree tree' : Tree, tree.Legible → tree'.Legible →
      (tree.render = tree'.render ↔ tree.Alike tree')) ∧
    ∀ g : Grammar, g.productions.Nodup → (∀ a ∈ g.nonterminals, ' ' ∉ a.toList) →
      ∀ sentence first last cell,
        ((Parser.ofGrammar g).parse (tokenize sentence)).chart.cell? first last = some cell →
          ((cell.flatMap (·.2.toList)).map Tree.render).Nodup := by
  refine ⟨fun _ _ => Tree.Legible.render_eq_iff, ?_⟩
  intro g hn hs sentence first last cell hc
  obtain ⟨hnd, hm⟩ := Parser.cell_parse_spec hn hc
  have hleg {tree : Tree} (hd : tree.DerivedBy g (tokenize sentence)) : tree.Legible :=
    hd.legible hs fun _ => brackets_of_mem_tokenize
  apply hnd.map_on
  intro tree ht tree' ht' he
  obtain ⟨hd, hf⟩ := hm tree ht
  obtain ⟨hd', hf'⟩ := hm tree' ht'
  have ha := ((hleg hd).render_eq_iff (hleg hd')).1 he
  exact ha.eq_of_derivedBy hd hd' (hf.trans hf'.symm)

/-- Some of its symbols hold brackets themselves. -/
def bracketed : Grammar :=
  ⟨"S(", [⟨"S(", ["S(", "S("]⟩, ⟨"S(", ["A)"]⟩, ⟨"S(", ["a"]⟩]⟩

theorem render_bracketed :
    (Tree.ofParts "S(" (.ofToken "S(" 0 "a") (.ofToken "S)" 1 "b(")).render ≠
        (Tree.ofParts "S(" (.ofToken "S(" 0 "a") (.ofToken "S)" 1 "b")).render ∧
      bracketed.productions.Nodup ∧ (∀ a ∈ bracketed.nonterminals, ' ' ∉ a.toList) ∧
      ∃ cell, ((Parser.ofGrammar bracketed).parse (tokenize "A a (a) a!")).chart.cell? 0 3 =
          some cell ∧
        (cell.flatMap (·.2.toList)).length = 5 ∧
        ((cell.flatMap (·.2.toList)).map Tree.render).Nodup := by
  obtain ⟨hr, hc⟩ := render_determines_tree
  have hn : bracketed.productions.Nodup := by decide
  have hs : ∀ a ∈ bracketed.nonterminals, ' ' ∉ a.toList := by decide +kernel
  obtain ⟨cell, he, hl⟩ : ∃ cell, ((Parser.ofGrammar bracketed).parse
      (tokenize "A a (a) a!")).chart.cell? 0 3 = some cell ∧
        (cell.flatMap (·.2.toList)).length = 5 := by
    apply Option.map_eq_some_iff.1
    decide +kernel
  have hleg (token : Token) (ht : ')' ∉ token.toList ∧ token.toList.head? ≠ some '(') :
      (Tree.ofParts "S(" (.ofToken "S(" 0 "a") (.ofToken "S)" 1 token)).Legible :=
    ⟨by decide, ⟨by decide, by decide, by decide⟩, by decide, ht⟩
  refine ⟨?_, hn, hs, cell, he, hl, hc bracketed hn hs _ 0 3 cell he⟩
  rw [Ne, hr _ _ (hleg "b(" (by decide)) (hleg "b" (by decide))]
  intro ha
  exact absurd ha.tokens_eq (by decide)

end PhraseGrammar
