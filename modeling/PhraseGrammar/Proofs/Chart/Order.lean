import Mathlib.Data.List.Sort
import PhraseGrammar.Chart.Derivation
import PhraseGrammar.Proofs.Grammar.Symbols

namespace PhraseGrammar.Tree

/-- Which of two derivations of a symbol over a span comes first. The one whose left part ends
earlier does. Where the left parts end together, the symbols of the left parts decide, then those of
the right parts, then the left parts themselves, and the right parts in the end. -/
inductive Precedes : Tree → Tree → Prop where
  | cut {a : Symbol} {first last first' last' : Nat} {left right left' right' : Tree}
    (h : left.last < left'.last) :
    Precedes (.branch a first last left right) (.branch a first' last' left' right')
  | leftSymbol {a : Symbol} {first last first' last' : Nat} {left right left' right' : Tree}
    (hc : left.last = left'.last) (h : left.symbol < left'.symbol) :
    Precedes (.branch a first last left right) (.branch a first' last' left' right')
  | rightSymbol {a : Symbol} {first last first' last' : Nat} {left right left' right' : Tree}
    (hc : left.last = left'.last) (hl : left.symbol = left'.symbol)
    (h : right.symbol < right'.symbol) :
    Precedes (.branch a first last left right) (.branch a first' last' left' right')
  | leftPart {a : Symbol} {first last first' last' : Nat} {left right left' right' : Tree}
    (hc : left.last = left'.last) (hl : left.symbol = left'.symbol)
    (hr : right.symbol = right'.symbol) (h : Precedes left left') :
    Precedes (.branch a first last left right) (.branch a first' last' left' right')
  | rightPart {a : Symbol} {first last first' last' : Nat} {left right right' : Tree}
    (hr : right.symbol = right'.symbol) (h : Precedes right right') :
    Precedes (.branch a first last left right) (.branch a first' last' left right')

variable {tree tree' : Tree} {trees trees' : List Tree}

theorem Precedes.asymm (h : tree.Precedes tree') : ¬tree'.Precedes tree := by
  induction tree generalizing tree' with
  | leaf => cases h
  | branch a first last left right ihl ihr =>
    intro h'
    cases h with
    | cut h => cases h' <;> omega
    | leftSymbol hc h =>
      cases h' with
      | cut h' => omega
      | leftSymbol _ h' => exact String.lt_asymm h h'
      | rightSymbol _ hl | leftPart _ hl => exact String.lt_irrefl _ (hl ▸ h)
      | rightPart => exact String.lt_irrefl _ h
    | rightSymbol hc hl h =>
      cases h' with
      | cut h' => omega
      | leftSymbol _ h' => exact String.lt_irrefl _ (hl ▸ h')
      | rightSymbol _ _ h' => exact String.lt_asymm h h'
      | leftPart _ _ hr | rightPart hr => exact String.lt_irrefl _ (hr ▸ h)
    | leftPart hc hl hr h =>
      cases h' with
      | cut h' => omega
      | leftSymbol _ h' => exact String.lt_irrefl _ (hl ▸ h')
      | rightSymbol _ _ h' => exact String.lt_irrefl _ (hr ▸ h')
      | leftPart _ _ _ h' => exact ihl h h'
      | rightPart => exact ihl h h
    | rightPart hr h =>
      cases h' with
      | cut h' => omega
      | leftSymbol _ h' => exact String.lt_irrefl _ h'
      | rightSymbol _ _ h' => exact String.lt_irrefl _ (hr ▸ h')
      | leftPart _ _ _ h' => exact ihl h' h'
      | rightPart _ h' => exact ihr h h'

theorem eq_of_precedes (h : trees.Pairwise Precedes) (h' : trees'.Pairwise Precedes)
    (hm : ∀ tree, tree ∈ trees ↔ tree ∈ trees') : trees = trees' := by
  have : Std.Irrefl Precedes := ⟨fun _ ht => ht.asymm ht⟩
  have : Std.Antisymm Precedes := ⟨fun _ _ ht ht' => absurd ht' ht.asymm⟩
  exact h.eq_of_mem_iff h' hm

theorem getElem?_zero_eq_some_iff (h : trees.Pairwise Precedes) : trees[0]? = some tree ↔
    tree ∈ trees ∧ ∀ other ∈ trees, other = tree ∨ tree.Precedes other := by
  cases trees with
  | nil => simp
  | cons least trees =>
    have hl := (List.pairwise_cons.1 h).1
    rw [List.getElem?_cons_zero, Option.some_inj]
    apply Iff.intro
    · rintro rfl
      refine ⟨List.mem_cons_self, List.forall_mem_cons.2 ⟨.inl rfl, ?_⟩⟩
      exact fun other ho => .inr (hl other ho)
    · rintro ⟨hm, ho⟩
      rcases ho least List.mem_cons_self with he | hp
      · exact he
      · rcases List.mem_cons.1 hm with he | hm
        · exact he.symm
        · exact absurd hp (hl tree hm).asymm

/-- The same derivation some positions further on. -/
def shift (distance : Nat) : Tree → Tree
  | leaf a first last token => leaf a (first + distance) (last + distance) token
  | branch a first last left right =>
    branch a (first + distance) (last + distance) (left.shift distance) (right.shift distance)

variable {distance : Nat}

@[simp]
theorem symbol_shift : (tree.shift distance).symbol = tree.symbol := by
  cases tree <;> rfl

@[simp]
theorem first_shift : (tree.shift distance).first = tree.first + distance := by
  cases tree <;> rfl

@[simp]
theorem last_shift : (tree.shift distance).last = tree.last + distance := by
  cases tree <;> rfl

theorem shift_ofToken {a : Symbol} {position : Nat} {token : Token} :
    (ofToken a position token).shift distance = ofToken a (position + distance) token := rfl

theorem shift_ofParts {a : Symbol} {left right : Tree} : (ofParts a left right).shift distance =
    ofParts a (left.shift distance) (right.shift distance) := by
  rw [ofParts, ofParts, first_shift, last_shift, shift]

theorem Precedes.shift (h : tree.Precedes tree') (distance : Nat) :
    (tree.shift distance).Precedes (tree'.shift distance) := by
  induction h with
  | cut h => exact .cut (by simpa using h)
  | leftSymbol hc h => exact .leftSymbol (by simpa using hc) (by simpa using h)
  | rightSymbol hc hl h =>
    exact .rightSymbol (by simpa using hc) (by simpa using hl) (by simpa using h)
  | leftPart hc hl hr _ ih =>
    exact .leftPart (by simpa using hc) (by simpa using hl) (by simpa using hr) ih
  | rightPart hr _ ih => exact .rightPart (by simpa using hr) ih

theorem pairwise_precedes_shift (h : trees.Pairwise Precedes) (distance : Nat) :
    (trees.map (shift distance)).Pairwise Precedes :=
  List.pairwise_map.2 (h.imp fun hp => hp.shift distance)

/-- Where the same tokens stand in another sentence, another grammar with the same productions of a
normal shape has the same derivation. -/
theorem DerivedBy.exists_shift_eq {g g' : Grammar} {tokens tokens' : List Token}
    {start start' : Nat}
    (hg : ∀ p ∈ g.productions, p.isNormal = true → p ∈ g'.productions)
    (h : tree.DerivedBy g tokens) (hf : start ≤ tree.first)
    (ht : ∀ distance, start + distance ≤ tree.last →
      tokens'[start' + distance]? = tokens[start + distance]?) :
    ∃ tree' : Tree, tree'.DerivedBy g' tokens' ∧ tree'.shift start = tree.shift start' := by
  induction h with
  | @leaf a position token found terminal rule =>
    obtain ⟨distance, rfl⟩ := Nat.exists_eq_add_of_le hf
    have hr := hg _ rule (Production.isNormal_eq_true_iff.2 (.inl ⟨token, rfl, terminal⟩))
    refine ⟨.ofToken a (start' + distance) token, .leaf ?_ terminal hr, ?_⟩
    · rw [ht distance (Nat.le_refl _), found]
    · have he : start' + distance + start = start + distance + start' := by omega
      rw [shift_ofToken, shift_ofToken, he]
  | @branch a left right hdl hdr adjacent nonterminals rule ihl ihr =>
    have hll := hdl.first_le_last
    have hrl := hdr.first_le_last
    rw [first_ofParts] at hf
    rw [last_ofParts] at ht
    obtain ⟨left', hdl', hl⟩ := ihl hf fun distance hd => ht distance (by omega)
    obtain ⟨right', hdr', hr⟩ := ihr (by omega) ht
    have hc := congrArg last hl
    have hs := congrArg first hr
    have hsl := congrArg symbol hl
    have hsr := congrArg symbol hr
    simp only [last_shift, first_shift, symbol_shift] at hc hs hsl hsr
    rw [← hsl, ← hsr] at rule nonterminals
    have hp := hg _ rule (Production.isNormal_eq_true_iff.2 (.inr ⟨_, _, rfl, nonterminals⟩))
    refine ⟨.ofParts a left' right', .branch hdl' hdr' (by omega) nonterminals hp, ?_⟩
    rw [shift_ofParts, shift_ofParts, hl, hr]

end PhraseGrammar.Tree
