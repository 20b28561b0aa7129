import PhraseGrammar.Proofs.Chart.Exactness
import PhraseGrammar.Proofs.Grammar.Symbols
import PhraseGrammar.Proofs.Language.Yield

namespace PhraseGrammar

variable {g : Grammar} {tokens : List Token} {tree : Tree}

theorem Tree.DerivedBy.yields (h : tree.DerivedBy g tokens) :
    g.Yields [tree.symbol] tree.tokens := by
  induction h with
  | leaf found terminal rule => exact .of_mem rule (.terminal terminal .nil)
  | branch _ _ _ _ rule ihl ihr => exact .of_mem rule (ihl.append ihr)

/-- A part of a sentence is made up of one token for each terminal of a list, and of the tokens of
one derivation for each nonterminal. -/
inductive Covers (g : Grammar) (tokens : List Token) : List Symbol → Nat → Nat → Prop where
  | nil (start : Nat) : Covers g tokens [] start start
  | terminal {a : Symbol} {rest : List Symbol} {start stop : Nat} (ha : isTerminal a = true)
    (found : tokens[start]? = some a) (h : Covers g tokens rest (start + 1) stop) :
    Covers g tokens (a :: rest) start stop
  | tree {a : Symbol} {rest : List Symbol} {start middle stop : Nat} {tree : Tree}
    (ha : isNonterminal a = true) (hd : tree.DerivedBy g tokens) (hs : tree.symbol = a)
    (hf : tree.first = start) (hl : tree.last + 1 = middle) (h : Covers g tokens rest middle stop) :
    Covers g tokens (a :: rest) start stop

theorem Covers.exists_token {a : Symbol} {rest : List Symbol} {start stop : Nat}
    (h : Covers g tokens (a :: rest) start stop) (ha : isTerminal a = true) :
    tokens[start]? = some a ∧ Covers g tokens rest (start + 1) stop := by
  cases h with
  | terminal _ found h => exact ⟨found, h⟩
  | tree hn =>
    rw [isTerminal, hn] at ha
    cases ha

theorem Covers.exists_tree {a : Symbol} {rest : List Symbol} {start stop : Nat}
    (h : Covers g tokens (a :: rest) start stop) (ha : isNonterminal a = true) :
    ∃ tree : Tree, tree.DerivedBy g tokens ∧ tree.symbol = a ∧ tree.first = start ∧
      Covers g tokens rest (tree.last + 1) stop := by
  cases h with
  | terminal ht =>
    rw [isTerminal, ha] at ht
    cases ht
  | tree _ hd hs hf hl h =>
    subst hl
    exact ⟨_, hd, hs, hf, h⟩

theorem Covers.stop_eq {start stop : Nat} (h : Covers g tokens [] start stop) : stop = start := by
  cases h
  rfl

/-- A production that has a normal shape makes one derivation of what covers its right side. -/
theorem Covers.derivedBy {p : Production} {start stop : Nat} (hp : p ∈ g.productions)
    (hn : p.isNormal = true) (h : Covers g tokens p.right start stop) :
    ∃ tree : Tree, tree.DerivedBy g tokens ∧ tree.symbol = p.left ∧ tree.first = start ∧
      tree.last + 1 = stop := by
  obtain ⟨left, right⟩ := p
  rcases Production.isNormal_eq_true_iff.1 hn with ⟨a, rfl, ha⟩ | ⟨b, c, rfl, hb, hc⟩
  · obtain ⟨found, hr⟩ := h.exists_token ha
    exact ⟨_, .leaf found ha hp, rfl, rfl, hr.stop_eq.symm⟩
  · obtain ⟨first, hdf, rfl, hff, hr⟩ := h.exists_tree hb
    obtain ⟨second, hds, rfl, hfs, he⟩ := hr.exists_tree hc
    exact ⟨_, .branch hdf hds hfs ⟨hb, hc⟩ hp, rfl, hff, he.stop_eq.symm⟩

theorem Grammar.Yields.covers {form : List Symbol} {part : List Token} (hw : g.WellFormed)
    (hn : ∀ p ∈ g.productions, p.isNormal = true) (h : g.Yields form part)
    {before after : List Token} (ht : tokens = before ++ part ++ after) :
    Covers g tokens form before.length (before.length + part.length) := by
  induction h generalizing before after with
  | nil => exact .nil _
  | @terminal a _ part ha _ ih =>
    have found : tokens[before.length]? = some a := by simp [ht]
    have ht' : tokens = before ++ [a] ++ part ++ after := by simp [ht]
    have hr := ih ht'
    have he : before.length + (a :: part).length = before.length + 1 + part.length := by
      rw [List.length_cons]
      omega
    rw [List.length_append, List.length_singleton] at hr
    rw [he]
    exact .terminal ha found hr
  | @expand p _ first second hp _ _ ihf ihs =>
    have htf : tokens = before ++ first ++ (second ++ after) := by simp [ht]
    have hts : tokens = before ++ first ++ second ++ after := by simp [ht]
    obtain ⟨tree, hd, hs, hf, hl⟩ := Covers.derivedBy hp (hn p hp) (ihf htf)
    have hr := ihs hts
    rw [List.length_append] at hr
    rw [List.length_append, ← Nat.add_assoc]
    exact .tree (hw.left p hp) hd hs hf hl hr

/-- Of a grammar in normal form, the sentences are what the parser accepts. -/
theorem Parser.accepted_iff_yields (hw : g.WellFormed)
    (hn : ∀ p ∈ g.productions, p.isNormal = true) :
    ((Parser.ofGrammar g).parse tokens).accepted = true ↔ g.Yields [g.start] tokens := by
  rw [accepted_parse_iff hw.nodup]
  apply Iff.intro
  · intro h
    obtain ⟨hne, tree, hd, hs, hf, hl⟩ := h
    have hlen := List.length_pos_iff.2 hne
    have ht := hd.tokens_eq
    rw [hf, hl, List.drop_zero, List.take_of_length_le (by omega)] at ht
    have hy := hd.yields
    rwa [hs, ht] at hy
  · intro h
    have ht : tokens = [] ++ tokens ++ [] := by simp
    obtain ⟨tree, hd, hs, hf, he⟩ := (h.covers hw hn ht).exists_tree hw.start
    have hl := he.stop_eq
    rw [List.length_nil] at hf hl
    refine ⟨?_, tree, hd, hs, hf, by omega⟩
    intro hnil
    rw [hnil, List.length_nil] at hl
    omega

end PhraseGrammar
