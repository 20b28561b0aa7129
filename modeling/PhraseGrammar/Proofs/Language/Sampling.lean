import Mathlib.Data.Stream.Init
import PhraseGrammar.Language.Sample
import PhraseGrammar.Language.SyntaxTree
import PhraseGrammar.Proofs.Agreement
import PhraseGrammar.Proofs.Language.Tape
import PhraseGrammar.Proofs.Pointwise

namespace PhraseGrammar

variable {g : Grammar} {expand : Symbol → Tape → Sample} {depth : Nat} {s : Symbol}
  {right : List Symbol} {tape : Tape} {tokens rest : List Token} {cause : SampleError}
  {first second : List UInt32} {result result' : Except SampleError (List Token)}
  {tree : SyntaxTree} {trees : List SyntaxTree}

/-- A run that comes to a result with certain words, whatever comes after them, and draws these
words and no more. -/
def Consumes (run : Tape → Sample) (words : List UInt32)
    (result : Except SampleError (List Token)) : Prop :=
  ∀ more source drawn, run ⟨words ++ more, source, drawn⟩ =
    (result, ⟨more, source, drawn + words.length⟩)

/-- With an endless source of random words, sampling comes to an end with a result. -/
def Grammar.SamplesFrom (g : Grammar) (depth : Nat) (source : Stream' UInt32)
    (result : Except SampleError (List Token)) : Prop :=
  ∃ count, Consumes (g.sample depth) (source.take count) result

theorem Consumes.exists_tape {run : Tape → Sample} (h : Consumes run first result) :
    ∃ tape, (run tape).1 = result :=
  ⟨⟨first ++ [], .zeros, 0⟩, congrArg Prod.fst (h [] .zeros 0)⟩

/-- The words that a run draws do not depend on what comes after them. -/
theorem Consumes.unique {run : Tape → Sample} (h : Consumes run first result)
    (h' : Consumes run second result') (hp : first <+: second) : result = result' := by
  obtain ⟨more, rfl⟩ := hp
  have hr := h (more ++ []) .zeros 0
  rw [← List.append_assoc, h'] at hr
  exact (congrArg Prod.fst hr).symm

namespace Grammar

theorem SamplesFrom.unique {source : Stream' UInt32} (h : g.SamplesFrom depth source result)
    (h' : g.SamplesFrom depth source result') : result = result' := by
  obtain ⟨count, hc⟩ := h
  obtain ⟨count', hc'⟩ := h'
  rcases Nat.le_total count count' with hle | hle
  · exact hc.unique hc' (Stream'.take_prefix_take_left _ _ _ hle)
  · exact (hc'.unique hc (Stream'.take_prefix_take_left _ _ _ hle)).symm

theorem SamplesFrom.of_consumes (h : Consumes (g.sample depth) first result)
    (source : Stream' UInt32) : g.SamplesFrom depth (first ++ₛ source) result := by
  use first.length
  rwa [Stream'.take_append_of_le_length _ _ _ (Nat.le_refl _), List.take_length]

end Grammar

namespace SyntaxTree

theorem height_le_heightOfAll (h : tree ∈ trees) : tree.height ≤ heightOfAll trees := by
  induction trees with
  | nil => cases h
  | cons first trees ih =>
    rw [heightOfAll]
    rcases List.mem_cons.1 h with rfl | h
    · exact Nat.le_max_left _ _
    · exact Nat.le_trans (ih h) (Nat.le_max_right _ _)

theorem DerivedBy.yields (h : tree.DerivedBy g) : g.Yields [tree.root] tree.tokens := by
  induction h with
  | leaf ha => exact .terminal ha .nil
  | @node a below rule parts ih =>
    have hb : g.Yields (below.map root) (tokensOfAll below) := by
      clear rule parts
      induction below with
      | nil => exact .nil
      | cons tree below ihb =>
        rw [List.forall_mem_cons] at ih
        exact ih.1.append (ihb ih.2)
    exact .of_mem rule hb

end SyntaxTree

open SyntaxTree

theorem expandAll_cons_error {rest : Tape} (h : expand s tape = (.error cause, rest)) :
    expandAll expand (s :: right) tape = (.error cause, rest) := by
  rw [expandAll, h]

theorem expandAll_cons_ok {rest : Tape} (h : expand s tape = (.ok tokens, rest)) :
    expandAll expand (s :: right) tape =
      ((expandAll expand right rest).1.map (tokens ++ ·), (expandAll expand right rest).2) := by
  rw [expandAll, h]
  simp only
  obtain ⟨cause | rest, tape⟩ := expandAll expand right rest
  · rfl
  · rfl

theorem expandAll_eq_ok (h : (expandAll expand right tape).1 = .ok tokens) :
    ∃ parts, List.Forall₂ (fun s part => ∃ tape, (expand s tape).1 = .ok part) right parts ∧
      parts.flatten = tokens := by
  induction right generalizing tape tokens with
  | nil =>
    cases h
    exact ⟨[], .nil, rfl⟩
  | cons s right ih =>
    rcases he : expand s tape with ⟨cause | first, rest⟩
    · rw [expandAll_cons_error he] at h
      cases h
    · rw [expandAll_cons_ok he] at h
      obtain ⟨second, hs, rfl⟩ := map_eq_ok_iff.1 h
      obtain ⟨parts, hp, rfl⟩ := ih hs
      exact ⟨first :: parts, .cons ⟨tape, congrArg Prod.fst he⟩ hp, rfl⟩

theorem expandAll_eq_error (h : (expandAll expand right tape).1 = .error cause) :
    ∃ s ∈ right, ∃ tape, (expand s tape).1 = .error cause := by
  induction right generalizing tape with
  | nil => cases h
  | cons s right ih =>
    rcases he : expand s tape with ⟨other | first, rest⟩
    · rw [expandAll_cons_error he] at h
      cases h
      exact ⟨s, List.mem_cons_self, tape, congrArg Prod.fst he⟩
    · rw [expandAll_cons_ok he] at h
      obtain ⟨s, hs, tape, he⟩ := ih (map_eq_error_iff.1 h)
      exact ⟨s, List.mem_cons_of_mem _ hs, tape, he⟩

theorem Consumes.expandAll_cons (hf : Consumes (expand s) first (.ok tokens))
    (hs : Consumes (expandAll expand right) second result) :
    Consumes (expandAll expand (s :: right)) (first ++ second) (result.map (tokens ++ ·)) := by
  intro more source drawn
  rw [List.append_assoc, expandAll_cons_ok (hf _ _ _), hs, List.length_append, Nat.add_assoc]

theorem exists_consumes_expandAll
    (h : ∀ tree ∈ trees, ∃ words, Consumes (expand tree.root) words (.ok tree.tokens)) :
    ∃ words, Consumes (expandAll expand (trees.map root)) words (.ok (tokensOfAll trees)) := by
  induction trees with
  | nil => exact ⟨[], fun _ _ _ => rfl⟩
  | cons tree trees ih =>
    rw [List.forall_mem_cons] at h
    obtain ⟨first, hf⟩ := h.1
    obtain ⟨second, hs⟩ := ih h.2
    exact ⟨first ++ second, hf.expandAll_cons hs⟩

namespace Grammar

theorem expand_of_isTerminal (hs : isTerminal s = true) :
    g.expand depth s tape = (.ok [s], tape) := by
  cases depth with
  | zero => exact if_pos hs
  | succ depth => exact if_pos hs

theorem expand_zero (hs : isTerminal s = false) :
    g.expand 0 s tape = (.error .tooDeep, tape) := by
  rw [expand, hs]
  rfl

theorem expand_succ_of_nil (hs : isTerminal s = false) (h : g.rightSides s = []) :
    g.expand (depth + 1) s tape = (.error (.undefinedNonterminal s), tape) := by
  rw [expand, hs, h]
  rfl

theorem expand_succ_of_choose? {rest : Tape} (hs : isTerminal s = false)
    (h : tape.choose? (g.rightSides s) = some (right, rest)) :
    g.expand (depth + 1) s tape = expandAll (g.expand depth) right rest := by
  rw [expand, hs, h]
  rfl

/-- A nonterminal has no right side, or one of them is expanded. -/
theorem expand_succ_cases (hs : isTerminal s = false) :
    (g.rightSides s = [] ∧
      g.expand (depth + 1) s tape = (.error (.undefinedNonterminal s), tape)) ∨
    ∃ right rest, ⟨s, right⟩ ∈ g.productions ∧
      g.expand (depth + 1) s tape = expandAll (g.expand depth) right rest := by
  by_cases hr : g.rightSides s = []
  · exact .inl ⟨hr, expand_succ_of_nil hs hr⟩
  · obtain ⟨right, hm, rest, hc⟩ := Tape.exists_mem_choose? tape hr
    exact .inr ⟨right, rest, mem_rightSides_iff.1 hm, expand_succ_of_choose? hs hc⟩

theorem exists_trees_of_forall₂ {parts : List (List Token)}
    (h : List.Forall₂ (fun s part => ∃ tree : SyntaxTree, tree.DerivedBy g ∧ tree.root = s ∧
      tree.height ≤ depth ∧ tree.tokens = part) right parts) :
    ∃ trees : List SyntaxTree, (∀ tree ∈ trees, tree.DerivedBy g) ∧ trees.map root = right ∧
      heightOfAll trees ≤ depth ∧ tokensOfAll trees = parts.flatten := by
  induction h with
  | nil => exact ⟨[], List.forall_mem_nil _, rfl, Nat.zero_le _, rfl⟩
  | cons hf _ ih =>
    obtain ⟨tree, hg, rfl, hh, rfl⟩ := hf
    obtain ⟨trees, hgs, rfl, hhs, hts⟩ := ih
    exact ⟨tree :: trees, List.forall_mem_cons.2 ⟨hg, hgs⟩, rfl, Nat.max_le.2 ⟨hh, hhs⟩,
      congrArg (tree.tokens ++ ·) hts⟩

/-- What comes out of expanding a symbol is the yield of a tree within the depth. -/
theorem exists_tree_of_expand (h : (g.expand depth s tape).1 = .ok tokens) :
    ∃ tree : SyntaxTree, tree.DerivedBy g ∧ tree.root = s ∧ tree.height ≤ depth ∧
      tree.tokens = tokens := by
  induction depth generalizing s tape tokens with
  | zero =>
    cases hs : isTerminal s with
    | true =>
      rw [expand_of_isTerminal hs] at h
      cases h
      exact ⟨.leaf s, .leaf hs, rfl, Nat.le_refl _, rfl⟩
    | false =>
      rw [expand_zero hs] at h
      cases h
  | succ depth ih =>
    cases hs : isTerminal s with
    | true =>
      rw [expand_of_isTerminal hs] at h
      cases h
      exact ⟨.leaf s, .leaf hs, rfl, Nat.zero_le _, rfl⟩
    | false =>
      rcases expand_succ_cases hs with ⟨_, he⟩ | ⟨right, rest, hp, he⟩
      · rw [he] at h
        cases h
      · rw [he] at h
        obtain ⟨parts, hf, rfl⟩ := expandAll_eq_ok h
        have hf' := hf.imp fun s part ⟨_, hs⟩ => ih hs
        obtain ⟨below, hg, rfl, hh, ht⟩ := exists_trees_of_forall₂ hf'
        exact ⟨.node s below, .node hp hg, rfl, Nat.succ_le_succ hh, ht⟩

theorem length_rightSides_le {a : Symbol} :
    (g.rightSides a).length ≤ g.productions.length := by
  rw [rightSides, List.length_map]
  exact List.length_filter_le _ _

/-- Every tree within the depth can come about. -/
theorem exists_consumes_expand (hw : g.WellFormed)
    (hr : ∀ a, (g.rightSides a).length < 2 ^ 32) (ht : tree.DerivedBy g)
    (hd : tree.height ≤ depth) :
    ∃ words, Consumes (g.expand depth tree.root) words (.ok tree.tokens) := by
  induction ht generalizing depth with
  | leaf ha =>
    exact ⟨[], fun _ _ _ => expand_of_isTerminal ha⟩
  | @node a below rule parts ih =>
    obtain ⟨depth, rfl⟩ := Nat.exists_eq_add_one_of_ne_zero (Nat.ne_zero_of_lt hd)
    have hb : heightOfAll below ≤ depth := Nat.le_of_succ_le_succ hd
    obtain ⟨words, hc⟩ := exists_consumes_expandAll fun tree hm =>
      ih tree hm (Nat.le_trans (height_le_heightOfAll hm) hb)
    obtain ⟨word, hword⟩ :=
      Tape.exists_choose?_eq (mem_rightSides_iff.2 rule) (Nat.le_of_lt (hr a))
    use word :: words
    intro more source drawn
    have ha : isTerminal a = false := by
      rw [isTerminal, hw.left _ rule]
      rfl
    rw [root, List.cons_append, expand_succ_of_choose? ha (hword _ _ _), hc, List.length_cons,
      Nat.add_assoc, Nat.add_comm 1]
    rfl

/-- Random sentences are the yields of the derivation trees within the depth, and each of these can
be drawn. -/
theorem sample_spec (hw : g.WellFormed) (depth : Nat) :
    (∀ source tokens, g.SamplesFrom depth source (.ok tokens) →
      (∃ tree : SyntaxTree, tree.DerivedBy g ∧ tree.root = g.start ∧ tree.height ≤ depth ∧
        tree.tokens = tokens) ∧
      (∀ bound, tokens.length ≤ bound → tokens ∈ g.sentencesUpTo bound) ∧
      (((Parser.ofGrammar g.normalize).parse tokens).accepted = true ↔ tokens ≠ [])) ∧
    ((∀ a, (g.rightSides a).length < 2 ^ 32) →
      ∀ tree : SyntaxTree, tree.DerivedBy g → tree.root = g.start → tree.height ≤ depth →
        ∃ words, ∀ more result,
          g.SamplesFrom depth (words ++ₛ more) result ↔ result = .ok tree.tokens) := by
  apply And.intro
  · rintro source tokens ⟨_, hc⟩
    obtain ⟨tape, ht⟩ := hc.exists_tape
    obtain ⟨tree, hg, hr, hh, rfl⟩ := exists_tree_of_expand ht
    have hy : g.Yields [g.start] tree.tokens := hr ▸ hg.yields
    have ha : ((Parser.ofGrammar g.normalize).parse tree.tokens).accepted = true ↔ _ :=
      accepted_normalize_iff hw
    exact ⟨⟨tree, hg, hr, hh, rfl⟩, fun bound hl => (mem_sentencesUpTo_iff hw).2 ⟨hl, hy⟩,
      ha.trans (and_iff_left hy)⟩
  · intro hr tree hg he hh
    obtain ⟨words, hc⟩ := exists_consumes_expand hw hr hg hh
    rw [he] at hc
    use words
    intro more result
    have hs : g.SamplesFrom depth (words ++ₛ more) (.ok tree.tokens) := .of_consumes hc more
    apply Iff.intro
    · intro h
      exact h.unique hs
    · rintro rfl
      exact hs

/-- The start symbol stands below itself. -/
def roundabout : SyntaxTree :=
  .node "S" [.node "A" [.leaf "a", .node "A" [.node "S" []], .leaf "b"]]

theorem derivedBy_roundabout : roundabout.DerivedBy circular := by
  have hs : SyntaxTree.DerivedBy circular (.node "S" []) :=
    .node (by decide) (List.forall_mem_nil _)
  have ha : SyntaxTree.DerivedBy circular (.node "A" [.node "S" []]) :=
    .node (by decide) (by simpa using hs)
  have hb : SyntaxTree.DerivedBy circular
      (.node "A" [.leaf "a", .node "A" [.node "S" []], .leaf "b"]) := by
    apply SyntaxTree.DerivedBy.node (by decide)
    simp only [List.forall_mem_cons, List.not_mem_nil, false_imp_iff, implies_true, and_true]
    exact ⟨.leaf rfl, ha, .leaf rfl⟩
  exact .node (by decide) (by simpa using hb)

/-- The second word is not taken, since it would give one of three choices too many words. -/
theorem sample_circular :
    (∀ more, circular.SamplesFrom 4
      ([2863311531, 1431655765, 1431655766, 0, 0] ++ₛ more) (.ok ["a", "b"])) ∧
    ["a", "b"] ∈ circular.sentencesUpTo 3 ∧
    ((Parser.ofGrammar circular.normalize).parse ["a", "b"]).accepted = true ∧
    ∃ words, ∀ more result,
      circular.SamplesFrom 4 (words ++ₛ more) result ↔ result = .ok roundabout.tokens := by
  have hw := (validate_eq_ok_iff.1 validate_circular).2
  have hc : Consumes (circular.sample 4) [2863311531, 1431655765, 1431655766, 0, 0]
      (.ok ["a", "b"]) := by
    intro more source drawn
    rfl
  have hr : ∀ a, (circular.rightSides a).length < 2 ^ 32 := fun a =>
    Nat.lt_of_le_of_lt length_rightSides_le (by decide)
  obtain ⟨hs, ht⟩ := sample_spec hw 4
  obtain ⟨_, hm, ha⟩ := hs _ _ (.of_consumes hc (Stream'.const 0))
  exact ⟨.of_consumes hc, hm 3 (by decide), ha.2 (by decide),
    ht hr roundabout derivedBy_roundabout rfl (by decide)⟩

end Grammar

end PhraseGrammar
