import PhraseGrammar.Proofs.Bnf.Document
import PhraseGrammar.Proofs.Language.Sampling

namespace PhraseGrammar

variable {g g' : Grammar} {s start : Symbol} {depth : Nat} {tape : Tape}

/-- Every nonterminal that can turn up has a production. -/
structure Grammar.IsComplete (g : Grammar) : Prop where
  start : g.start ∈ g.nonterminals
  right : ∀ p ∈ g.productions, ∀ s ∈ p.right, isNonterminal s = true → s ∈ g.nonterminals

namespace Bnf

variable {path : String} {bytes : List UInt8} {rules : List Rule}

theorem exists_production_of_rule {rule : Rule} (h : ∃ line location,
    Rule.ofLine line location = .ok rule) : ∃ p ∈ rule.productions, p.left = rule.symbol := by
  obtain ⟨line, location, hl⟩ := h
  obtain ⟨right, hr⟩ := List.exists_mem_of_ne_nil _ (Rule.alternatives_ne_nil_of_ofLine hl)
  exact ⟨⟨rule.symbol, right⟩, List.mem_map_of_mem hr, rfl⟩

theorem isComplete_of_readDocument (h : readDocument path bytes = .ok g) : g.IsComplete := by
  have ho := outcome_readDocument path bytes
  rw [h] at ho
  cases ho with
  | @grammar first rules g _ hr hd hs hp =>
    have hm : ∀ p, p ∈ g.productions ↔ ∃ rule ∈ first :: rules, p ∈ rule.productions := by
      intro p
      rw [hp.mem_iff, List.mem_flatMap]
      exact and_iff_left trivial
    have hn : ∀ rule ∈ first :: rules, rule.symbol ∈ g.nonterminals := by
      intro rule hrule
      obtain ⟨p, hp, hl⟩ := exists_production_of_rule (exists_line_of_tellsRule hr rule hrule)
      exact Grammar.mem_nonterminals_iff.2 ⟨p, (hm p).2 ⟨rule, hrule, hp⟩, hl⟩
    constructor
    · rw [hs]
      exact hn first List.mem_cons_self
    · intro p hpm s hsm ha
      obtain ⟨rule, hrule, hpr⟩ := (hm p).1 hpm
      obtain ⟨right, hright, rfl⟩ := List.mem_map.1 hpr
      have hu := hd rule hrule s (List.mem_flatten_of_mem hright hsm)
      simp only [IsUndefined, ha, true_and, not_forall, not_not] at hu
      obtain ⟨other, hother, rfl⟩ := hu
      exact hn other hother

end Bnf

namespace Grammar

theorem IsComplete.startingAt (h : g.IsComplete) (hs : g.startingAt start = .ok g') :
    g'.IsComplete := by
  obtain ⟨_, hm, rfl⟩ := startingAt_eq_ok_iff.1 hs
  exact ⟨hm, h.right⟩

theorem IsComplete.foldlM_startingAt {symbols : List Symbol} (h : g.IsComplete)
    (hs : symbols.foldlM Grammar.startingAt g = .ok g') : g'.IsComplete := by
  induction symbols generalizing g with
  | nil =>
    cases hs
    exact h
  | cons s symbols ih =>
    rw [List.foldlM_cons] at hs
    cases he : g.startingAt s with
    | error fault =>
      rw [he] at hs
      cases hs
    | ok next =>
      rw [he] at hs
      exact ih (h.startingAt he) hs

theorem IsComplete.expand_ne (h : g.IsComplete) {symbol : Symbol}
    (hs : isNonterminal s = true → s ∈ g.nonterminals) :
    (g.expand depth s tape).1 ≠ .error (.undefinedNonterminal symbol) := by
  induction depth generalizing s tape with
  | zero =>
    cases ht : isTerminal s with
    | true =>
      rw [expand_of_isTerminal ht]
      exact nofun
    | false =>
      rw [expand_zero ht]
      exact nofun
  | succ depth ih =>
    cases ht : isTerminal s with
    | true =>
      rw [expand_of_isTerminal ht]
      exact nofun
    | false =>
      have hn : isNonterminal s = true := by simpa [isTerminal] using ht
      rcases expand_succ_cases ht with ⟨hr, _⟩ | ⟨right, rest, hp, he⟩
      · exact absurd hr (rightSides_ne_nil_iff.2 (hs hn))
      · rw [he]
        intro hu
        obtain ⟨t, hm, _, ht⟩ := expandAll_eq_error hu
        exact ih (h.right _ hp t hm) ht

/-- In a grammar that was read from a file, with whatever start symbols chosen since, no nonterminal
is without productions, and sampling never misses one. -/
theorem complete_of_readDocument {path : String} {bytes : List UInt8} {symbols : List Symbol}
    (h : Bnf.readDocument path bytes = .ok g) (hs : symbols.foldlM startingAt g = .ok g') :
    g'.IsComplete ∧
      (∀ depth tape symbol, (g'.sample depth tape).1 ≠ .error (.undefinedNonterminal symbol)) ∧
      ∀ depth source symbol, ¬g'.SamplesFrom depth source (.error (.undefinedNonterminal symbol)) := by
  have hc := (Bnf.isComplete_of_readDocument h).foldlM_startingAt hs
  have hn : ∀ depth tape symbol,
      (g'.sample depth tape).1 ≠ .error (.undefinedNonterminal symbol) :=
    fun _ _ _ => hc.expand_ne fun _ => hc.start
  apply And.intro hc
  apply And.intro hn
  rintro depth source symbol ⟨_, hd⟩
  obtain ⟨tape, ht⟩ := hd.exists_tape
  exact hn depth tape symbol ht

/-- One of its alternatives is there twice, and the other needs a nonterminal of a later line. -/
def repeating : Grammar :=
  ⟨"S", [⟨"S", ["A", "b"]⟩, ⟨"A", []⟩, ⟨"A", ["S", "A"]⟩]⟩

def repeatingText : String :=
  "S = A \"b\"\n;\nA = \"\" | S A\nA=\"\""

theorem complete_of_repeating :
    Bnf.readDocument "twice.txt" repeatingText.toUTF8.data.toList = .ok repeating ∧
    (∀ p ∈ repeating.productions, ∀ s ∈ p.right, isNonterminal s = true →
      s ∈ repeating.nonterminals) ∧
    ∀ depth tape symbol,
      (Grammar.sample ⟨"A", repeating.productions⟩ depth tape).1 ≠
        .error (.undefinedNonterminal symbol) := by
  have h : Bnf.readDocument "twice.txt" repeatingText.toUTF8.data.toList = .ok repeating := by
    apply eq_ok_of_toOption
    decide +kernel
  have hs : ["S", "A"].foldlM startingAt repeating = .ok ⟨"A", repeating.productions⟩ := rfl
  obtain ⟨hc, hn, _⟩ := complete_of_readDocument h hs
  exact ⟨h, hc.right, hn⟩

end Grammar

end PhraseGrammar
