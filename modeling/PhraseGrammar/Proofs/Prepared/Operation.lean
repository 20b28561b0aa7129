import PhraseGrammar.Prepared.Operation
import PhraseGrammar.Proofs.Normal.Form
import PhraseGrammar.Proofs.Prepared.Basic

namespace PhraseGrammar

variable {g g' : Grammar} {x y : PreparedGrammar} {op : Operation}

/-- What an operation does where nothing is kept. -/
def Operation.run (g : Grammar) : Operation → Except (Fault GrammarError) Grammar
  | startingAt symbol => g.startingAt symbol
  | withoutUseless => .ok g.withoutUseless
  | withoutEpsilon => .ok g.withoutEpsilon
  | withoutUnits => .ok g.withoutUnits
  | separateTerminals => .ok g.separateTerminals
  | binarize => .ok g.binarize
  | freshenStart => .ok g.freshenStart
  | dropEpsilon => .ok g.dropEpsilon
  | normalize => .ok g.normalize

namespace Grammar

@[simp]
theorem namePool_prepare : g.prepare.namePool = .ofGrammar g := rfl

@[simp]
theorem withoutUseless_prepare : g.prepare.withoutUseless = g.withoutUseless.prepare := rfl

@[simp]
theorem withoutEpsilon_prepare : g.prepare.withoutEpsilon = g.withoutEpsilon.prepare := rfl

@[simp]
theorem dropEpsilon_prepare : g.prepare.dropEpsilon = g.dropEpsilon.prepare := rfl

@[simp]
theorem withoutUnits_prepare : g.prepare.withoutUnits = g.withoutUnits.prepare := rfl

@[simp]
theorem separateTerminals_prepare :
    g.prepare.separateTerminals = g.separateTerminals.prepare := by
  rw [PreparedGrammar.separateTerminals, namePool_prepare]
  rfl

@[simp]
theorem binarize_prepare : g.prepare.binarize = g.binarize.prepare := by
  rw [PreparedGrammar.binarize, namePool_prepare]
  rfl

@[simp]
theorem freshenStart_prepare : g.prepare.freshenStart = g.freshenStart.prepare := by
  by_cases h : g.start ∈ g.symbolsUsed
  · rw [freshenStart_of_mem h, ← rightSidesOf_prepare]
    exact if_pos (List.contains_iff_mem.2 h)
  · rw [freshenStart_of_not_mem h]
    exact if_neg (mt List.contains_iff_mem.1 h)

@[simp]
theorem normalize_prepare : g.prepare.normalize = g.normalize.prepare := by
  simp only [PreparedGrammar.normalize, withoutUseless_prepare, withoutEpsilon_prepare,
    withoutUnits_prepare, separateTerminals_prepare, binarize_prepare, freshenStart_prepare,
    dropEpsilon_prepare, normalize]

end Grammar

namespace Operation

/-- An operation makes the same grammar, whether it finds things looked up or not. -/
theorem apply_prepare (op : Operation) : op.apply g.prepare = (op.run g).map Grammar.prepare := by
  cases op with
  | startingAt symbol => exact Grammar.startingAt_prepare
  | withoutUseless => rfl
  | withoutEpsilon => rfl
  | withoutUnits => rfl
  | separateTerminals => rfl
  | binarize => rfl
  | freshenStart => exact congrArg Except.ok Grammar.freshenStart_prepare
  | dropEpsilon => rfl
  | normalize => exact congrArg Except.ok Grammar.normalize_prepare

theorem wellFormed_of_run (hw : g.WellFormed) (h : op.run g = .ok g') : g'.WellFormed := by
  cases op with
  | startingAt symbol => exact hw.startingAt h
  | withoutUseless =>
    obtain rfl := Except.ok.inj h
    exact hw.withoutUseless
  | withoutEpsilon =>
    obtain rfl := Except.ok.inj h
    exact hw.withoutEpsilon
  | withoutUnits =>
    obtain rfl := Except.ok.inj h
    exact hw.withoutUnits
  | separateTerminals =>
    obtain rfl := Except.ok.inj h
    exact hw.separateTerminals
  | binarize =>
    obtain rfl := Except.ok.inj h
    exact hw.binarize
  | freshenStart =>
    obtain rfl := Except.ok.inj h
    exact hw.freshenStart
  | dropEpsilon =>
    obtain rfl := Except.ok.inj h
    exact hw.solid.withoutUseless
  | normalize =>
    obtain rfl := Except.ok.inj h
    exact hw.normalize

end Operation

namespace PreparedGrammar

variable {a start : Symbol} {productions : List Production}

/-- Whatever an operation finds looked up, it leaves what it makes looked up as well. -/
theorem IsSound.apply (hx : x.IsSound) (h : op.apply x = .ok y) : y.IsSound := by
  rw [← hx.prepared, Operation.apply_prepare] at h
  exact .of_map (fun _ hr => Operation.wellFormed_of_run hx.wellFormed hr) h

/-- The grammars that can come about: from a check or from a file, and then by any operations. -/
inductive Obtained : PreparedGrammar → Prop where
  | validate {start : Symbol} {productions : List Production} {x : PreparedGrammar}
    (h : validate start productions = .ok x) : Obtained x
  | read {path : String} {bytes : List UInt8} {x : PreparedGrammar}
    (h : read path bytes = .ok x) : Obtained x
  | apply {x y : PreparedGrammar} (op : Operation) (hx : Obtained x) (h : op.apply x = .ok y) :
    Obtained y

theorem Obtained.isSound (h : Obtained x) : x.IsSound := by
  induction h with
  | validate h => exact .of_validate h
  | read h => exact .of_read h
  | apply _ _ h ih => exact ih.apply h

/-- Everything that is kept in a grammar agrees with its productions, and the grammar could have
been made from these at once. -/
theorem representation_of_obtained (hx : Obtained x) :
    x.productions.Nodup ∧
      (∀ a, a ∈ x.nonterminals ↔ ∃ p ∈ x.productions, p.left = a) ∧
      (∀ a, a ∈ x.terminals ↔ isTerminal a = true ∧ ∃ p ∈ x.productions, a ∈ p.right) ∧
      (∀ a, x.rightSidesOf a = (x.productions.filter (·.left = a)).map (·.right)) ∧
      isNonterminal x.start = true ∧
      (∀ p ∈ x.productions, isNonterminal p.left = true ∧ "" ∉ p.right) ∧
      validate x.start x.productions = .ok x ∧
      ∀ y, Obtained y → (x = y ↔ x.start = y.start ∧ x.productions = y.productions) := by
  have hs := hx.isSound
  have hw := hs.wellFormed
  have hn : ∀ a, a ∈ x.nonterminals ↔ ∃ p ∈ x.productions, p.left = a := by
    rw [← hs.prepared]
    exact fun _ => Grammar.mem_nonterminals_prepare_iff
  have ht : ∀ a, a ∈ x.terminals ↔ isTerminal a = true ∧ ∃ p ∈ x.productions, a ∈ p.right := by
    rw [← hs.prepared]
    exact fun _ => Grammar.mem_terminals_prepare_iff
  have hr : ∀ a, x.rightSidesOf a = (x.productions.filter (·.left = a)).map (·.right) := by
    rw [← hs.prepared]
    exact fun _ => Grammar.rightSidesOf_prepare
  exact ⟨hw.nodup, hn, ht, hr, hw.start, fun p hp => ⟨hw.left p hp, hw.right p hp⟩,
    hs.validate_eq, fun y hy => hs.eq_iff hy.isSound⟩

/-- A grammar that has got another start symbol, with what was looked up before. -/
def restarted : PreparedGrammar :=
  { Grammar.circular.prepare with start := "A" }

theorem representation_of_restarted : Obtained restarted ∧ Obtained restarted.normalize ∧
    restarted.normalize.rightSidesOf "S0" = [["T_a", "BIN_A"], ["T_a", "T_b"], ["S", "S"]] ∧
    "c" ∉ restarted.normalize.terminals ∧
    validate "S0" restarted.normalize.productions = .ok restarted.normalize ∧
    restarted ≠ Grammar.circular.prepare := by
  have hv : validate "S" Grammar.circular.productions = .ok Grammar.circular.prepare := by
    rw [validate, Grammar.validate_circular]
    rfl
  have hr : Obtained restarted := .apply (.startingAt "A") (.validate hv) (by decide +kernel)
  have hn : Obtained restarted.normalize := .apply .normalize hr rfl
  have hs : restarted.normalize.start = "S0" := by decide +kernel
  have hc : ¬∃ p ∈ restarted.normalize.productions, "c" ∈ p.right := by decide +kernel
  obtain ⟨_, _, _, _, _, _, _, heq⟩ := representation_of_obtained hr
  obtain ⟨_, _, hterminals, hrights, _, _, hvalid, _⟩ := representation_of_obtained hn
  rw [hs] at hvalid
  refine ⟨hr, hn, ?_, fun h => hc ((hterminals "c").1 h).2, hvalid, ?_⟩
  · rw [hrights]
    decide +kernel
  · intro h
    exact absurd ((heq _ (.validate hv)).1 h).1 (by decide)

end PreparedGrammar

end PhraseGrammar
