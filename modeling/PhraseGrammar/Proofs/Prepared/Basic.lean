import PhraseGrammar.Grammar.WellFormed
import PhraseGrammar.Prepared.Basic
import PhraseGrammar.Proofs.Grammar.Symbols

namespace PhraseGrammar

variable {g : Grammar} {a start : Symbol} {productions : List Production}

theorem RightSideIndex.getD_file {index : RightSideIndex} {p : Production} :
    (index.file p).getD a [] = index.getD a [] ++ if p.left = a then [p.right] else [] := by
  simp only [file, Std.ExtTreeMap.getD_alter, Std.LawfulEqCmp.compare_eq_iff_eq]
  split
  · rename_i he
    rw [← he, Std.ExtTreeMap.getD_eq_getD_getElem?]
    rfl
  · rw [List.append_nil]

/-- Filing one production after the other keeps the order of the right sides. -/
theorem RightSideIndex.getD_foldl_file {index : RightSideIndex} :
    (productions.foldl file index).getD a [] =
      index.getD a [] ++ (productions.filter (·.left == a)).map (·.right) := by
  induction productions generalizing index with
  | nil => exact (List.append_nil _).symm
  | cons p productions ih =>
    rw [List.foldl_cons, ih, getD_file, List.append_assoc, List.filter_cons]
    by_cases hp : p.left = a
    · rw [if_pos hp, if_pos (beq_iff_eq.2 hp)]
      rfl
    · rw [if_neg hp, if_neg (mt beq_iff_eq.1 hp)]
      rfl

namespace Bnf

variable {path : String} {rules : List Rule} {bytes : List UInt8}

theorem wellFormed_of_assemble (h : assemble path rules = .ok g) : g.WellFormed := by
  cases rules with
  | nil => cases h
  | cons first rules =>
    rw [assemble] at h
    split at h
    · split at h
      · cases h
      · rename_i hv
        cases h
        exact (Grammar.validate_eq_ok_iff.1 hv).2
    · cases h

theorem wellFormed_of_readDocument (h : readDocument path bytes = .ok g) : g.WellFormed := by
  rw [readDocument] at h
  split at h
  · exact wellFormed_of_assemble h
  · cases h

end Bnf

namespace Grammar

theorem rightSidesOf_prepare : g.prepare.rightSidesOf a = g.rightSides a :=
  RightSideIndex.getD_foldl_file

theorem mem_nonterminals_prepare_iff :
    a ∈ g.prepare.nonterminals ↔ ∃ p ∈ g.productions, p.left = a := by
  rw [prepare, Std.ExtTreeSet.mem_ofList, List.contains_iff_mem, List.mem_map]

theorem mem_terminals_prepare_iff :
    a ∈ g.prepare.terminals ↔ isTerminal a = true ∧ ∃ p ∈ g.productions, a ∈ p.right := by
  rw [prepare, Std.ExtTreeSet.mem_ofList, List.contains_iff_mem, List.mem_filter,
    List.mem_flatMap, and_comm]

theorem WellFormed.startingAt {g' : Grammar} (hw : g.WellFormed)
    (h : g.startingAt start = .ok g') : g'.WellFormed := by
  obtain ⟨hs, _, rfl⟩ := startingAt_eq_ok_iff.1 h
  exact ⟨hs, hw.left, hw.right, hw.nodup⟩

theorem startingAt_prepare : g.prepare.startingAt start = (g.startingAt start).map prepare := by
  have hc : g.prepare.nonterminals.contains start = g.productions.any (·.left == start) := by
    rw [Bool.eq_iff_iff, Std.ExtTreeSet.contains_iff_mem, mem_nonterminals_prepare_iff,
      List.any_eq_true]
    simp only [beq_iff_eq]
  rw [PreparedGrammar.startingAt, startingAt, hc]
  split
  · rfl
  · split
    · rfl
    · rfl

end Grammar

namespace PreparedGrammar

variable {x y : PreparedGrammar} {path : String} {bytes : List UInt8}

/-- What is kept is what can be looked up in the productions of a well-formed grammar. -/
structure IsSound (x : PreparedGrammar) : Prop where
  wellFormed : x.toGrammar.WellFormed
  prepared : x.toGrammar.prepare = x

theorem IsSound.of_map {Cause : Type} {result : Except Cause Grammar}
    (hw : ∀ g, result = .ok g → g.WellFormed) (h : result.map Grammar.prepare = .ok x) :
    x.IsSound := by
  cases result with
  | error cause => cases h
  | ok g =>
    cases h
    exact ⟨hw g rfl, rfl⟩

theorem IsSound.of_validate (h : validate start productions = .ok x) : x.IsSound :=
  .of_map (fun _ hv => (Grammar.validate_eq_ok_iff.1 hv).2) h

theorem IsSound.of_read (h : read path bytes = .ok x) : x.IsSound :=
  .of_map (fun _ => Bnf.wellFormed_of_readDocument) h

theorem IsSound.validate_eq (hx : x.IsSound) : validate x.start x.productions = .ok x := by
  rw [validate, hx.wellFormed.validate_eq]
  exact congrArg Except.ok hx.prepared

/-- Nothing but the start symbol and the productions tells two grammars apart. -/
theorem IsSound.eq_iff (hx : x.IsSound) (hy : y.IsSound) :
    x = y ↔ x.start = y.start ∧ x.productions = y.productions := by
  apply Iff.intro
  · intro h
    rw [h]
    exact ⟨rfl, rfl⟩
  · intro h
    obtain ⟨hs, hp⟩ := h
    have hg : x.toGrammar = y.toGrammar :=
      calc x.toGrammar = ⟨x.start, x.productions⟩ := rfl
        _ = ⟨y.start, y.productions⟩ := by rw [hs, hp]
        _ = y.toGrammar := rfl
    rw [← hx.prepared, hg, hy.prepared]

end PreparedGrammar

end PhraseGrammar
