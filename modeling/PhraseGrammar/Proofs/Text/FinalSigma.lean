import Mathlib.Data.List.TakeWhile
import PhraseGrammar.Proofs.Text.LowerCase

namespace PhraseGrammar

variable {c : Char} {text rest side before before' after after' skipped beyond : List Char}

theorem meetsCased_cons (c : Char) (side : List Char) :
    meetsCased (c :: side) = if isCaseIgnorable c then meetsCased side else isCased c := by
  rw [meetsCased, List.dropWhile_cons]
  by_cases h : isCaseIgnorable c = true
  · rw [if_pos h, if_pos h, meetsCased]
  · rw [if_neg h, if_neg h]

theorem meetsCased_cons_of_not (h : isCaseIgnorable c = false) (side : List Char) :
    meetsCased (c :: side) = isCased c := by
  rw [meetsCased_cons, if_neg (Bool.eq_false_iff.1 h)]

theorem meetsCased_append_congr (h : meetsCased before = meetsCased before') :
    meetsCased (side ++ before) = meetsCased (side ++ before') := by
  induction side with
  | nil => exact h
  | cons c side ih => rw [List.cons_append, List.cons_append, meetsCased_cons, meetsCased_cons, ih]

theorem meetsCased_append_of_forall (h : ∀ c ∈ skipped, isCaseIgnorable c = true) :
    meetsCased (skipped ++ side) = meetsCased side := by
  induction skipped with
  | nil => rfl
  | cons c skipped ih =>
    obtain ⟨hc, hs⟩ := List.forall_mem_cons.1 h
    rw [List.cons_append, meetsCased_cons, if_pos hc, ih hs]

theorem lowerBetween_congr (hb : meetsCased before = meetsCased before')
    (ha : meetsCased after = meetsCased after') :
    lowerBetween before c after = lowerBetween before' c after' := by
  rw [lowerBetween, lowerBetween, hb, ha]

theorem lowerBetween_of_ne (h : c ≠ 'Σ') (before before' after after' : List Char) :
    lowerBetween before c after = lowerBetween before' c after' := by
  rw [lowerBetween, lowerBetween, if_neg h, if_neg h]

/-- The lower-case form of a part of a text, with what stands before it, given backwards, and after
it. -/
def lowerWithin (before : List Char) : List Char → List Char → List Char
  | [], _ => []
  | c :: text, after =>
    lowerBetween before c (text ++ after) ++ lowerWithin (c :: before) text after

theorem lowerWithin_nil (before text : List Char) :
    lowerWithin before text [] = lowerAfter before text := by
  induction text generalizing before with
  | nil => rfl
  | cons c text ih => rw [lowerWithin, lowerAfter, List.append_nil, ih]

theorem lowerWithin_append : lowerWithin before (text ++ rest) after =
    lowerWithin before text (rest ++ after) ++ lowerWithin (text.reverse ++ before) rest after := by
  induction text generalizing before with
  | nil => rfl
  | cons c text ih =>
    rw [List.cons_append, lowerWithin, lowerWithin, ih, List.append_assoc, List.append_assoc,
      List.reverse_cons, List.append_assoc, List.singleton_append]

/-- A part of a text sees of its surroundings no more than whether there is a letter with case on
either side. -/
theorem lowerWithin_congr (hb : meetsCased before = meetsCased before')
    (ha : meetsCased after = meetsCased after') :
    lowerWithin before text after = lowerWithin before' text after' := by
  induction text generalizing before before' with
  | nil => rfl
  | cons c text ih =>
    have hc : meetsCased (c :: before) = meetsCased (c :: before') := by
      rw [meetsCased_cons, meetsCased_cons, hb]
    rw [lowerWithin, lowerWithin, lowerBetween_congr hb (meetsCased_append_congr ha), ih hc]

theorem not_isCaseIgnorable_sigma : isCaseIgnorable 'Σ' = false := by
  decide +kernel

theorem lowerWithin_of_forall (h : ∀ c ∈ text, isCaseIgnorable c = true)
    (before before' after after' : List Char) :
    lowerWithin before text after = lowerWithin before' text after' := by
  induction text generalizing before before' with
  | nil => rfl
  | cons c text ih =>
    obtain ⟨hc, ht⟩ := List.forall_mem_cons.1 h
    have hs : c ≠ 'Σ' := by
      rintro rfl
      rw [not_isCaseIgnorable_sigma] at hc
      cases hc
    rw [lowerWithin, lowerWithin, lowerBetween_of_ne hs, ih ht]

theorem lowerCase_cut (h : IsOwnLower c) : lowerCase (text ++ c :: rest) =
    lowerWithin [] text (c :: rest) ++ c :: lowerWithin (c :: text.reverse) rest [] := by
  rw [lowerCase, ← lowerWithin_nil, lowerWithin_append, lowerWithin, h.lowerBetween_eq,
    List.append_nil, List.append_nil]
  rfl

/-- The two sides of a character that is neither skipped nor a letter with case are lower-cased on
their own. -/
theorem lowerCase_cut_of_not_isCaseIgnorable (h : IsOwnLower c)
    (hi : isCaseIgnorable c = false) (hc : isCased c = false) :
    lowerCase (text ++ c :: rest) = lowerCase text ++ c :: lowerCase rest := by
  have hm (side : List Char) : meetsCased (c :: side) = meetsCased [] :=
    (meetsCased_cons_of_not hi side).trans hc
  rw [lowerCase_cut h, lowerWithin_congr rfl (hm rest), lowerWithin_congr (hm text.reverse) rfl,
    lowerWithin_nil, lowerWithin_nil]
  rfl

/-- The two sides of a character that is skipped see each other. -/
theorem lowerCase_cut_of_isCaseIgnorable (h : IsOwnLower c) (hi : isCaseIgnorable c = true) :
    lowerCase (text ++ c :: rest) =
      lowerWithin [] text rest ++ c :: lowerWithin text.reverse rest [] := by
  have hm (side : List Char) : meetsCased (c :: side) = meetsCased side := by
    rw [meetsCased_cons, if_pos hi]
  rw [lowerCase_cut h, lowerWithin_congr rfl (hm rest), lowerWithin_congr (hm text.reverse) rfl]

/-- The first character beside a place that is not skipped there is a capital sigma, and what lies
beyond it passes a test. -/
def meetsSigma (test : List Char → Bool) (side : List Char) : Bool :=
  match side.dropWhile isCaseIgnorable with
  | [] => false
  | c :: beyond => c == 'Σ' && test beyond

/-- Of a side of a place, the characters that are skipped there, and the first that is not. -/
structure Reaches (side skipped : List Char) (c : Char) (beyond : List Char) : Prop where
  eq : side = skipped ++ c :: beyond
  skips : ∀ d ∈ skipped, isCaseIgnorable d = true
  stops : isCaseIgnorable c = false

theorem forall_or_exists_reaches (side : List Char) :
    (∀ c ∈ side, isCaseIgnorable c = true) ∨ ∃ skipped c beyond, Reaches side skipped c beyond := by
  induction side with
  | nil => exact .inl (List.forall_mem_nil _)
  | cons c side ih =>
    cases hc : isCaseIgnorable c with
    | false => exact .inr ⟨[], c, side, rfl, List.forall_mem_nil _, hc⟩
    | true =>
      obtain h | ⟨skipped, d, beyond, h⟩ := ih
      · exact .inl (List.forall_mem_cons.2 ⟨hc, h⟩)
      · refine .inr ⟨c :: skipped, d, beyond, ?_, List.forall_mem_cons.2 ⟨hc, h.skips⟩, h.stops⟩
        rw [h.eq, List.cons_append]

theorem meetsSigma_of_forall {test : List Char → Bool}
    (h : ∀ c ∈ side, isCaseIgnorable c = true) : meetsSigma test side = false := by
  rw [meetsSigma, List.dropWhile_eq_nil_iff.2 h]

theorem Reaches.dropWhile_eq (h : Reaches side skipped c beyond) :
    side.dropWhile isCaseIgnorable = c :: beyond := by
  rw [h.eq, List.dropWhile_append_of_pos h.skips, List.dropWhile_cons_of_neg]
  rw [h.stops]
  exact Bool.false_ne_true

theorem Reaches.meetsSigma_eq (h : Reaches side skipped c beyond) (test : List Char → Bool) :
    meetsSigma test side = (c == 'Σ' && test beyond) := by
  rw [meetsSigma, h.dropWhile_eq]

theorem Reaches.skips_reverse (h : Reaches side skipped c beyond) :
    ∀ d ∈ skipped.reverse, isCaseIgnorable d = true := by
  intro d hd
  exact h.skips d (List.mem_reverse.1 hd)

theorem Reaches.hides (h : Reaches side skipped c beyond) (rest : List Char) :
    meetsCased (c :: rest) = meetsCased [c] := by
  rw [meetsCased_cons_of_not h.stops, meetsCased_cons_of_not h.stops]

/-- What follows a text matters to the last of its characters that are not skipped. -/
theorem Reaches.lowerWithin_reverse (h : Reaches side skipped c beyond) (after : List Char) :
    lowerWithin [] side.reverse after =
      lowerWithin [] beyond.reverse [c] ++ lowerBetween beyond c after
        ++ lowerWithin [] skipped.reverse [] := by
  have hs := h.skips_reverse
  rw [h.eq, List.reverse_append, List.reverse_cons, List.append_assoc, lowerWithin_append,
    lowerWithin_append, List.singleton_append, List.cons_append, lowerWithin_congr rfl (h.hides _),
    List.reverse_reverse, List.append_nil, lowerWithin, lowerWithin, List.append_nil,
    List.nil_append, lowerBetween_congr rfl (meetsCased_append_of_forall hs),
    lowerWithin_of_forall hs _ [] _ [], List.append_assoc]

/-- What precedes a text matters to the first of its characters that are not skipped. -/
theorem Reaches.lowerWithin_eq (h : Reaches side skipped c beyond) (before : List Char) :
    lowerWithin before side [] =
      lowerWithin [] skipped [] ++ lowerBetween before c beyond ++ lowerWithin [c] beyond [] := by
  have hs := h.skips_reverse
  rw [h.eq, lowerWithin_append, lowerWithin, lowerWithin_of_forall h.skips _ [] _ [],
    lowerWithin_congr (h.hides _) rfl, List.append_nil,
    lowerBetween_congr (meetsCased_append_of_forall hs) rfl, List.append_assoc]

/-- Up to some place two texts agree, and there one has the small sigma in its final form and the
other has not. -/
inductive PartAtSigma : List Char → List Char → Prop where
  | medial (text other : List Char) : PartAtSigma ('σ' :: text) ('ς' :: other)
  | final (text other : List Char) : PartAtSigma ('ς' :: text) ('σ' :: other)
  | cons (c : Char) {text other : List Char} (h : PartAtSigma text other) :
    PartAtSigma (c :: text) (c :: other)

theorem PartAtSigma.append_left {other : List Char} (h : PartAtSigma text other)
    (agreed : List Char) : PartAtSigma (agreed ++ text) (agreed ++ other) := by
  induction agreed with
  | nil => exact h
  | cons c agreed ih => exact .cons c ih

theorem PartAtSigma.append_right {other : List Char} (h : PartAtSigma text other)
    (rest rest' : List Char) : PartAtSigma (text ++ rest) (other ++ rest') := by
  induction h with
  | medial => exact .medial _ _
  | final => exact .final _ _
  | cons c _ ih => exact .cons c ih

theorem lowerBetween_sigma (before after : List Char) : lowerBetween before 'Σ' after =
    if meetsCased before && !meetsCased after then ['ς'] else ['σ'] :=
  rfl

theorem lowerWithin_after_eq_or_partAtSigma (text after : List Char) :
    if meetsSigma meetsCased text.reverse && meetsCased after then
      PartAtSigma (lowerWithin [] text after) (lowerCase text)
    else lowerWithin [] text after = lowerCase text := by
  rw [lowerCase, ← lowerWithin_nil]
  obtain h | ⟨skipped, c, beyond, h⟩ := forall_or_exists_reaches text.reverse
  · have ht : ∀ c ∈ text, isCaseIgnorable c = true := fun c hc => h c (List.mem_reverse.2 hc)
    rw [meetsSigma_of_forall h, Bool.false_and, if_neg Bool.false_ne_true]
    exact lowerWithin_of_forall ht _ _ _ _
  · -- Only the last character that is not skipped sees what follows, and only a sigma minds.
    have hl := h.lowerWithin_reverse
    rw [List.reverse_reverse] at hl
    rw [h.meetsSigma_eq, hl, hl]
    by_cases hc : c = 'Σ'
    · subst hc
      rw [lowerBetween_sigma, lowerBetween_sigma]
      cases hb : meetsCased beyond <;> cases ha : meetsCased after
      · rfl
      · rfl
      · rfl
      · exact ((PartAtSigma.medial [] []).append_left _).append_right _ _
    · rw [beq_eq_false_iff_ne.2 hc, lowerBetween_of_ne hc]
      rfl

theorem lowerWithin_before_eq_or_partAtSigma (before text : List Char) :
    if meetsCased before && meetsSigma (!meetsCased ·) text then
      PartAtSigma (lowerWithin before text []) (lowerCase text)
    else lowerWithin before text [] = lowerCase text := by
  rw [lowerCase, ← lowerWithin_nil]
  obtain h | ⟨skipped, c, beyond, h⟩ := forall_or_exists_reaches text
  · rw [meetsSigma_of_forall h, Bool.and_false, if_neg Bool.false_ne_true]
    exact lowerWithin_of_forall h _ _ _ _
  · rw [h.meetsSigma_eq, h.lowerWithin_eq before, h.lowerWithin_eq []]
    by_cases hc : c = 'Σ'
    · subst hc
      rw [lowerBetween_sigma, lowerBetween_sigma]
      cases hb : meetsCased before <;> cases ha : meetsCased beyond
      · rfl
      · rfl
      · exact ((PartAtSigma.final [] []).append_left _).append_right _ _
      · rfl
    · rw [beq_eq_false_iff_ne.2 hc, lowerBetween_of_ne hc, Bool.false_and, Bool.and_false,
        if_neg Bool.false_ne_true]

/-- Whether a capital sigma beside the cut takes one form in its own text and another one where the
two texts are read as one. The last of the first text is final there, until a letter with case
follows. The first of the second text is not, until a letter with case precedes it. -/
def bindsSigma (text rest : List Char) : Bool :=
  (meetsSigma meetsCased text.reverse && meetsCased rest)
    || (meetsCased text.reverse && meetsSigma (!meetsCased ·) rest)

theorem lowerCase_cut_eq_or_partAtSigma (h : IsOwnLower c) (hi : isCaseIgnorable c = true)
    (text rest : List Char) :
    if bindsSigma text rest then
      PartAtSigma (lowerCase (text ++ c :: rest)) (lowerCase text ++ c :: lowerCase rest)
    else lowerCase (text ++ c :: rest) = lowerCase text ++ c :: lowerCase rest := by
  have hl := lowerWithin_after_eq_or_partAtSigma text rest
  have hr := lowerWithin_before_eq_or_partAtSigma text.reverse rest
  rw [lowerCase_cut_of_isCaseIgnorable h hi, bindsSigma]
  -- The two forms part before the cut or, where they agree on all before it, behind it.
  cases hf : meetsSigma meetsCased text.reverse && meetsCased rest with
  | true =>
    rw [if_pos hf] at hl
    exact hl.append_right _ _
  | false =>
    rw [hf, if_neg Bool.false_ne_true] at hl
    rw [hl, Bool.false_or]
    split
    · rename_i hb
      rw [if_pos hb] at hr
      exact (hr.cons c).append_left _
    · rename_i hb
      rw [if_neg hb] at hr
      rw [hr]

end PhraseGrammar
