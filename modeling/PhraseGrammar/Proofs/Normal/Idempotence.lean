import Mathlib.Data.List.Nodup
import PhraseGrammar.Proofs.Normal.Form

namespace PhraseGrammar

variable {productions : List Production} {names : List Symbol} {a : Symbol}

/-- The productions of one name after another. -/
def groupedBy (names : List Symbol) (productions : List Production) : List Production :=
  names.flatMap fun a => productions.filter (·.left == a)

theorem filter_filter_left_of_ne {b : Symbol} (h : a ≠ b) :
    (productions.filter (·.left == b)).filter (·.left == a) = [] := by
  rw [List.filter_eq_nil_iff]
  intro p hp hl
  have hb := (List.mem_filter.1 hp).2
  exact h ((beq_iff_eq.1 hl).symm.trans (beq_iff_eq.1 hb))

theorem filter_groupedBy_of_not_mem (h : a ∉ names) :
    (groupedBy names productions).filter (·.left == a) = [] := by
  rw [groupedBy, List.filter_flatMap, List.flatMap_eq_nil_iff]
  intro b hb
  exact filter_filter_left_of_ne fun he => h (he ▸ hb)

theorem filter_groupedBy (hn : names.Nodup) (h : a ∈ names) :
    (groupedBy names productions).filter (·.left == a) = productions.filter (·.left == a) := by
  induction names with
  | nil => cases h
  | cons b names ih =>
    rw [List.nodup_cons] at hn
    have hc : groupedBy (b :: names) productions =
        productions.filter (·.left == b) ++ groupedBy names productions := List.flatMap_cons
    rw [hc, List.filter_append]
    rcases List.mem_cons.1 h with rfl | hm
    · rw [filter_groupedBy_of_not_mem hn.1, List.append_nil, List.filter_filter]
      simp only [Bool.and_self]
    · have hne : a ≠ b := fun he => hn.1 (he ▸ hm)
      rw [filter_filter_left_of_ne hne, List.nil_append, ih hn.2 hm]

theorem mem_groupedBy_iff {p : Production} :
    p ∈ groupedBy names productions ↔ p ∈ productions ∧ p.left ∈ names := by
  simp only [groupedBy, List.mem_flatMap, List.mem_filter, beq_iff_eq]
  apply Iff.intro
  · intro h
    obtain ⟨a, ha, hp, rfl⟩ := h
    exact ⟨hp, ha⟩
  · intro h
    exact ⟨p.left, h.2, h.1, rfl⟩

theorem nodup_groupedBy (hn : names.Nodup) (hp : productions.Nodup) :
    (groupedBy names productions).Nodup := by
  rw [groupedBy, List.nodup_flatMap]
  refine ⟨fun _ _ => hp.filter _, hn.imp ?_⟩
  intro a b hne p ha hb
  have hla := beq_iff_eq.1 (List.mem_filter.1 ha).2
  have hlb := beq_iff_eq.1 (List.mem_filter.1 hb).2
  exact hne (hla.symm.trans hlb)

theorem groupedBy_groupedBy (hn : names.Nodup) :
    groupedBy names (groupedBy names productions) = groupedBy names productions := by
  unfold groupedBy
  apply List.flatMap_congr
  intro a ha
  exact filter_groupedBy hn ha

theorem omissions_of_forall {droppable : Symbol → Bool} {right : List Symbol}
    (h : ∀ s ∈ right, droppable s = false) : omissions droppable right = [right] := by
  have hc : right.countP droppable = 0 := by
    rw [List.countP_eq_zero]
    intro s hs
    simp [h s hs]
  rw [omissions, hc]
  cases right <;> rfl

theorem unitTargets_of_forall (h : ∀ p ∈ productions, p.isUnit = false) :
    unitTargets productions a = [] := by
  rw [unitTargets, List.flatMap_eq_nil_iff]
  intro p hp
  obtain ⟨hm, hu⟩ := List.mem_filter.1 hp
  simp [h p hm] at hu

theorem chains_of_length_le {pool : NamePool} (h : ∀ p ∈ productions, p.right.length ≤ 2) :
    chains pool productions = (productions, pool) := by
  induction productions with
  | nil => rfl
  | cons p productions ih =>
    rw [List.forall_mem_cons] at h
    have hc : chain pool ("BIN_" ++ p.left) p.left p.right = ([p], pool) := by
      obtain ⟨left, right⟩ := p
      match right, h.1 with
      | [], _ | [_], _ | [_, _], _ => rfl
    rw [chains, hc, ih h.2]
    rfl

namespace Preterminals

variable {table : Preterminals} {right : List Symbol}

theorem separate_of_forall (h : ∀ s ∈ right, isNonterminal s = true) :
    table.separate right = (right, table) := by
  induction right with
  | nil => rfl
  | cons s right ih =>
    rw [List.forall_mem_cons] at h
    rw [separate, if_pos h.1, ih h.2]

theorem separateAll_of_forall (h : ∀ p ∈ productions, 2 ≤ p.right.length →
    ∀ s ∈ p.right, isNonterminal s = true) :
    table.separateAll productions = (productions, table) := by
  induction productions with
  | nil => rfl
  | cons p productions ih =>
    rw [List.forall_mem_cons] at h
    have hp : (if p.right.length < 2 then (p.right, table) else table.separate p.right) =
        (p.right, table) := by
      split
      · rfl
      · rename_i hl
        exact separate_of_forall (h.1 (Nat.le_of_not_lt hl))
    rw [separateAll, hp, ih h.2]

end Preterminals

namespace Grammar

variable {g g' : Grammar} {p : Production} {form result : List Symbol}

theorem Derives.mono (hp : ∀ p ∈ g.productions, p ∈ g'.productions) (h : g.Derives form result) :
    g'.Derives form result := by
  induction h with
  | refl => exact .refl _
  | tail _ step ih =>
    cases step with
    | step before after hm => exact ih.tail (.step before after (hp _ hm))

theorem IsUseful.mono (hs : g'.start = g.start) (hp : ∀ p ∈ g.productions, p ∈ g'.productions)
    (h : g.IsUseful p) : g'.IsUseful p := by
  obtain ⟨hm, before, after, tokens, hd, ht, hterm⟩ := h
  exact ⟨hp p hm, before, after, tokens, hs ▸ hd.mono hp, ht.mono hp, hterm⟩

/-- What the normal form of a grammar is, apart from the order of its productions. -/
structure InNormalForm (g : Grammar) : Prop where
  wellFormed : g.WellFormed
  normal : ∀ p ∈ g.productions, p.isNormal = true
  start_not_mem : ∀ p ∈ g.productions, g.start ∉ p.right
  useful : ∀ p ∈ g.productions, g.IsUseful p

theorem inNormalForm_normalize (hw : g.WellFormed) : g.normalize.InNormalForm where
  wellFormed := hw.normalize
  normal _ := isNormal_of_mem_normalize
  start_not_mem _ := start_normalize_not_mem_right
  useful _ := isUseful_of_mem_normalize hw

/-- The order of the productions plays no part. -/
theorem InNormalForm.of_perm (h : g.InNormalForm) (hs : g'.start = g.start)
    (hp : g'.productions.Perm g.productions) : g'.InNormalForm where
  wellFormed := by
    refine ⟨hs ▸ h.wellFormed.start, ?_, ?_, hp.nodup_iff.2 h.wellFormed.nodup⟩
    · intro p hm
      exact h.wellFormed.left p (hp.mem_iff.1 hm)
    · intro p hm
      exact h.wellFormed.right p (hp.mem_iff.1 hm)
  normal p hm := h.normal p (hp.mem_iff.1 hm)
  start_not_mem p hm := hs ▸ h.start_not_mem p (hp.mem_iff.1 hm)
  useful p hm := (h.useful p (hp.mem_iff.1 hm)).mono hs fun _ => hp.mem_iff.2

theorem InNormalForm.right_ne_nil (h : g.InNormalForm) (hp : p ∈ g.productions) :
    p.right ≠ [] := by
  intro he
  have hn := h.normal p hp
  rw [Production.isNormal, he] at hn
  cases hn

theorem InNormalForm.isUnit_eq_false (h : g.InNormalForm) :
    ∀ p ∈ g.productions, p.isUnit = false := by
  intro p hp
  apply eq_false_of_ne_true
  intro hu
  obtain ⟨b, hr, hb⟩ := Production.isUnit_eq_true_iff.1 hu
  have hn := h.normal p hp
  rw [Production.isNormal, hr] at hn
  simp [isTerminal, hb] at hn

theorem InNormalForm.length_le (h : g.InNormalForm) :
    ∀ p ∈ g.productions, p.right.length ≤ 2 := by
  intro p hp
  rcases Production.isNormal_eq_true_iff.1 (h.normal p hp) with ⟨a, hr, _⟩ | ⟨b, c, hr, _⟩
  · rw [hr]
    exact Nat.le_succ 1
  · rw [hr]
    exact Nat.le_refl 2

theorem InNormalForm.isNonterminal_of_mem (h : g.InNormalForm) :
    ∀ p ∈ g.productions, 2 ≤ p.right.length → ∀ s ∈ p.right, isNonterminal s = true := by
  intro p hp hl
  rcases Production.isNormal_eq_true_iff.1 (h.normal p hp) with ⟨a, hr, _⟩ | ⟨b, c, hr, hb, hc⟩
  · rw [hr] at hl
    exact absurd hl (Nat.not_succ_le_self 1)
  · simp [hr, hb, hc]

theorem InNormalForm.withoutUseless_eq (h : g.InNormalForm) : g.withoutUseless = g :=
  withoutUseless_eq_self h.wellFormed h.useful

theorem InNormalForm.solid_eq (h : g.InNormalForm) : g.solid = g := by
  apply keeping_eq_self h.wellFormed.nodup
  intro p hp
  exact mem_solid.2 ⟨hp, h.right_ne_nil hp⟩

theorem InNormalForm.isNullable_eq_false (h : g.InNormalForm) (s : Symbol) :
    g.isNullable s = false := by
  apply eq_false_of_ne_true
  intro hs
  have hy := yields_nil_of_mem_nullable s (isNullable_eq_true_iff.1 hs).2
  rw [← h.solid_eq] at hy
  exact hy.ne_nil rfl

theorem InNormalForm.withoutEpsilon_eq (h : g.InNormalForm) : g.withoutEpsilon = g := by
  have hp : ∀ p ∈ g.productions, ((omissions g.isNullable p.right).filter
      fun right => !right.isEmpty || p.left == g.start).map (⟨p.left, ·⟩) = [p] := by
    intro p hm
    have he : p.right.isEmpty = false := List.isEmpty_eq_false_iff.2 (h.right_ne_nil hm)
    rw [omissions_of_forall fun s _ => h.isNullable_eq_false s, List.filter_singleton, he]
    rfl
  calc g.withoutEpsilon
      = ofProductions g.start (g.productions.flatMap fun p => [p]) :=
        congrArg (ofProductions g.start) (List.flatMap_congr hp)
    _ = g := by rw [List.flatMap_singleton', ofProductions_of_nodup h.wellFormed.nodup]

theorem unitClosure_of_forall (h : ∀ p ∈ g.productions, p.isUnit = false) (a : Symbol) :
    g.unitClosure a = [a] := by
  have hn : newTargets g.productions [a] a = [] := by
    rw [newTargets, unitTargets_of_forall h]
    rfl
  rw [unitClosure, followUnits_cons, hn]
  exact followUnits_nil

/-- Where there are no unit productions, the productions of one left side are put together, and
that is all. -/
theorem withoutUnits_of_forall (h : ∀ p ∈ g.productions, p.isUnit = false) :
    g.withoutUnits = ofProductions g.start (groupedBy g.nonterminals g.productions) := by
  have ha : ∀ a ∈ g.nonterminals, ((g.unitClosure a).flatMap fun b =>
      (g.productions.filter fun p => p.left == b && !p.isUnit).map fun p => ⟨a, p.right⟩) =
        g.productions.filter (·.left == a) := by
    intro a _
    have hf : (g.productions.filter fun p => p.left == a && !p.isUnit) =
        g.productions.filter (·.left == a) := by
      apply List.filter_congr
      intro p hp
      rw [h p hp, Bool.not_false, Bool.and_true]
    have hm : ∀ p ∈ g.productions.filter (·.left == a), (⟨a, p.right⟩ : Production) = id p := by
      intro p hp
      rw [← beq_iff_eq.1 (List.mem_filter.1 hp).2]
      rfl
    rw [unitClosure_of_forall h, List.flatMap_singleton, hf, List.map_congr_left hm, List.map_id]
  exact congrArg (ofProductions g.start) (List.flatMap_congr ha)

theorem nonterminals_of_perm (hp : g'.productions.Perm g.productions) :
    g'.nonterminals = g.nonterminals := by
  apply Std.TreeSet.equiv_iff_toList_eq.1
  apply Std.TreeSet.Equiv.of_forall_mem_iff
  intro a
  rw [mem_ofList, mem_ofList]
  exact (hp.map _).mem_iff

theorem nodup_nonterminals (g : Grammar) : g.nonterminals.Nodup := by
  apply Std.TreeSet.distinct_toList.imp
  intro a b hne he
  exact hne (Std.LawfulEqCmp.compare_eq_iff_eq.2 he)

theorem productions_withoutUnits (hn : g.productions.Nodup)
    (h : ∀ p ∈ g.productions, p.isUnit = false) :
    g.withoutUnits.productions = groupedBy g.nonterminals g.productions := by
  rw [withoutUnits_of_forall h]
  exact distinct_of_nodup (nodup_groupedBy g.nodup_nonterminals hn)

theorem withoutUnits_perm (hn : g.productions.Nodup)
    (h : ∀ p ∈ g.productions, p.isUnit = false) :
    g.withoutUnits.productions.Perm g.productions := by
  rw [productions_withoutUnits hn h]
  apply (List.perm_ext_iff_of_nodup (nodup_groupedBy g.nodup_nonterminals hn) hn).2
  intro p
  rw [mem_groupedBy_iff]
  exact and_iff_left_of_imp fun hp => mem_nonterminals_iff.2 ⟨p, hp, rfl⟩

/-- The productions stay where they are once they are in order. -/
theorem withoutUnits_withoutUnits (hn : g.productions.Nodup)
    (h : ∀ p ∈ g.productions, p.isUnit = false) :
    g.withoutUnits.withoutUnits = g.withoutUnits := by
  have hp : g.withoutUnits.withoutUnits.productions = g.withoutUnits.productions := by
    rw [productions_withoutUnits nodup_distinct fun _ => isUnit_of_mem_withoutUnits,
      nonterminals_of_perm (withoutUnits_perm hn h), productions_withoutUnits hn h,
      groupedBy_groupedBy g.nodup_nonterminals]
  exact congrArg (Grammar.mk g.start) hp

theorem InNormalForm.separateTerminals_eq (h : g.InNormalForm) : g.separateTerminals = g := by
  rw [separateTerminals, Preterminals.separateAll_of_forall h.isNonterminal_of_mem]
  simp [Preterminals.productions, ofProductions_of_nodup h.wellFormed.nodup]

theorem InNormalForm.binarize_eq (h : g.InNormalForm) : g.binarize = g := by
  rw [binarize, chains_of_length_le h.length_le, ofProductions_of_nodup h.wellFormed.nodup]

theorem InNormalForm.freshenStart_eq (h : g.InNormalForm) : g.freshenStart = g := by
  apply freshenStart_of_not_mem
  intro hs
  obtain ⟨p, hp, hm⟩ := mem_symbolsUsed_iff.1 hs
  exact h.start_not_mem p hp hm

/-- Of all stages, one alone changes a grammar in normal form, and it changes no more than the order
of the productions. -/
theorem InNormalForm.normalize_eq (h : g.InNormalForm) : g.normalize = g.withoutUnits := by
  have hu : g.withoutUnits.InNormalForm :=
    h.of_perm start_withoutUnits (withoutUnits_perm h.wellFormed.nodup h.isUnit_eq_false)
  rw [Grammar.normalize_eq, shaped, reduced, h.withoutUseless_eq, h.withoutEpsilon_eq,
    hu.separateTerminals_eq, hu.binarize_eq, hu.freshenStart_eq, hu.solid_eq,
    hu.withoutUseless_eq]

/-- A grammar in normal form has its productions put in order by the next run, and nothing is left
to do after that. -/
theorem normalize_normalize {start : Symbol} {productions : List Production}
    (h : validate start productions = .ok g) :
    g.normalize.normalize.start = g.normalize.start ∧
      g.normalize.normalize.productions.Perm g.normalize.productions ∧
      g.normalize.normalize.normalize = g.normalize.normalize := by
  obtain ⟨_, hw⟩ := validate_eq_ok_iff.1 h
  have hf := inNormalForm_normalize hw
  have hn := hf.wellFormed.nodup
  have hu := hf.isUnit_eq_false
  refine ⟨?_, ?_, ?_⟩
  · rw [hf.normalize_eq, start_withoutUnits]
  · rw [hf.normalize_eq]
    exact withoutUnits_perm hn hu
  · have hf' := inNormalForm_normalize hf.wellFormed
    rw [hf'.normalize_eq, hf.normalize_eq, withoutUnits_withoutUnits hn hu]

theorem normalize_normalize_circular :
    circular.normalize.normalize.productions ≠ circular.normalize.productions ∧
      circular.normalize.normalize.productions.Perm circular.normalize.productions ∧
      circular.normalize.normalize.normalize = circular.normalize.normalize := by
  obtain ⟨_, hp, he⟩ := normalize_normalize validate_circular
  exact ⟨by decide +kernel, hp, he⟩

end Grammar

end PhraseGrammar
