import PhraseGrammar.Proofs.Normal.Useless

namespace PhraseGrammar

/-- Some droppable symbols of the first list are missing from the second. -/
inductive Omits (droppable : Symbol → Bool) : List Symbol → List Symbol → Prop where
  | nil : Omits droppable [] []
  | keep (s : Symbol) {right rest : List Symbol} (h : Omits droppable right rest) :
    Omits droppable (s :: right) (s :: rest)
  | drop {s : Symbol} {right rest : List Symbol} (hs : droppable s = true)
    (h : Omits droppable right rest) : Omits droppable (s :: right) rest

variable {droppable : Symbol → Bool} {right rest : List Symbol}

theorem Omits.refl (right : List Symbol) : Omits droppable right right := by
  induction right with
  | nil => exact .nil
  | cons s right ih => exact .keep s ih

theorem Omits.length_le (h : Omits droppable right rest) : rest.length ≤ right.length := by
  induction h with
  | nil => exact Nat.le_refl _
  | keep s _ ih => exact Nat.succ_le_succ ih
  | drop _ _ ih => exact Nat.le_succ_of_le ih

theorem Omits.eq_of_length_eq (h : Omits droppable right rest)
    (hl : rest.length = right.length) : rest = right := by
  induction h with
  | nil => rfl
  | keep s _ ih => rw [ih (Nat.succ.inj hl)]
  | drop _ h _ =>
    have hle := h.length_le
    rw [List.length_cons] at hl
    omega

theorem Omits.length_le_add_countP (h : Omits droppable right rest) :
    right.length ≤ rest.length + right.countP droppable := by
  induction h with
  | nil => exact Nat.le_refl _
  | keep s _ ih =>
    rw [List.countP_cons, List.length_cons, List.length_cons]
    omega
  | drop hs _ ih =>
    rw [List.countP_cons_of_pos hs, List.length_cons]
    omega

theorem Omits.subset (h : Omits droppable right rest) : rest ⊆ right := by
  induction h with
  | nil => exact List.Subset.refl _
  | keep s _ ih => exact List.cons_subset_cons s ih
  | drop _ _ ih => exact List.subset_cons_of_subset _ ih

theorem mem_omitting_iff {count : Nat} : rest ∈ omitting droppable count right ↔
    Omits droppable right rest ∧ rest.length + count = right.length := by
  induction right generalizing count rest with
  | nil =>
    cases count with
    | zero =>
      simp only [omitting, List.mem_singleton, List.length_nil]
      apply Iff.intro
      · rintro rfl
        exact ⟨.nil, rfl⟩
      · intro h
        exact List.length_eq_zero_iff.1 h.2
    | succ count => simp [omitting]
  | cons s right ih =>
    cases count with
    | zero =>
      simp only [omitting, List.mem_singleton, Nat.add_zero]
      apply Iff.intro
      · rintro rfl
        exact ⟨.refl _, rfl⟩
      · intro h
        exact h.1.eq_of_length_eq h.2
    | succ count =>
      rw [omitting, List.mem_append, List.mem_map, List.length_cons]
      apply Iff.intro
      · rintro (h | ⟨rest, h, rfl⟩)
        · split at h
          · rename_i hs
            obtain ⟨ho, hl⟩ := ih.1 h
            exact ⟨.drop hs ho, by omega⟩
          · simp at h
        · obtain ⟨ho, hl⟩ := ih.1 h
          exact ⟨.keep s ho, by rw [List.length_cons]; omega⟩
      · rintro ⟨ho, hl⟩
        cases ho with
        | keep _ ho =>
          rw [List.length_cons] at hl
          exact .inr ⟨_, ih.2 ⟨ho, by omega⟩, rfl⟩
        | drop hs ho =>
          rw [if_pos hs]
          exact .inl (ih.2 ⟨ho, by omega⟩)

theorem mem_omissions_iff : rest ∈ omissions droppable right ↔ Omits droppable right rest := by
  simp only [omissions, List.mem_flatMap, List.mem_range, mem_omitting_iff]
  apply Iff.intro
  · rintro ⟨_, _, h, _⟩
    exact h
  · intro h
    have hle := h.length_le
    have hc := h.length_le_add_countP
    exact ⟨right.length - rest.length, by omega, h, by omega⟩

namespace Grammar

variable {g : Grammar} {p : Production} {a : Symbol} {form : List Symbol} {tokens : List Token}

/-- The productions whose right sides are not empty. -/
def solid (g : Grammar) : Grammar :=
  g.keeping (!·.isEpsilon)

@[simp]
theorem start_solid : g.solid.start = g.start := rfl

theorem mem_solid : p ∈ g.solid.productions ↔ p ∈ g.productions ∧ p.right ≠ [] := by
  rw [solid, mem_keeping]
  simp [Production.isEpsilon]

theorem Yields.of_solid (h : g.solid.Yields form tokens) : g.Yields form tokens :=
  h.mono fun _ hp => (mem_solid.1 hp).1

/-- Without empty right sides every symbol yields a token or more. -/
theorem Yields.length_le (h : g.solid.Yields form tokens) : form.length ≤ tokens.length := by
  induction h with
  | nil => exact Nat.le_refl _
  | terminal _ _ ih => exact Nat.succ_le_succ ih
  | expand hp _ _ ihf ihs =>
    have hr : 0 < _ := List.length_pos_iff.2 (mem_solid.1 hp).2
    rw [List.length_cons, List.length_append]
    omega

theorem Yields.ne_nil (h : g.solid.Yields [a] tokens) : tokens ≠ [] :=
  List.length_pos_iff.1 h.length_le

/-- A nonterminal that yields the empty list. -/
def isNullable (g : Grammar) (s : Symbol) : Bool :=
  isNonterminal s && g.nullable.contains s

theorem isNullable_eq_true_iff {s : Symbol} :
    g.isNullable s = true ↔ isNonterminal s = true ∧ s ∈ g.nullable := by
  rw [isNullable, Bool.and_eq_true, Std.TreeSet.contains_iff_mem]

@[simp]
theorem start_withoutEpsilon : g.withoutEpsilon.start = g.start := rfl

theorem mem_withoutEpsilon_iff : p ∈ g.withoutEpsilon.productions ↔
    (p.right ≠ [] ∨ p.left = g.start) ∧
      ∃ q ∈ g.productions, q.left = p.left ∧ Omits g.isNullable q.right p.right := by
  have ho (right rest : List Symbol) : rest ∈ omissions g.isNullable right ↔
      Omits g.isNullable right rest := mem_omissions_iff
  rw [withoutEpsilon, mem_ofProductions]
  simp only [List.mem_flatMap, List.mem_map, List.mem_filter, Bool.or_eq_true, Bool.not_eq_true',
    List.isEmpty_eq_false_iff, beq_iff_eq]
  apply Iff.intro
  · rintro ⟨q, hq, right, ⟨hr, hn⟩, rfl⟩
    exact ⟨hn, q, hq, rfl, (ho _ _).1 hr⟩
  · rintro ⟨hn, q, hq, hl, hr⟩
    rw [← hl] at hn
    exact ⟨q, hq, p.right, ⟨(ho _ _).2 hr, hn⟩, by rw [hl]⟩

theorem left_eq_of_mem_withoutEpsilon (hp : p ∈ g.withoutEpsilon.productions)
    (hn : p.right = []) : p.left = g.start :=
  (mem_withoutEpsilon_iff.1 hp).1.resolve_left fun hne => hne hn

theorem WellFormed.withoutEpsilon (hw : g.WellFormed) : g.withoutEpsilon.WellFormed where
  start := hw.start
  left p hp := by
    obtain ⟨_, q, hq, hl, _⟩ := mem_withoutEpsilon_iff.1 hp
    exact hl ▸ hw.left q hq
  right p hp := by
    obtain ⟨_, q, hq, _, ho⟩ := mem_withoutEpsilon_iff.1 hp
    intro he
    exact hw.right q hq (ho.subset he)
  nodup := nodup_distinct

theorem Omits.yields {right rest : List Symbol} (ho : Omits g.isNullable right rest)
    (h : g.Yields rest tokens) : g.Yields right tokens := by
  induction ho generalizing tokens with
  | nil => exact h
  | keep s _ ih =>
    obtain ⟨first, second, rfl, hf, hs⟩ := yields_cons_iff.1 h
    exact hf.append (ih hs)
  | drop hs _ ih =>
    exact (yields_nil_of_mem_nullable _ (isNullable_eq_true_iff.1 hs).2).append (ih h)

theorem Yields.of_withoutEpsilon (h : g.withoutEpsilon.Yields form tokens) :
    g.Yields form tokens := by
  apply h.simulate
  intro p hp tokens hy
  obtain ⟨_, q, hq, hl, ho⟩ := mem_withoutEpsilon_iff.1 hp
  rw [← hl]
  exact .of_mem hq (Omits.yields ho hy)

/-- Leaving out the symbols that yield nothing, the others can do without empty right sides. -/
theorem Yields.exists_omits (hw : g.WellFormed) (h : g.Yields form tokens) :
    ∃ rest, Omits g.isNullable form rest ∧ g.withoutEpsilon.solid.Yields rest tokens := by
  induction h with
  | nil => exact ⟨[], .nil, .nil⟩
  | @terminal a _ _ ha _ ih =>
    obtain ⟨rest, ho, hy⟩ := ih
    exact ⟨a :: rest, .keep a ho, .terminal ha hy⟩
  | @expand p _ first second hp hf _ ihf ihs =>
    obtain ⟨right, hr, hyr⟩ := ihf
    obtain ⟨rest, ho, hyo⟩ := ihs
    by_cases he : first = []
    · subst he
      have hn : p.left ∈ g.nullable := (mem_nullable_iff hw.left).2 (.of_mem hp hf)
      exact ⟨rest, .drop (isNullable_eq_true_iff.2 ⟨hw.left p hp, hn⟩) ho, hyo⟩
    · have hne : right ≠ [] := by
        rintro rfl
        exact he (yields_nil_iff.1 hyr)
      have hq : ⟨p.left, right⟩ ∈ g.withoutEpsilon.solid.productions :=
        mem_solid.2 ⟨mem_withoutEpsilon_iff.2 ⟨.inl hne, p, hp, rfl, hr⟩, hne⟩
      exact ⟨p.left :: rest, .keep _ ho, .expand (p := ⟨p.left, right⟩) hq hyr hyo⟩

theorem yields_solid_withoutEpsilon_iff (hw : g.WellFormed) :
    g.withoutEpsilon.solid.Yields [a] tokens ↔ g.Yields [a] tokens ∧ tokens ≠ [] := by
  apply Iff.intro
  · intro h
    exact ⟨h.of_solid.of_withoutEpsilon, h.ne_nil⟩
  · rintro ⟨h, hne⟩
    obtain ⟨rest, ho, hy⟩ := h.exists_omits hw
    cases ho with
    | keep _ ho =>
      cases ho
      exact hy
    | drop _ ho =>
      cases ho
      exact absurd (yields_nil_iff.1 hy) hne

theorem yields_withoutEpsilon_iff (hw : g.WellFormed) (hne : tokens ≠ []) :
    g.withoutEpsilon.Yields [a] tokens ↔ g.Yields [a] tokens := by
  apply Iff.intro
  · exact Yields.of_withoutEpsilon
  · intro h
    exact ((yields_solid_withoutEpsilon_iff hw).2 ⟨h, hne⟩).of_solid

theorem nil_mem_withoutEpsilon_iff (hw : g.WellFormed) :
    ⟨g.start, []⟩ ∈ g.withoutEpsilon.productions ↔ g.Yields [g.start] [] := by
  apply Iff.intro
  · intro h
    exact (Yields.of_mem h .nil).of_withoutEpsilon
  · intro h
    obtain ⟨p, hp, hl, hr⟩ := (yields_nonterminal_iff hw.start).1 h
    obtain ⟨rest, ho, hy⟩ := hr.exists_omits hw
    obtain rfl : rest = [] := List.length_eq_zero_iff.1 (Nat.le_zero.1 hy.length_le)
    exact mem_withoutEpsilon_iff.2 ⟨.inr rfl, p, hp, hl, ho⟩

theorem yields_start_withoutEpsilon_iff (hw : g.WellFormed) :
    g.withoutEpsilon.Yields [g.start] tokens ↔ g.Yields [g.start] tokens := by
  by_cases he : tokens = []
  · subst he
    apply Iff.intro
    · exact Yields.of_withoutEpsilon
    · intro h
      exact .of_mem ((nil_mem_withoutEpsilon_iff hw).2 h) .nil
  · exact yields_withoutEpsilon_iff hw he

/-- The sentences stay the same, every symbol derives the same lists of one token or more, and the
start symbol alone may have an empty right side, if it derives the empty list. -/
theorem withoutEpsilon_spec {start : Symbol} {productions : List Production}
    (h : validate start productions = .ok g) :
    (∀ tokens, g.withoutEpsilon.IsSentence tokens ↔ g.IsSentence tokens) ∧
      (∀ a tokens, tokens ≠ [] → (∀ token ∈ tokens, isTerminal token = true) →
        (g.withoutEpsilon.Derives [a] tokens ↔ g.Derives [a] tokens)) ∧
      (∀ p ∈ g.withoutEpsilon.productions, p.right = [] → p.left = g.start) ∧
      (⟨g.start, []⟩ ∈ g.withoutEpsilon.productions ↔ g.Derives [g.start] []) := by
  obtain ⟨_, hw⟩ := validate_eq_ok_iff.1 h
  have hs : ∀ tokens, g.withoutEpsilon.IsSentence tokens ↔ g.IsSentence tokens := by
    intro tokens
    rw [isSentence_iff_yields, isSentence_iff_yields]
    exact yields_start_withoutEpsilon_iff hw
  have hd : ∀ (a : Symbol) (tokens : List Token), tokens ≠ [] →
      (∀ token ∈ tokens, isTerminal token = true) →
      (g.withoutEpsilon.Derives [a] tokens ↔ g.Derives [a] tokens) := by
    intro a tokens hne ht
    have hy := yields_withoutEpsilon_iff (a := a) hw hne
    rwa [yields_iff, yields_iff, and_iff_left ht, and_iff_left ht] at hy
  have hn : ⟨g.start, []⟩ ∈ g.withoutEpsilon.productions ↔ g.Derives [g.start] [] := by
    rw [nil_mem_withoutEpsilon_iff hw, yields_iff]
    exact and_iff_left (List.forall_mem_nil _)
  exact ⟨hs, hd, fun _ => left_eq_of_mem_withoutEpsilon, hn⟩

/-- Its start symbol yields the empty list and stands on right sides. -/
def vanishing : Grammar :=
  ⟨"S", [⟨"S", ["A", "S", "b"]⟩, ⟨"S", ["A"]⟩, ⟨"A", []⟩, ⟨"A", ["a", "S"]⟩]⟩

theorem withoutEpsilon_vanishing : vanishing.Derives ["S"] [] ∧
    (∀ p ∈ vanishing.withoutEpsilon.productions, p.right = [] → p.left = "S") ∧
    vanishing.IsSentence ["b"] ∧ vanishing.Derives ["A"] ["a"] := by
  have hv : validate "S" vanishing.productions = .ok vanishing := rfl
  obtain ⟨hs, hd, hl, hn⟩ := withoutEpsilon_spec hv
  have ha : vanishing.withoutEpsilon.Derives ["A"] ["a"] :=
    .of_mem (p := ⟨"A", ["a"]⟩) (by decide +kernel)
  have hb : vanishing.withoutEpsilon.IsSentence ["b"] :=
    ⟨.of_mem (p := ⟨"S", ["b"]⟩) (by decide +kernel), by decide⟩
  exact ⟨hn.1 (by decide +kernel), hl, (hs ["b"]).1 hb,
    (hd "A" ["a"] (by decide) (by decide)).1 ha⟩

end Grammar

end PhraseGrammar
