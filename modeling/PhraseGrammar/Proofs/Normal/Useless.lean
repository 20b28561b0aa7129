import PhraseGrammar.Normal.Reduction
import PhraseGrammar.Proofs.Grammar.Saturation

namespace PhraseGrammar.Grammar

variable {g : Grammar} {p : Production} {form form' : List Symbol} {tokens : List Token}

/-- A production is useful when a derivation of terminals from the start symbol makes use of it. -/
def IsUseful (g : Grammar) (p : Production) : Prop :=
  p ∈ g.productions ∧ ∃ before after tokens, g.Derives [g.start] (before ++ p.left :: after) ∧
    g.Derives (before ++ p.right ++ after) tokens ∧ ∀ token ∈ tokens, isTerminal token = true

theorem mem_keeping {test : Production → Bool} :
    p ∈ (g.keeping test).productions ↔ p ∈ g.productions ∧ test p = true := by
  rw [keeping, mem_ofProductions, List.mem_filter]

theorem ofProductions_of_nodup (h : g.productions.Nodup) :
    ofProductions g.start g.productions = g := by
  rw [ofProductions, distinct_of_nodup h]

theorem productions_keeping (hn : g.productions.Nodup) (test : Production → Bool) :
    (g.keeping test).productions = g.productions.filter test :=
  distinct_of_nodup (hn.filter test)

theorem keeping_eq_self {test : Production → Bool} (hn : g.productions.Nodup)
    (h : ∀ p ∈ g.productions, p ∈ (g.keeping test).productions) : g.keeping test = g := by
  have hf : g.productions.filter test = g.productions :=
    List.filter_eq_self.2 fun p hp => (mem_keeping.1 (h p hp)).2
  rw [keeping, hf, ofProductions_of_nodup hn]

theorem WellFormed.keeping (hw : g.WellFormed) (test : Production → Bool) :
    (g.keeping test).WellFormed := by
  apply WellFormed.of_productions hw.start
  · intro p hp
    exact hw.left p (List.mem_filter.1 hp).1
  · intro p hp
    exact hw.right p (List.mem_filter.1 hp).1

theorem WellFormed.withoutUseless (hw : g.WellFormed) : g.withoutUseless.WellFormed :=
  (hw.keeping _).keeping _

@[simp]
theorem start_withoutUseless : g.withoutUseless.start = g.start := rfl

theorem mem_productive_iff :
    p ∈ g.productive.productions ↔ p ∈ g.productions ∧ ∃ tokens, g.Yields p.right tokens := by
  rw [productive, mem_keeping, yields_something_iff]
  simp only [Bool.and_eq_true, List.all_eq_true, Bool.or_eq_true, Std.TreeSet.contains_iff_mem]
  apply Iff.intro
  · rintro ⟨hp, _, hr⟩
    exact ⟨hp, hr⟩
  · rintro ⟨hp, hr⟩
    exact ⟨hp, mem_generating_of_right hp hr, hr⟩

theorem mem_withoutUseless_iff : p ∈ g.withoutUseless.productions ↔
    p ∈ g.productive.productions ∧ p.left ∈ g.productive.reachable g.start := by
  rw [withoutUseless, mem_keeping, Std.TreeSet.contains_iff_mem]

theorem mem_of_mem_withoutUseless (hp : p ∈ g.withoutUseless.productions) : p ∈ g.productions :=
  (mem_productive_iff.1 (mem_withoutUseless_iff.1 hp).1).1

/-- Whatever stands around a reachable symbol yields something as well. -/
theorem exists_context_of_mem_reachable : ∀ s ∈ g.productive.reachable g.start,
    ∃ before after first second, g.Derives [g.start] (before ++ s :: after) ∧
      g.Yields before first ∧ g.Yields after second := by
  apply reachable_induction
  · exact ⟨[], [], [], [], .refl _, .nil, .nil⟩
  · rintro p hp ⟨before, after, first, second, hd, hf, hs⟩ s hr _
    obtain ⟨hm, tokens, ht⟩ := mem_productive_iff.1 hp
    obtain ⟨x, y, hxy⟩ := List.append_of_mem hr
    obtain ⟨u, v, rfl, hu, hv⟩ := ht.split hxy
    obtain ⟨_, w, rfl, _, hw⟩ := yields_cons_iff.1 hv
    refine ⟨before ++ x, y ++ after, first ++ u, w ++ second, ?_, hf.append hu, hw.append hs⟩
    have hstep := hd.tail (.step before after hm)
    rw [hxy] at hstep
    simpa using hstep

theorem mem_reachable_of_derives (hw : g.WellFormed) (h : g.Derives [g.start] form)
    (hy : g.Yields form tokens) :
    ∀ s ∈ form, isNonterminal s = true → s ∈ g.productive.reachable g.start := by
  induction h with
  | refl =>
    intro s hs _
    rw [List.mem_singleton.1 hs]
    exact mem_reachable_self
  | tail h step ih =>
    have hm := ih (.of_produces step hy)
    cases step with
    | @step p before after hp =>
      intro s hs ha
      rw [List.append_assoc] at hy
      obtain ⟨u, v, rfl, _, hv⟩ := hy.split rfl
      obtain ⟨tokens, _, rfl, hr, _⟩ := hv.split rfl
      have hpp : p ∈ g.productive.productions := mem_productive_iff.2 ⟨hp, tokens, hr⟩
      have hl : p.left ∈ g.productive.reachable g.start := hm p.left (by simp) (hw.left p hp)
      simp only [List.mem_append] at hs
      rcases hs with (hs | hs) | hs
      · exact hm s (by simp [hs]) ha
      · exact mem_reachable_of_right hpp hl hs ha
      · exact hm s (by simp [hs]) ha

theorem mem_withoutUseless_of_derives (hw : g.WellFormed) {before after : List Symbol}
    (hp : p ∈ g.productions) (h : g.Derives [g.start] (before ++ p.left :: after))
    (hy : g.Yields (before ++ p.right ++ after) tokens) : p ∈ g.withoutUseless.productions := by
  have hl : g.Yields (before ++ p.left :: after) tokens := .of_produces (.step _ _ hp) hy
  rw [List.append_assoc] at hy
  obtain ⟨_, _, _, _, hv⟩ := hy.split rfl
  obtain ⟨_, _, _, hr, _⟩ := hv.split rfl
  rw [mem_withoutUseless_iff, mem_productive_iff]
  exact ⟨⟨hp, _, hr⟩, mem_reachable_of_derives hw h hl p.left (by simp) (hw.left p hp)⟩

/-- The productions that are kept are the useful ones. -/
theorem mem_withoutUseless_iff_isUseful (hw : g.WellFormed) :
    p ∈ g.withoutUseless.productions ↔ g.IsUseful p := by
  apply Iff.intro
  · intro h
    obtain ⟨hp, hl⟩ := mem_withoutUseless_iff.1 h
    obtain ⟨hm, tokens, ht⟩ := mem_productive_iff.1 hp
    obtain ⟨before, after, first, second, hd, hf, hs⟩ := exists_context_of_mem_reachable _ hl
    have hy : g.Yields (before ++ p.right ++ after) (first ++ tokens ++ second) :=
      (hf.append ht).append hs
    exact ⟨hm, before, after, _, hd, yields_iff.1 hy⟩
  · rintro ⟨hp, before, after, tokens, hd, ht⟩
    exact mem_withoutUseless_of_derives hw hp hd (yields_iff.2 ht)

/-- Nothing but useful productions is needed on the way from the start symbol to terminals. -/
theorem Derives.withoutUseless (hw : g.WellFormed) (h : g.Derives [g.start] form)
    (h' : g.Derives form form') (hy : g.Yields form' tokens) :
    g.withoutUseless.Derives form form' := by
  induction h' with
  | refl => exact .refl _
  | tail h' step ih =>
    have hd := ih (.of_produces step hy)
    cases step with
    | step before after hp =>
      exact hd.tail (.step _ _ (mem_withoutUseless_of_derives hw hp (h.trans h') hy))

theorem Yields.withoutUseless (hw : g.WellFormed) (h : g.Derives [g.start] form)
    (hy : g.Yields form tokens) : g.withoutUseless.Yields form tokens :=
  yields_iff.2 ⟨h.withoutUseless hw hy.derives (yields_self hy.isTerminal_of_mem),
    hy.isTerminal_of_mem⟩

theorem yields_start_withoutUseless_iff (hw : g.WellFormed) :
    g.withoutUseless.Yields [g.start] tokens ↔ g.Yields [g.start] tokens := by
  apply Iff.intro
  · exact Yields.mono fun _ => mem_of_mem_withoutUseless
  · exact Yields.withoutUseless hw (.refl _)

/-- Reachable symbols yield what they did: every production that is used on the way is kept. -/
theorem Yields.of_reachable (h : g.Yields form tokens)
    (hr : ∀ s ∈ form, isNonterminal s = true → s ∈ g.productive.reachable g.start)
    (hw : g.WellFormed) : g.withoutUseless.Yields form tokens := by
  induction h with
  | nil => exact .nil
  | terminal ha _ ih =>
    rw [List.forall_mem_cons] at hr
    exact .terminal ha (ih hr.2)
  | @expand p _ first _ hp hf _ ihf ihs =>
    rw [List.forall_mem_cons] at hr
    have hm : p ∈ g.productive.productions := mem_productive_iff.2 ⟨hp, first, hf⟩
    have hl := hr.1 (hw.left p hp)
    have hright := ihf fun s hs ha => mem_reachable_of_right hm hl hs ha
    exact .expand (mem_withoutUseless_iff.2 ⟨hm, hl⟩) hright (ihs hr.2)

theorem yields_left_withoutUseless_iff (hw : g.WellFormed)
    (hp : p ∈ g.withoutUseless.productions) :
    g.withoutUseless.Yields [p.left] tokens ↔ g.Yields [p.left] tokens := by
  apply Iff.intro
  · exact Yields.mono fun _ => mem_of_mem_withoutUseless
  · intro h
    apply h.of_reachable _ hw
    intro s hs _
    rw [List.mem_singleton.1 hs]
    exact (mem_withoutUseless_iff.1 hp).2

/-- The start symbol of a grammar with any productions has some of its own. -/
def IsRooted (g : Grammar) : Prop :=
  ∀ p ∈ g.productions, ∃ q ∈ g.productions, q.left = g.start

theorem isRooted_of_yields (hw : g.WellFormed)
    (h : ∀ p ∈ g.productions, ∃ tokens, g.Yields [g.start] tokens) : g.IsRooted := by
  intro p hp
  obtain ⟨tokens, hy⟩ := h p hp
  obtain ⟨q, hq, hl, _⟩ := (yields_nonterminal_iff hw.start).1 hy
  exact ⟨q, hq, hl⟩

theorem isRooted_iff : g.IsRooted ↔ g.productions = [] ∨ g.start ∈ g.nonterminals := by
  rw [mem_nonterminals_iff]
  apply Iff.intro
  · intro h
    rcases hp : g.productions with _ | ⟨p, rest⟩
    · exact .inl rfl
    · exact .inr (hp ▸ h p (hp ▸ List.mem_cons_self))
  · rintro (he | h) p hp
    · rw [he] at hp
      cases hp
    · exact h

theorem exists_yields_of_mem_withoutUseless (hw : g.WellFormed)
    (h : p ∈ g.withoutUseless.productions) :
    ∃ tokens, g.withoutUseless.Yields [g.start] tokens := by
  obtain ⟨hp, before, after, tokens, hd, ht⟩ := (mem_withoutUseless_iff_isUseful hw).1 h
  have hy : g.Yields [g.start] tokens :=
    .of_derives (hd.tail (.step before after hp)) (yields_iff.2 ht)
  exact ⟨tokens, (yields_start_withoutUseless_iff hw).2 hy⟩

theorem isRooted_withoutUseless (hw : g.WellFormed) : g.withoutUseless.IsRooted :=
  isRooted_of_yields hw.withoutUseless fun _ hp => exists_yields_of_mem_withoutUseless hw hp

/-- Useful productions remain useful when all others are left out. -/
theorem IsUseful.withoutUseless (hw : g.WellFormed) (h : g.IsUseful p) :
    g.withoutUseless.IsUseful p := by
  have hm := (mem_withoutUseless_iff_isUseful hw).2 h
  obtain ⟨hp, before, after, tokens, hd, ht⟩ := h
  have hy := yields_iff.2 ht
  have hstep := hd.tail (.step before after hp)
  refine ⟨hm, before, after, tokens, ?_, yields_iff.1 (hy.withoutUseless hw hstep)⟩
  exact Derives.withoutUseless hw (.refl _) hd (.of_produces (.step before after hp) hy)

theorem sublist_withoutUseless (hn : g.productions.Nodup) :
    g.withoutUseless.productions.Sublist g.productions := by
  have hp : g.productive.productions.Sublist g.productions := by
    rw [productive, productions_keeping hn]
    exact List.filter_sublist
  have hu : g.withoutUseless.productions.Sublist g.productive.productions := by
    rw [withoutUseless, productions_keeping (hn.sublist hp)]
    exact List.filter_sublist
  exact hu.trans hp

theorem withoutUseless_eq_self (hw : g.WellFormed) (h : ∀ p ∈ g.productions, g.IsUseful p) :
    g.withoutUseless = g := by
  have hu : ∀ p ∈ g.productions, p ∈ g.withoutUseless.productions :=
    fun p hp => (mem_withoutUseless_iff_isUseful hw).2 (h p hp)
  have hp : g.productive = g := by
    apply keeping_eq_self hw.nodup
    intro p hm
    exact (mem_withoutUseless_iff.1 (hu p hm)).1
  have hr : g.withoutUseless = g.productive := by
    apply keeping_eq_self
    · exact nodup_distinct
    · intro p hm
      exact hu p (mem_productive_iff.1 hm).1
  exact hr.trans hp

theorem withoutUseless_withoutUseless (hw : g.WellFormed) :
    g.withoutUseless.withoutUseless = g.withoutUseless := by
  apply withoutUseless_eq_self hw.withoutUseless
  intro p hp
  exact ((mem_withoutUseless_iff_isUseful hw).1 hp).withoutUseless hw

theorem productions_withoutUseless_eq_nil_iff (hw : g.WellFormed) :
    g.withoutUseless.productions = [] ↔ ¬∃ tokens, g.Yields [g.start] tokens := by
  rw [List.eq_nil_iff_forall_not_mem]
  apply Iff.intro
  · rintro h ⟨tokens, hy⟩
    have hs := (yields_start_withoutUseless_iff hw).2 hy
    obtain ⟨p, hp, _⟩ := (yields_nonterminal_iff hw.start).1 hs
    exact h p hp
  · intro h p hp
    obtain ⟨tokens, hy⟩ := exists_yields_of_mem_withoutUseless hw hp
    exact h ⟨tokens, (yields_start_withoutUseless_iff hw).1 hy⟩

/-- The useful productions are kept in their order, and no others. The sentences stay the same, no
production is left if there is no sentence, and a second time there is nothing to leave out. -/
theorem withoutUseless_spec (hw : g.WellFormed) :
    (∀ p, p ∈ g.withoutUseless.productions ↔ g.IsUseful p) ∧
      g.withoutUseless.productions.Sublist g.productions ∧
      g.withoutUseless.start = g.start ∧
      (∀ tokens, g.withoutUseless.IsSentence tokens ↔ g.IsSentence tokens) ∧
      (g.withoutUseless.productions = [] ↔ ¬∃ tokens, g.IsSentence tokens) ∧
      g.withoutUseless.withoutUseless = g.withoutUseless := by
  simp only [isSentence_iff_yields]
  exact ⟨fun _ => mem_withoutUseless_iff_isUseful hw, sublist_withoutUseless hw.nodup, rfl,
    fun _ => yields_start_withoutUseless_iff hw, productions_withoutUseless_eq_nil_iff hw,
    withoutUseless_withoutUseless hw⟩

/-- One of its nonterminals can be reached only beside another one that derives no tokens. -/
def cluttered : Grammar :=
  ⟨"S", [⟨"S", ["A", "B"]⟩, ⟨"S", ["a", "S"]⟩, ⟨"S", []⟩, ⟨"A", ["a"]⟩, ⟨"B", ["B", "b"]⟩,
    ⟨"B", ["U"]⟩, ⟨"C", ["c"]⟩]⟩

theorem withoutUseless_cluttered : cluttered.WellFormed ∧
    cluttered.IsUseful ⟨"S", ["a", "S"]⟩ ∧ ¬cluttered.IsUseful ⟨"A", ["a"]⟩ ∧
    cluttered.withoutUseless.IsSentence ["a"] ∧
    cluttered.withoutUseless.withoutUseless = cluttered.withoutUseless := by
  have hv : validate "S" cluttered.productions = .ok cluttered := rfl
  have hw := (validate_eq_ok_iff.1 hv).2
  obtain ⟨hu, _, _, hs, _, he⟩ := withoutUseless_spec hw
  have hn : cluttered.Yields ["S"] [] := .of_mem (p := ⟨"S", []⟩) (by decide) .nil
  have ha : cluttered.Yields ["S"] ["a"] :=
    .of_mem (p := ⟨"S", ["a", "S"]⟩) (by decide) (.terminal rfl hn)
  exact ⟨hw, (hu _).1 (by decide +kernel), mt (hu _).2 (by decide +kernel),
    (hs ["a"]).2 (isSentence_iff_yields.2 ha), he⟩

end PhraseGrammar.Grammar
