import PhraseGrammar.Proofs.Grammar.Saturation

namespace PhraseGrammar

/-- A symbol becomes known. It is kept in mind whether it was new. -/
def learn (state : Bool × SymbolSet) (s : Symbol) : Bool × SymbolSet :=
  if s ∈ state.2 then state else (true, state.2.insert s)

/-- What follows from one production becomes known at once. -/
def learnFrom (follows : SymbolSet → Production → List Symbol) (state : Bool × SymbolSet)
    (p : Production) : Bool × SymbolSet :=
  (follows state.2 p).foldl learn state

/-- All that follows from some production. -/
def followUps (follows : SymbolSet → Production → List Symbol) (productions : List Production)
    (known : SymbolSet) : List Symbol :=
  productions.flatMap (follows known)

/-- Goes through productions in the order in which they are given, each of them seeing what has
become known from the ones before it. -/
def pass (follows : SymbolSet → Production → List Symbol) (productions : List Production)
    (known : SymbolSet) : Bool × SymbolSet :=
  productions.foldl (learnFrom follows) (false, known)

/-- Passes follow one another until one of them learns nothing new. -/
inductive PassesTo (follows : SymbolSet → Production → List Symbol)
    (productions : List Production) : SymbolSet → SymbolSet → Prop where
  | rest {known : SymbolSet} (h : (pass follows productions known).1 = false) :
    PassesTo follows productions known (pass follows productions known).2
  | again {known result : SymbolSet} (h : (pass follows productions known).1 = true)
    (hr : PassesTo follows productions (pass follows productions known).2 result) :
    PassesTo follows productions known result

/-- The passes come to an end, and never with another set than the given one. -/
def PassesEndWith (follows : SymbolSet → Production → List Symbol) (productions : List Production)
    (known expected : SymbolSet) : Prop :=
  (∃ result, PassesTo follows productions known result) ∧
    ∀ result, PassesTo follows productions known result → result.toList = expected.toList

/-- A left side follows where all symbols of the right side pass a test. -/
def leftIf (passes : SymbolSet → Symbol → Bool) (known : SymbolSet) (p : Production) :
    List Symbol :=
  if p.right.all (passes known) then [p.left] else []

/-- The nonterminals of a right side follow where the left side is known. -/
def rightIf (known : SymbolSet) (p : Production) : List Symbol :=
  if known.contains p.left then p.right.filter isNonterminal else []

variable {follows : SymbolSet → Production → List Symbol} {productions : List Production}
  {consequences : SymbolSet → List Symbol} {known result result' : SymbolSet}
  {state : Bool × SymbolSet} {symbols : List Symbol} {s : Symbol}

/-- More follows from more. -/
def GrowsWith (consequences : SymbolSet → List Symbol) : Prop :=
  ∀ known known' : SymbolSet, (∀ s ∈ known, s ∈ known') →
    ∀ s ∈ consequences known, s ∈ consequences known'

theorem Closes.congr {consequences' : SymbolSet → List Symbol}
    (he : ∀ other s, s ∈ consequences other ↔ s ∈ consequences' other)
    (h : Closes consequences known result) : Closes consequences' known result where
  mem_of_mem := h.mem_of_mem
  closed s hs := h.closed s ((he result s).2 hs)
  induction Holds hk hc :=
    h.induction Holds hk fun other ho s hs => hc other ho s ((he other s).1 hs)

theorem Closes.mem_of_closes (hg : GrowsWith consequences) (h : Closes consequences known result)
    (h' : Closes consequences known result') : ∀ s ∈ result, s ∈ result' := by
  apply h.induction _ h'.mem_of_mem
  intro other ho s hs
  exact h'.closed s (hg other result' ho s hs)

theorem Closes.toList_eq (hg : GrowsWith consequences) (h : Closes consequences known result)
    (h' : Closes consequences known result') : result.toList = result'.toList := by
  apply Std.TreeSet.equiv_iff_toList_eq.1
  apply Std.TreeSet.Equiv.of_forall_mem_iff
  intro s
  exact ⟨h.mem_of_closes hg h' s, h'.mem_of_closes hg h s⟩

/-- Nothing is forgotten, and if anything changes, something new was learnt and kept in mind. -/
structure Advances (before after : Bool × SymbolSet) : Prop where
  mem_of_mem : ∀ s ∈ before.2, s ∈ after.2
  eq_or_new : after = before ∨ after.1 = true ∧ ∃ s ∈ after.2, s ∉ before.2

namespace Advances

variable {before between after : Bool × SymbolSet}

theorem refl (state : Bool × SymbolSet) : Advances state state :=
  ⟨fun _ => id, .inl rfl⟩

theorem fst_eq (h : Advances before after) (hb : before.1 = true) : after.1 = true := by
  rcases h.eq_or_new with rfl | ⟨ha, _⟩
  · exact hb
  · exact ha

theorem trans (h : Advances before between) (h' : Advances between after) :
    Advances before after := by
  refine ⟨fun s hs => h'.mem_of_mem s (h.mem_of_mem s hs), ?_⟩
  rcases h.eq_or_new with rfl | ⟨hb, s, hs, hn⟩
  · exact h'.eq_or_new
  · exact .inr ⟨h'.fst_eq hb, s, h'.mem_of_mem s hs, hn⟩

theorem eq_of_back (h : Advances before after) (h' : Advances after before) : after = before := by
  rcases h.eq_or_new with he | ⟨_, s, hs, hn⟩
  · exact he
  · exact absurd (h'.mem_of_mem s hs) hn

theorem foldl {α : Type} {step : Bool × SymbolSet → α → Bool × SymbolSet}
    (h : ∀ state x, Advances state (step state x)) (xs : List α) (state : Bool × SymbolSet) :
    Advances state (xs.foldl step state) := by
  induction xs generalizing state with
  | nil => exact .refl state
  | cons x xs ih => exact (h state x).trans (ih _)

end Advances

theorem advances_learn (state : Bool × SymbolSet) (s : Symbol) :
    Advances state (learn state s) := by
  rw [learn]
  split
  · exact .refl state
  · rename_i hn
    exact ⟨fun t ht => Std.TreeSet.mem_insert.2 (.inr ht),
      .inr ⟨rfl, s, Std.TreeSet.mem_insert_self, hn⟩⟩

theorem advances_learnFrom (state : Bool × SymbolSet) (p : Production) :
    Advances state (learnFrom follows state p) :=
  .foldl advances_learn _ state

theorem advances_foldl_learnFrom (follows : SymbolSet → Production → List Symbol)
    (productions : List Production) (state : Bool × SymbolSet) :
    Advances state (productions.foldl (learnFrom follows) state) :=
  .foldl advances_learnFrom productions state

theorem mem_learn_self : s ∈ (learn state s).2 := by
  rw [learn]
  split
  · assumption
  · exact Std.TreeSet.mem_insert_self

theorem mem_foldl_learn (hs : s ∈ symbols) : s ∈ (symbols.foldl learn state).2 := by
  induction symbols generalizing state with
  | nil => cases hs
  | cons t symbols ih =>
    rcases List.mem_cons.1 hs with rfl | hs
    · exact (Advances.foldl advances_learn symbols _).mem_of_mem s mem_learn_self
    · exact ih hs

theorem foldl_learn_induction {Holds : Symbol → Prop} (hk : ∀ s ∈ state.2, Holds s)
    (hs : ∀ s ∈ symbols, Holds s) : ∀ s ∈ (symbols.foldl learn state).2, Holds s := by
  induction symbols generalizing state with
  | nil => exact hk
  | cons t symbols ih =>
    obtain ⟨ht, hs⟩ := List.forall_mem_cons.1 hs
    refine ih ?_ hs
    intro u hu
    rw [learn] at hu
    split at hu
    · exact hk u hu
    · rw [Std.TreeSet.mem_insert, Std.LawfulEqCmp.compare_eq_iff_eq] at hu
      rcases hu with rfl | hu
      · exact ht
      · exact hk u hu

/-- Productions that change nothing have nothing to add. -/
theorem mem_of_foldl_learnFrom_eq
    (he : productions.foldl (learnFrom follows) state = state) :
    ∀ p ∈ productions, ∀ s ∈ follows state.2 p, s ∈ state.2 := by
  induction productions with
  | nil => exact List.forall_mem_nil _
  | cons p productions ih =>
    rw [List.foldl_cons] at he
    have hr : Advances (learnFrom follows state p) state := by
      have ha := advances_foldl_learnFrom follows productions (learnFrom follows state p)
      rwa [he] at ha
    have hp : learnFrom follows state p = state := (advances_learnFrom state p).eq_of_back hr
    rw [hp] at he
    refine List.forall_mem_cons.2 ⟨?_, ih he⟩
    intro s hs
    have hm : s ∈ (learnFrom follows state p).2 := mem_foldl_learn hs
    rwa [hp] at hm

theorem foldl_learnFrom_induction {Holds : Symbol → Prop} (hk : ∀ s ∈ state.2, Holds s)
    (hf : ∀ known : SymbolSet, (∀ s ∈ known, Holds s) →
      ∀ p ∈ productions, ∀ s ∈ follows known p, Holds s) :
    ∀ s ∈ (productions.foldl (learnFrom follows) state).2, Holds s := by
  induction productions generalizing state with
  | nil => exact hk
  | cons p productions ih =>
    apply ih
    · exact foldl_learn_induction hk (hf state.2 hk p List.mem_cons_self)
    · intro known hh q hq
      exact hf known hh q (List.mem_cons_of_mem _ hq)

theorem advances_pass (known : SymbolSet) :
    Advances (false, known) (pass follows productions known) :=
  advances_foldl_learnFrom follows productions _

theorem pass_induction {Holds : Symbol → Prop} (hk : ∀ s ∈ known, Holds s)
    (hf : ∀ other : SymbolSet, (∀ s ∈ other, Holds s) →
      ∀ s ∈ followUps follows productions other, Holds s) :
    ∀ s ∈ (pass follows productions known).2, Holds s := by
  rw [pass]
  refine foldl_learnFrom_induction hk ?_
  intro other ho p hp s hs
  exact hf other ho s (List.mem_flatMap.2 ⟨p, hp, hs⟩)

theorem PassesTo.closes (h : PassesTo follows productions known result) :
    Closes (followUps follows productions) known result := by
  induction h with
  | @rest known hf =>
    have he : pass follows productions known = (false, known) := by
      rcases (advances_pass known).eq_or_new with he | ⟨ht, _⟩
      · exact he
      · rw [ht] at hf
        cases hf
    rw [he]
    refine ⟨fun _ => id, ?_, fun Holds hk _ => hk⟩
    intro s hs
    obtain ⟨p, hp, hs⟩ := List.mem_flatMap.1 hs
    exact mem_of_foldl_learnFrom_eq he p hp s hs
  | @again known result _ _ ih =>
    refine ⟨fun s hs => ih.mem_of_mem s ((advances_pass known).mem_of_mem s hs), ih.closed, ?_⟩
    intro Holds hk hf
    exact ih.induction Holds (pass_induction hk hf) hf

/-- Each pass but the last learns one of the symbols that are missing. -/
theorem exists_passesTo (missing : List Symbol)
    (hm : ∀ other : SymbolSet, (∀ s ∈ other, s ∈ known ∨ s ∈ missing) →
      ∀ s ∈ followUps follows productions other, s ∈ known ∨ s ∈ missing) :
    ∃ result, PassesTo follows productions known result := by
  induction hn : missing.length using Nat.strongRecOn generalizing known missing with
  | ind n ih =>
    have ha : Advances (false, known) (pass follows productions known) := advances_pass known
    rcases ha.eq_or_new with he | ⟨ht, x, hx, hnew⟩
    · exact ⟨_, .rest (by rw [he])⟩
    · have hall : ∀ s ∈ (pass follows productions known).2, s ∈ known ∨ s ∈ missing :=
        pass_induction (fun _ => .inl) hm
      have hxm : x ∈ missing := (hall x hx).resolve_left hnew
      have hlt : (missing.erase x).length < n := by
        rw [List.length_erase_of_mem hxm, hn]
        have hpos := List.length_pos_of_mem hxm
        omega
      -- What was known or missing still is, though the new symbol has changed sides.
      have hsame : ∀ s, (s ∈ (pass follows productions known).2 ∨ s ∈ missing.erase x) ↔
          s ∈ known ∨ s ∈ missing := by
        intro s
        by_cases he : s = x
        · subst he
          simp only [hx, hxm, true_or, or_true]
        · rw [List.mem_erase_of_ne he]
          exact ⟨fun h => h.elim (hall s) .inr, Or.imp_left (ha.mem_of_mem s)⟩
      obtain ⟨result, hr⟩ : ∃ result,
          PassesTo follows productions (pass follows productions known).2 result :=
        ih _ hlt (missing.erase x) (by simpa only [hsame] using hm) rfl
      exact ⟨result, .again ht hr⟩

/-- The passes have to stop within a closed set, and what they stop with is all of it. -/
theorem Closes.passesEndWith (hg : GrowsWith (followUps follows productions))
    (h : Closes (followUps follows productions) known result) :
    PassesEndWith follows productions known result := by
  apply And.intro
  · apply exists_passesTo result.toList
    simp only [Std.TreeSet.mem_toList]
    intro other ho s hs
    have hr : ∀ t ∈ other, t ∈ result := fun t ht => (ho t ht).elim (h.mem_of_mem t) id
    exact .inr (h.closed s (hg other result hr s hs))
  · intro result' hr
    exact hr.closes.toList_eq hg h

theorem mem_followUps_leftIf_iff {passes : SymbolSet → Symbol → Bool} :
    s ∈ followUps (leftIf passes) productions known ↔
      s ∈ leftsWithAll productions (passes known) := by
  simp only [followUps, leftIf, List.mem_flatMap, mem_leftsWithAll]
  grind

theorem mem_followUps_rightIf_iff :
    s ∈ followUps rightIf productions known ↔ s ∈ nonterminalsBelow productions known := by
  simp only [followUps, rightIf, List.mem_flatMap, mem_nonterminalsBelow]
  grind

namespace Grammar

variable {g : Grammar}

theorem passesEndWith_leftsWithAll {passes : SymbolSet → Symbol → Bool}
    (hp : ∀ p, p ∈ productions ↔ p ∈ g.productions)
    (hg : ∀ known known' : SymbolSet, (∀ s ∈ known, s ∈ known') →
      ∀ s, passes known s = true → passes known' s = true) :
    PassesEndWith (leftIf passes) productions ∅
      (closeUnder (fun known => leftsWithAll g.productions (passes known))
        g.productions.length ∅) := by
  have he (other : SymbolSet) (s : Symbol) : s ∈ followUps (leftIf passes) productions other ↔
      s ∈ leftsWithAll g.productions (passes other) := by
    simp only [mem_followUps_leftIf_iff, mem_leftsWithAll, hp]
  apply Closes.passesEndWith
  · intro known known' hk s
    simp only [mem_followUps_leftIf_iff, mem_leftsWithAll]
    rintro ⟨p, hp, hr, hl⟩
    exact ⟨p, hp, fun t ht => hg known known' hk t (hr t ht), hl⟩
  · exact closes_leftsWithAll.congr fun other s => (he other s).symm

theorem passesEndWith_generating (hp : ∀ p, p ∈ productions ↔ p ∈ g.productions) :
    PassesEndWith (leftIf fun known s => isTerminal s || known.contains s) productions ∅
      g.generating := by
  apply passesEndWith_leftsWithAll hp
  intro known known' hk s
  simp only [Bool.or_eq_true, Std.TreeSet.contains_iff_mem]
  exact Or.imp_right (hk s)

theorem passesEndWith_nullable (hp : ∀ p, p ∈ productions ↔ p ∈ g.productions) :
    PassesEndWith (leftIf fun known s => isNonterminal s && known.contains s) productions ∅
      g.nullable := by
  apply passesEndWith_leftsWithAll hp
  intro known known' hk s
  simp only [Bool.and_eq_true, Std.TreeSet.contains_iff_mem]
  exact And.imp_right (hk s)

theorem passesEndWith_reachable (hp : ∀ p, p ∈ productions ↔ p ∈ g.productions) (a : Symbol) :
    PassesEndWith rightIf productions (.ofList [a]) (g.reachable a) := by
  have he (other : SymbolSet) (s : Symbol) : s ∈ followUps rightIf productions other ↔
      s ∈ nonterminalsBelow g.productions other := by
    simp only [mem_followUps_rightIf_iff, mem_nonterminalsBelow, hp]
  apply Closes.passesEndWith
  · intro known known' hk s
    simp only [mem_followUps_rightIf_iff, mem_nonterminalsBelow]
    rintro ⟨p, hp, hl, hr⟩
    exact ⟨p, hp, hk _ hl, hr⟩
  · exact (closes_reachable g a).congr fun other s => (he other s).symm

theorem mem_generating_iff (hl : ∀ p ∈ g.productions, isNonterminal p.left = true) {a : Symbol} :
    a ∈ g.generating ↔ isNonterminal a = true ∧
      ∃ tokens, g.Derives [a] tokens ∧ ∀ token ∈ tokens, isTerminal token = true := by
  apply Iff.intro
  · intro ha
    obtain ⟨tokens, hy⟩ := yields_of_mem_generating a ha
    have hn : ∀ s ∈ g.generating, isNonterminal s = true :=
      closeUnder_leftsWithAll_induction fun _ _ p hp _ => hl p hp
    exact ⟨hn a ha, tokens, yields_iff.1 hy⟩
  · rintro ⟨hn, tokens, hd⟩
    rcases (yields_iff.2 hd).mem_generating a List.mem_cons_self with ht | ha
    · rw [isTerminal, hn] at ht
      cases ht
    · exact ha

theorem mem_nullable_iff_derives (hl : ∀ p ∈ g.productions, isNonterminal p.left = true)
    {a : Symbol} : a ∈ g.nullable ↔ isNonterminal a = true ∧ g.Derives [a] [] := by
  have hy : g.Yields [a] [] ↔ g.Derives [a] [] := yields_iff_derives (List.forall_mem_nil _)
  rw [mem_nullable_iff hl, ← hy]
  apply Iff.intro
  · intro h
    exact ⟨(h.mem_nullable hl rfl a List.mem_cons_self).1, h⟩
  · exact And.right

/-- Every step of a derivation expands a nonterminal, which has been reached before. -/
theorem Derives.mem_reachable {form form' : List Symbol} {start : Symbol}
    (hl : ∀ p ∈ g.productions, isNonterminal p.left = true) (h : g.Derives form form')
    (hf : ∀ s ∈ form, isNonterminal s = true → s ∈ g.reachable start) :
    ∀ s ∈ form', isNonterminal s = true → s ∈ g.reachable start := by
  induction h with
  | refl => exact hf
  | tail _ step ih =>
    cases step with
    | @step p before after hp =>
      have hm : p.left ∈ g.reachable start := ih p.left (by simp) (hl p hp)
      intro s hs hn
      simp only [List.mem_append] at hs
      rcases hs with (hs | hs) | hs
      · exact ih s (by simp [hs]) hn
      · exact mem_reachable_of_right hp hm hs hn
      · exact ih s (by simp [hs]) hn

theorem mem_reachable_iff (hl : ∀ p ∈ g.productions, isNonterminal p.left = true)
    {start a : Symbol} : a ∈ g.reachable start ↔
      a = start ∨ isNonterminal a = true ∧ ∃ form, g.Derives [start] form ∧ a ∈ form := by
  have hs : ∀ s ∈ g.reachable start,
      (s = start ∨ isNonterminal s = true) ∧ ∃ form, g.Derives [start] form ∧ s ∈ form := by
    apply reachable_induction
    · exact ⟨.inl rfl, [start], .refl _, List.mem_cons_self⟩
    · rintro p hp ⟨_, form, hd, hm⟩ s hs hn
      obtain ⟨before, after, rfl⟩ := List.append_of_mem hm
      have hr : g.Produces (before ++ p.left :: after) (before ++ p.right ++ after) :=
        .step before after hp
      exact ⟨.inr hn, _, hd.tail hr, by simp [hs]⟩
  apply Iff.intro
  · intro ha
    obtain ⟨hn, hf⟩ := hs a ha
    exact hn.imp_right fun hn => ⟨hn, hf⟩
  · rintro (rfl | ⟨hn, form, hd, hm⟩)
    · exact mem_reachable_self
    · refine hd.mem_reachable hl ?_ a hm hn
      intro s hs _
      obtain rfl := List.mem_singleton.1 hs
      exact mem_reachable_self

/-- The generating, the nullable and the reachable symbols are those of the derivations. One pass
after another finds them in any order of the productions, and the passes come to an end. -/
theorem saturation_spec (g : Grammar) (hl : ∀ p ∈ g.productions, isNonterminal p.left = true) :
    (∀ a, a ∈ g.generating ↔ isNonterminal a = true ∧
      ∃ tokens, g.Derives [a] tokens ∧ ∀ token ∈ tokens, isTerminal token = true) ∧
    (∀ a, a ∈ g.nullable ↔ isNonterminal a = true ∧ g.Derives [a] []) ∧
    (∀ start a, a ∈ g.reachable start ↔
      a = start ∨ isNonterminal a = true ∧ ∃ form, g.Derives [start] form ∧ a ∈ form) ∧
    ∀ productions : List Production, (∀ p, p ∈ productions ↔ p ∈ g.productions) →
      PassesEndWith (leftIf fun known s => isTerminal s || known.contains s) productions ∅
        g.generating ∧
      PassesEndWith (leftIf fun known s => isNonterminal s && known.contains s) productions ∅
        g.nullable ∧
      ∀ start, PassesEndWith rightIf productions (.ofList [start]) (g.reachable start) := by
  refine ⟨fun _ => mem_generating_iff hl, fun _ => mem_nullable_iff_derives hl,
    fun _ _ => mem_reachable_iff hl, ?_⟩
  intro productions hp
  exact ⟨passesEndWith_generating hp, passesEndWith_nullable hp, passesEndWith_reachable hp⟩

/-- `U` has no production, `C` only one that never ends, and nothing leads to `D`. What one
production makes known is what the ones before it were waiting for. -/
def tangled : Grammar :=
  ⟨"S", [⟨"S", ["A", "U"]⟩, ⟨"S", ["A", "A"]⟩, ⟨"A", ["B"]⟩, ⟨"B", []⟩, ⟨"B", ["b", "S"]⟩,
    ⟨"C", ["c", "C"]⟩, ⟨"D", ["S", "C"]⟩]⟩

theorem saturation_tangled : (∀ p ∈ tangled.productions, isNonterminal p.left = true) ∧
    tangled.Derives ["S"] [] ∧
    (¬∃ tokens, tangled.Derives ["D"] tokens ∧ ∀ token ∈ tokens, isTerminal token = true) ∧
    (∃ form, tangled.Derives ["S"] form ∧ "U" ∈ form) ∧
    (¬∃ form, tangled.Derives ["S"] form ∧ "C" ∈ form) ∧
    PassesEndWith (leftIf fun known s => isNonterminal s && known.contains s)
      tangled.productions.reverse ∅ tangled.nullable := by
  have hl : ∀ p ∈ tangled.productions, isNonterminal p.left = true := by decide
  obtain ⟨hg, hn, hr, hp⟩ := saturation_spec tangled hl
  have hs : "S" ∈ tangled.nullable := by decide +kernel
  have hd : "D" ∉ tangled.generating := by decide +kernel
  have hu : "U" ∈ tangled.reachable "S" := by decide +kernel
  have hc : "C" ∉ tangled.reachable "S" := by decide +kernel
  refine ⟨hl, ((hn "S").1 hs).2, ?_, ?_, ?_, (hp _ fun _ => List.mem_reverse).2.1⟩
  · exact fun h => hd ((hg "D").2 ⟨by decide, h⟩)
  · exact (((hr "S" "U").1 hu).resolve_left (by decide)).2
  · exact fun h => hc ((hr "S" "C").2 (.inr ⟨by decide, h⟩))

end Grammar

end PhraseGrammar
