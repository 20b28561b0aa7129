import PhraseGrammar.Grammar.Saturation
import PhraseGrammar.Grammar.WellFormed
import PhraseGrammar.Proofs.Grammar.Symbols
import PhraseGrammar.Proofs.Language.Yield

namespace PhraseGrammar

variable {consequences : SymbolSet → List Symbol} {known : SymbolSet} {limit : Nat} {s : Symbol}

theorem mem_insertMany {symbols : List Symbol} :
    s ∈ known.insertMany symbols ↔ s ∈ known ∨ s ∈ symbols := by
  simp [Std.TreeSet.mem_insertMany_list]

theorem size_insertMany_eq_iff {symbols : List Symbol} :
    (known.insertMany symbols).size = known.size ↔ ∀ s ∈ symbols, s ∈ known := by
  induction symbols generalizing known with
  | nil => simp
  | cons x symbols ih =>
    rw [Std.TreeSet.insertMany_cons, List.forall_mem_cons]
    have hle : (known.insert x).size ≤ ((known.insert x).insertMany symbols).size :=
      Std.TreeSet.size_le_size_insertMany_list
    by_cases hx : x ∈ known
    · have hs : (known.insert x).size = known.size := by
        rw [Std.TreeSet.size_insert, if_pos (Std.TreeSet.contains_iff_mem.2 hx)]
      have hm : ∀ s, s ∈ known.insert x ↔ s ∈ known := by
        intro s
        rw [Std.TreeSet.mem_insert, Std.LawfulEqCmp.compare_eq_iff_eq]
        exact ⟨fun h => h.elim (fun he => he ▸ hx) id, .inr⟩
      rw [← hs, ih]
      simp [hm, hx]
    · have hs : (known.insert x).size = known.size + 1 := by
        rw [Std.TreeSet.size_insert, if_neg (mt Std.TreeSet.contains_iff_mem.1 hx)]
      apply Iff.intro
      · intro h
        omega
      · intro h
        exact absurd h.1 hx

/-- What holds of the known symbols, and of the consequences of symbols of which it holds, holds of
all symbols that are found. -/
theorem closeUnder_induction {Holds : Symbol → Prop} (hk : ∀ s ∈ known, Holds s)
    (hc : ∀ other : SymbolSet, (∀ s ∈ other, Holds s) → ∀ s ∈ consequences other, Holds s) :
    ∀ s ∈ closeUnder consequences limit known, Holds s := by
  induction limit generalizing known with
  | zero => exact hk
  | succ limit ih =>
    rw [closeUnder]
    split
    · exact hk
    · apply ih
      intro s hs
      rcases mem_insertMany.1 hs with hs | hs
      · exact hk s hs
      · exact hc known hk s hs

theorem mem_closeUnder_of_mem (hs : s ∈ known) : s ∈ closeUnder consequences limit known := by
  induction limit generalizing known with
  | zero => exact hs
  | succ limit ih =>
    rw [closeUnder]
    split
    · exact hs
    · exact ih (mem_insertMany.2 (.inl hs))

/-- When no more symbols are missing than there are rounds, nothing is left to be added. -/
theorem closeUnder_closed (missing : List Symbol) (hl : missing.length ≤ limit)
    (hm : ∀ other, ∀ s ∈ consequences other, s ∈ known ∨ s ∈ missing) :
    ∀ s ∈ consequences (closeUnder consequences limit known),
      s ∈ closeUnder consequences limit known := by
  induction limit generalizing known missing with
  | zero =>
    intro s hs
    obtain rfl := List.length_eq_zero_iff.1 (Nat.le_zero.1 hl)
    simpa [closeUnder] using hm _ s hs
  | succ limit ih =>
    rw [closeUnder]
    split
    · rename_i he
      exact size_insertMany_eq_iff.1 he
    · rename_i hne
      -- Some consequence is new, so that one symbol fewer is missing in the next round.
      obtain ⟨x, hx, hxk⟩ : ∃ x ∈ consequences known, x ∉ known := by
        rw [size_insertMany_eq_iff] at hne
        simpa using hne
      have hxm : x ∈ missing := (hm known x hx).resolve_left hxk
      apply ih (missing.erase x)
      · rw [List.length_erase_of_mem hxm]
        omega
      · intro other s hs
        rw [mem_insertMany]
        by_cases he : s = x
        · exact .inl (.inr (he ▸ hx))
        · rcases hm other s hs with hk | hk
          · exact .inl (.inl hk)
          · exact .inr ((List.mem_erase_of_ne he).2 hk)

/-- A set with what follows from it, and from what follows from it, and so on. It has nothing that
does not have to be there. -/
structure Closes (consequences : SymbolSet → List Symbol) (known result : SymbolSet) : Prop where
  mem_of_mem : ∀ s ∈ known, s ∈ result
  closed : ∀ s ∈ consequences result, s ∈ result
  induction : ∀ Holds : Symbol → Prop, (∀ s ∈ known, Holds s) →
    (∀ other : SymbolSet, (∀ s ∈ other, Holds s) → ∀ s ∈ consequences other, Holds s) →
    ∀ s ∈ result, Holds s

theorem closes_closeUnder (missing : List Symbol) (hl : missing.length ≤ limit)
    (hm : ∀ other, ∀ s ∈ consequences other, s ∈ missing) :
    Closes consequences known (closeUnder consequences limit known) where
  mem_of_mem _ := mem_closeUnder_of_mem
  closed := closeUnder_closed missing hl fun other s hs => .inr (hm other s hs)
  induction _ := closeUnder_induction

theorem mem_leftsWithAll {productions : List Production} {passes : Symbol → Bool} :
    s ∈ leftsWithAll productions passes ↔
      ∃ p ∈ productions, (∀ t ∈ p.right, passes t = true) ∧ p.left = s := by
  simp [leftsWithAll, and_assoc]

section

variable {productions : List Production} {passes : SymbolSet → Symbol → Bool}

theorem closes_leftsWithAll : Closes (fun known => leftsWithAll productions (passes known)) ∅
    (closeUnder (fun known => leftsWithAll productions (passes known)) productions.length ∅) := by
  apply closes_closeUnder (productions.map (·.left)) (by simp)
  intro other s hs
  obtain ⟨p, hp, _, rfl⟩ := mem_leftsWithAll.1 hs
  exact List.mem_map_of_mem hp

theorem closeUnder_leftsWithAll_induction {Holds : Symbol → Prop}
    (hstep : ∀ known : SymbolSet, (∀ s ∈ known, Holds s) → ∀ p ∈ productions,
      (∀ t ∈ p.right, passes known t = true) → Holds p.left) :
    ∀ s ∈ closeUnder (fun known => leftsWithAll productions (passes known)) productions.length ∅,
      Holds s := by
  apply closes_leftsWithAll.induction
  · simp
  · intro known hk s hs
    obtain ⟨p, hp, hr, rfl⟩ := mem_leftsWithAll.1 hs
    exact hstep known hk p hp hr

theorem left_mem_closeUnder {p : Production} (hp : p ∈ productions)
    (h : ∀ t ∈ p.right, passes
      (closeUnder (fun known => leftsWithAll productions (passes known)) productions.length ∅) t =
        true) :
    p.left ∈ closeUnder (fun known => leftsWithAll productions (passes known))
      productions.length ∅ :=
  closes_leftsWithAll.closed _ (mem_leftsWithAll.2 ⟨p, hp, h, rfl⟩)

end

theorem mem_nonterminalsBelow {productions : List Production} :
    s ∈ nonterminalsBelow productions known ↔
      ∃ p ∈ productions, p.left ∈ known ∧ s ∈ p.right ∧ isNonterminal s = true := by
  simp [nonterminalsBelow, and_assoc]

namespace Grammar

variable {g : Grammar}

theorem yields_of_forall {form : List Symbol} (h : ∀ s ∈ form, ∃ tokens, g.Yields [s] tokens) :
    ∃ tokens, g.Yields form tokens := by
  induction form with
  | nil => exact ⟨[], .nil⟩
  | cons s form ih =>
    rw [List.forall_mem_cons] at h
    obtain ⟨first, hf⟩ := h.1
    obtain ⟨second, hs⟩ := ih h.2
    exact ⟨first ++ second, hf.append hs⟩

theorem yields_of_mem_generating : ∀ s ∈ g.generating, ∃ tokens, g.Yields [s] tokens := by
  apply closeUnder_leftsWithAll_induction
  intro known hk p hp hr
  obtain ⟨tokens, ht⟩ : ∃ tokens, g.Yields p.right tokens := by
    apply yields_of_forall
    intro s hs
    have ha := hr s hs
    rw [Bool.or_eq_true, Std.TreeSet.contains_iff_mem] at ha
    rcases ha with ha | ha
    · exact ⟨[s], .terminal ha .nil⟩
    · exact hk s ha
  exact ⟨tokens, .of_mem hp ht⟩

theorem mem_generating_of_right {p : Production} (hp : p ∈ g.productions)
    (h : ∀ s ∈ p.right, isTerminal s = true ∨ s ∈ g.generating) : p.left ∈ g.generating := by
  apply left_mem_closeUnder hp
  intro s hs
  rw [Bool.or_eq_true, Std.TreeSet.contains_iff_mem]
  exact h s hs

theorem Yields.mem_generating {form : List Symbol} {tokens : List Token}
    (h : g.Yields form tokens) : ∀ s ∈ form, isTerminal s = true ∨ s ∈ g.generating := by
  induction h with
  | nil => simp
  | terminal ha _ ih => exact List.forall_mem_cons.2 ⟨.inl ha, ih⟩
  | expand hp _ _ ihf ihs =>
    exact List.forall_mem_cons.2 ⟨.inr (mem_generating_of_right hp ihf), ihs⟩

/-- The lists that yield something are those of terminals and generating symbols. -/
theorem yields_something_iff {form : List Symbol} :
    (∃ tokens, g.Yields form tokens) ↔ ∀ s ∈ form, isTerminal s = true ∨ s ∈ g.generating := by
  apply Iff.intro
  · rintro ⟨tokens, h⟩
    exact h.mem_generating
  · intro h
    apply yields_of_forall
    intro s hs
    rcases h s hs with ha | hm
    · exact ⟨[s], .terminal ha .nil⟩
    · exact yields_of_mem_generating s hm

theorem yields_nil_of_mem_nullable : ∀ s ∈ g.nullable, g.Yields [s] [] := by
  apply closeUnder_leftsWithAll_induction
  intro known hk p hp hr
  apply Yields.of_mem hp
  generalize p.right = right at hr
  induction right with
  | nil => exact .nil
  | cons s right ih =>
    rw [List.forall_mem_cons, Bool.and_eq_true, Std.TreeSet.contains_iff_mem] at hr
    exact (hk s hr.1.2).append (ih hr.2)

theorem mem_nullable_of_right {p : Production} (hp : p ∈ g.productions)
    (h : ∀ s ∈ p.right, isNonterminal s = true ∧ s ∈ g.nullable) : p.left ∈ g.nullable := by
  apply left_mem_closeUnder hp
  intro s hs
  rw [Bool.and_eq_true, Std.TreeSet.contains_iff_mem]
  exact h s hs

theorem Yields.mem_nullable {form : List Symbol} {tokens : List Token}
    (hl : ∀ p ∈ g.productions, isNonterminal p.left = true) (h : g.Yields form tokens)
    (hn : tokens = []) : ∀ s ∈ form, isNonterminal s = true ∧ s ∈ g.nullable := by
  induction h with
  | nil => simp
  | terminal => simp at hn
  | expand hp _ _ ihf ihs =>
    obtain ⟨hf, hs⟩ := List.append_eq_nil_iff.1 hn
    have hm := mem_nullable_of_right hp (ihf hf)
    exact List.forall_mem_cons.2 ⟨⟨hl _ hp, hm⟩, ihs hs⟩

theorem mem_nullable_iff (hl : ∀ p ∈ g.productions, isNonterminal p.left = true) {s : Symbol} :
    s ∈ g.nullable ↔ g.Yields [s] [] := by
  apply Iff.intro
  · exact yields_nil_of_mem_nullable s
  · intro h
    exact (h.mem_nullable hl rfl s List.mem_cons_self).2

theorem closes_reachable (g : Grammar) (start : Symbol) :
    Closes (nonterminalsBelow g.productions) (.ofList [start]) (g.reachable start) := by
  apply closes_closeUnder (g.productions.flatMap (·.right)) (Nat.le_refl _)
  intro other s hs
  obtain ⟨p, hp, _, hr, _⟩ := mem_nonterminalsBelow.1 hs
  exact List.mem_flatMap.2 ⟨p, hp, hr⟩

theorem mem_reachable_self {s : Symbol} : s ∈ g.reachable s :=
  (closes_reachable g s).mem_of_mem s (mem_ofList.2 List.mem_cons_self)

theorem mem_reachable_of_right {start s : Symbol} {p : Production} (hp : p ∈ g.productions)
    (hl : p.left ∈ g.reachable start) (hs : s ∈ p.right) (ha : isNonterminal s = true) :
    s ∈ g.reachable start :=
  (closes_reachable g start).closed s (mem_nonterminalsBelow.2 ⟨p, hp, hl, hs, ha⟩)

/-- What holds of a symbol, and passes from left sides to the nonterminals of right sides, holds of
all that can be reached. -/
theorem reachable_induction {Holds : Symbol → Prop} {start : Symbol} (hs : Holds start)
    (hp : ∀ p ∈ g.productions, Holds p.left →
      ∀ s ∈ p.right, isNonterminal s = true → Holds s) : ∀ s ∈ g.reachable start, Holds s := by
  apply (closes_reachable g start).induction
  · intro s hm
    rw [mem_ofList, List.mem_singleton] at hm
    exact hm ▸ hs
  · intro known hk s hm
    obtain ⟨p, hpm, hl, hr, ha⟩ := mem_nonterminalsBelow.1 hm
    exact hp p hpm (hk _ hl) s hr ha

end Grammar

end PhraseGrammar
