import PhraseGrammar.Grammar.WellFormed
import PhraseGrammar.Language.Derivation

namespace PhraseGrammar.Grammar

/-- A list of symbols becomes a list of tokens, each symbol on its own: a terminal stands for
itself, and the left side of a production for what its right side becomes. -/
inductive Yields (g : Grammar) : List Symbol → List Token → Prop where
  | nil : Yields g [] []
  | terminal {a : Symbol} {rest : List Symbol} {tokens : List Token} (ha : isTerminal a = true)
    (h : Yields g rest tokens) : Yields g (a :: rest) (a :: tokens)
  | expand {p : Production} {rest : List Symbol} {first second : List Token}
    (hp : p ∈ g.productions) (hf : Yields g p.right first) (hs : Yields g rest second) :
    Yields g (p.left :: rest) (first ++ second)

variable {g g' : Grammar} {form form' rest : List Symbol} {tokens tokens' : List Token}

theorem Yields.of_mem {p : Production} (hp : p ∈ g.productions) (h : g.Yields p.right tokens) :
    g.Yields [p.left] tokens := by
  simpa using Yields.expand hp h .nil

theorem Yields.append (h : g.Yields form tokens) (h' : g.Yields form' tokens') :
    g.Yields (form ++ form') (tokens ++ tokens') := by
  induction h with
  | nil => exact h'
  | terminal ha _ ih => exact .terminal ha ih
  | expand hp hf _ _ ih =>
    rw [List.append_assoc]
    exact .expand hp hf ih

theorem Yields.split {whole : List Symbol} (h : g.Yields whole tokens)
    (hw : whole = form ++ form') :
    ∃ first second, tokens = first ++ second ∧ g.Yields form first ∧ g.Yields form' second := by
  induction h generalizing form with
  | nil =>
    obtain ⟨rfl, rfl⟩ := List.append_eq_nil_iff.1 hw.symm
    exact ⟨[], [], rfl, .nil, .nil⟩
  | @terminal a rest tokens ha h ih =>
    cases form with
    | nil =>
      obtain rfl : a :: rest = form' := hw
      exact ⟨[], a :: tokens, rfl, .nil, .terminal ha h⟩
    | cons s form =>
      obtain ⟨rfl, hr⟩ := List.cons.inj hw
      obtain ⟨first, second, rfl, hf, hs⟩ := ih hr
      exact ⟨a :: first, second, rfl, .terminal ha hf, hs⟩
  | @expand p rest first second hp hf hs _ ih =>
    cases form with
    | nil =>
      obtain rfl : p.left :: rest = form' := hw
      exact ⟨[], first ++ second, rfl, .nil, .expand hp hf hs⟩
    | cons s form =>
      obtain ⟨rfl, hr⟩ := List.cons.inj hw
      obtain ⟨u, v, rfl, hu, hv⟩ := ih hr
      exact ⟨first ++ u, v, (List.append_assoc _ _ _).symm, .expand hp hf hu, hv⟩

theorem yields_append_iff : g.Yields (form ++ form') tokens ↔
    ∃ first second, tokens = first ++ second ∧ g.Yields form first ∧ g.Yields form' second := by
  apply Iff.intro
  · intro h
    exact h.split rfl
  · rintro ⟨first, second, rfl, hf, hs⟩
    exact hf.append hs

theorem yields_cons_iff {s : Symbol} : g.Yields (s :: rest) tokens ↔
    ∃ first second, tokens = first ++ second ∧ g.Yields [s] first ∧ g.Yields rest second :=
  @yields_append_iff g [s] rest tokens

theorem yields_nil_iff : g.Yields [] tokens ↔ tokens = [] := by
  apply Iff.intro
  · intro h
    cases h
    rfl
  · rintro rfl
    exact .nil

theorem yields_singleton_iff {s : Symbol} : g.Yields [s] tokens ↔
    isTerminal s = true ∧ tokens = [s] ∨
      ∃ p ∈ g.productions, p.left = s ∧ g.Yields p.right tokens := by
  apply Iff.intro
  · intro h
    cases h with
    | terminal ha h => exact .inl ⟨ha, by rw [yields_nil_iff.1 h]⟩
    | @expand p _ _ _ hp hf hs =>
      rw [yields_nil_iff.1 hs, List.append_nil]
      exact .inr ⟨p, hp, rfl, hf⟩
  · rintro (⟨ha, rfl⟩ | ⟨p, hp, rfl, h⟩)
    · exact .terminal ha .nil
    · exact .of_mem hp h

theorem yields_nonterminal_iff {a : Symbol} (ha : isNonterminal a = true) :
    g.Yields [a] tokens ↔ ∃ p ∈ g.productions, p.left = a ∧ g.Yields p.right tokens := by
  rw [yields_singleton_iff, isTerminal, ha]
  simp

theorem yields_self (h : ∀ token ∈ tokens, isTerminal token = true) : g.Yields tokens tokens := by
  induction tokens with
  | nil => exact .nil
  | cons a tokens ih =>
    rw [List.forall_mem_cons] at h
    exact .terminal h.1 (ih h.2)

theorem Yields.isTerminal_of_mem (h : g.Yields form tokens) :
    ∀ token ∈ tokens, isTerminal token = true := by
  induction h with
  | nil => simp
  | terminal ha _ ih => exact List.forall_mem_cons.2 ⟨ha, ih⟩
  | expand _ _ _ ihf ihs => exact List.forall_mem_append.2 ⟨ihf, ihs⟩

theorem Yields.mem_right {a : Symbol} (h : g.Yields form tokens) (ha : a ∈ tokens) :
    a ∈ form ∨ ∃ p ∈ g.productions, a ∈ p.right := by
  induction h with
  | nil => cases ha
  | terminal _ _ ih =>
    rcases List.mem_cons.1 ha with rfl | ha
    · exact .inl List.mem_cons_self
    · exact (ih ha).imp_left (List.mem_cons_of_mem _)
  | @expand p _ _ _ hp _ _ ihf ihs =>
    rcases List.mem_append.1 ha with ha | ha
    · exact .inr ((ihf ha).elim (fun hr => ⟨p, hp, hr⟩) id)
    · exact (ihs ha).imp_left (List.mem_cons_of_mem _)

/-- Terminals stay where they are, since no left side is one. -/
theorem Yields.mem_of_isTerminal {a : Symbol} (hw : g.WellFormed) (h : g.Yields form tokens)
    (ha : isTerminal a = true) (hm : a ∈ form) : a ∈ tokens := by
  induction h with
  | nil => cases hm
  | terminal _ _ ih =>
    rcases List.mem_cons.1 hm with rfl | hm
    · exact List.mem_cons_self
    · exact List.mem_cons_of_mem _ (ih hm)
  | expand hp _ _ _ ih =>
    rcases List.mem_cons.1 hm with rfl | hm
    · rw [isTerminal, hw.left _ hp] at ha
      cases ha
    · exact List.mem_append_right _ (ih hm)

theorem Yields.derives (h : g.Yields form tokens) : g.Derives form tokens := by
  induction h with
  | nil => exact .refl []
  | @terminal a _ _ _ _ ih => exact (Derives.refl [a]).append ih
  | expand hp _ _ ihf ihs => exact ((Derives.of_mem hp).trans ihf).append ihs

theorem Yields.of_produces (h : g.Produces form form') (hy : g.Yields form' tokens) :
    g.Yields form tokens := by
  cases h with
  | step before after hp =>
    rw [List.append_assoc] at hy
    obtain ⟨u, v, rfl, hu, hv⟩ := hy.split rfl
    obtain ⟨first, second, rfl, hf, hs⟩ := hv.split rfl
    exact hu.append (.expand hp hf hs)

theorem Yields.of_derives (h : g.Derives form form') (hy : g.Yields form' tokens) :
    g.Yields form tokens := by
  induction h with
  | refl => exact hy
  | tail _ step ih => exact ih (.of_produces step hy)

/-- Derivations of terminals can be taken apart symbol by symbol. -/
theorem yields_iff : g.Yields form tokens ↔
    g.Derives form tokens ∧ ∀ token ∈ tokens, isTerminal token = true := by
  apply Iff.intro
  · intro h
    exact ⟨h.derives, h.isTerminal_of_mem⟩
  · rintro ⟨h, ht⟩
    exact .of_derives h (yields_self ht)

theorem yields_iff_derives (ht : ∀ token ∈ tokens, isTerminal token = true) :
    g.Yields form tokens ↔ g.Derives form tokens := by
  rw [yields_iff, and_iff_left ht]

theorem isSentence_iff_yields : g.IsSentence tokens ↔ g.Yields [g.start] tokens :=
  yields_iff.symm

/-- The productions of one grammar can be read in another, where each symbol stands for a list of
symbols. -/
theorem Yields.translate (meaning : Symbol → List Symbol)
    (ht : ∀ a, isTerminal a = true → meaning a = [a])
    (hp : ∀ p ∈ g.productions, ∀ tokens, g'.Yields (p.right.flatMap meaning) tokens →
      g'.Yields (meaning p.left) tokens)
    (h : g.Yields form tokens) : g'.Yields (form.flatMap meaning) tokens := by
  induction h with
  | nil => exact .nil
  | terminal ha _ ih =>
    rw [List.flatMap_cons, ht _ ha]
    exact .terminal ha ih
  | expand hm _ _ ihf ihs =>
    rw [List.flatMap_cons]
    exact (hp _ hm _ ihf).append ihs

/-- Another grammar yields the same if it can do what each production does. -/
theorem Yields.simulate
    (hp : ∀ p ∈ g.productions, ∀ tokens, g'.Yields p.right tokens → g'.Yields [p.left] tokens)
    (h : g.Yields form tokens) : g'.Yields form tokens := by
  induction h with
  | nil => exact .nil
  | terminal ha _ ih => exact .terminal ha ih
  | expand hm _ _ ihf ihs => exact (hp _ hm _ ihf).append ihs

theorem Yields.mono (hp : ∀ p ∈ g.productions, p ∈ g'.productions)
    (h : g.Yields form tokens) : g'.Yields form tokens :=
  h.simulate fun p hm _ hy => .of_mem (hp p hm) hy

end PhraseGrammar.Grammar
