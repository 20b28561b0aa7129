import PhraseGrammar.Proofs.Normal.Epsilon
import PhraseGrammar.Proofs.Normal.FreshName

namespace PhraseGrammar

/-- What a symbol stands for, when some names are short for lists of symbols. -/
def expansion (entries : List (Symbol × List Symbol)) (s : Symbol) : List Symbol :=
  (entries.lookup s).getD [s]

variable {entries : List (Symbol × List Symbol)} {s : Symbol} {form : List Symbol}

theorem expansion_of_not_mem (h : s ∉ entries.map (·.1)) : expansion entries s = [s] := by
  have hn : entries.lookup s = none := by
    rw [List.lookup_eq_none_iff]
    intro entry hm
    have hne : s ≠ entry.1 := fun he => h (he ▸ List.mem_map_of_mem hm)
    simpa using hne
  rw [expansion, hn]
  rfl

theorem expansion_of_mem (hn : (entries.map (·.1)).Nodup) (h : (s, form) ∈ entries) :
    expansion entries s = form := by
  induction entries with
  | nil => cases h
  | cons entry entries ih =>
    rw [List.map_cons, List.nodup_cons] at hn
    rw [expansion, List.lookup_cons]
    rcases List.mem_cons.1 h with he | hm
    · rw [← he]
      simp
    · have hne : s ≠ entry.1 := fun he => hn.1 (he ▸ List.mem_map_of_mem hm)
      rw [beq_eq_false_iff_ne.2 hne]
      exact ih hn.2 hm

theorem expansion_mem_or (s : Symbol) :
    (s, expansion entries s) ∈ entries ∨ expansion entries s = [s] := by
  cases h : entries.lookup s with
  | none =>
    right
    rw [expansion, h]
    rfl
  | some list =>
    obtain ⟨before, after, rfl, _⟩ := List.lookup_eq_some_iff.1 h
    left
    rw [expansion, h]
    simp

theorem flatMap_expansion_of_not_mem (h : ∀ s ∈ form, s ∉ entries.map (·.1)) :
    form.flatMap (expansion entries) = form := by
  induction form with
  | nil => rfl
  | cons s form ih =>
    rw [List.forall_mem_cons] at h
    rw [List.flatMap_cons, expansion_of_not_mem h.1, ih h.2]
    rfl

namespace Grammar

variable {g g' : Grammar} {tokens : List Token}

theorem AreNew.start_not_mem {names : List Symbol} {p : Production} (h : g.AreNew names)
    (hr : g.IsRooted) (hp : p ∈ g.productions) : g.start ∉ names := by
  obtain ⟨q, hq, hl⟩ := hr p hp
  rw [← hl]
  exact h.left_not_mem hq

/-- The second grammar has names for lists of symbols. Each of its productions either says what a
name stands for, or can be read as a production of the first grammar. -/
structure Extends (g : Grammar) (entries : List (Symbol × List Symbol)) (g' : Grammar) :
    Prop where
  areNew : g.AreNew (entries.map (·.1))
  ne_nil : ∀ entry ∈ entries, entry.2 ≠ []
  reads : ∀ q ∈ g'.productions, q.right.flatMap (expansion entries) = expansion entries q.left ∨
    ∃ p ∈ g.productions, expansion entries q.left = [p.left] ∧
      q.right.flatMap (expansion entries) = p.right
  simulates : ∀ p ∈ g.solid.productions, ∀ tokens, g'.solid.Yields p.right tokens →
    g'.solid.Yields [p.left] tokens

theorem Extends.expansion_ne_nil (h : g.Extends entries g') (s : Symbol) :
    expansion entries s ≠ [] := by
  rcases expansion_mem_or s with hm | he
  · exact h.ne_nil _ hm
  · rw [he]
    exact List.cons_ne_nil _ _

theorem Extends.expansion_of_isTerminal (h : g.Extends entries g') {a : Symbol}
    (ha : isTerminal a = true) : expansion entries a = [a] := by
  apply expansion_of_not_mem
  intro hm
  rw [isTerminal, (h.areNew a hm).1] at ha
  cases ha

theorem Extends.yields_expansion (h : g.Extends entries g') (hy : g'.solid.Yields form tokens) :
    g.solid.Yields (form.flatMap (expansion entries)) tokens := by
  apply hy.translate _ fun a ha => h.expansion_of_isTerminal ha
  intro q hq tokens hr
  obtain ⟨hm, hne⟩ := mem_solid.1 hq
  rcases h.reads q hm with he | ⟨p, hp, hl, he⟩
  · exact he ▸ hr
  · have hs : p ∈ g.solid.productions := by
      apply mem_solid.2 ⟨hp, ?_⟩
      intro hn
      rw [hn, List.flatMap_eq_nil_iff] at he
      obtain ⟨s, hs⟩ := List.exists_mem_of_ne_nil _ hne
      exact h.expansion_ne_nil s (he s hs)
    rw [he] at hr
    rw [hl]
    exact .of_mem hs hr

theorem Extends.yields_solid_iff (h : g.Extends entries g') (hs : s ∉ entries.map (·.1)) :
    g'.solid.Yields [s] tokens ↔ g.solid.Yields [s] tokens := by
  apply Iff.intro
  · intro hy
    have he := h.yields_expansion hy
    rwa [List.flatMap_singleton, expansion_of_not_mem hs] at he
  · exact Yields.simulate h.simulates

end Grammar

end PhraseGrammar
