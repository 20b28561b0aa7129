import PhraseGrammar.Grammar.Basic

namespace PhraseGrammar.Grammar

/-- One symbol of a list gives way to the right side of one of its productions. -/
inductive Produces (g : Grammar) : List Symbol → List Symbol → Prop where
  | step {p : Production} (before after : List Symbol) (h : p ∈ g.productions) :
    Produces g (before ++ p.left :: after) (before ++ p.right ++ after)

/-- One list of symbols becomes another in any number of steps. -/
inductive Derives (g : Grammar) : List Symbol → List Symbol → Prop where
  | refl (form : List Symbol) : Derives g form form
  | tail {form middle result : List Symbol} (h : Derives g form middle)
    (step : Produces g middle result) : Derives g form result

/-- A list of tokens is a sentence when it consists of terminals and is derived from the start
symbol. -/
def IsSentence (g : Grammar) (tokens : List Token) : Prop :=
  g.Derives [g.start] tokens ∧ ∀ token ∈ tokens, isTerminal token = true

theorem Produces.within {g : Grammar} {form result : List Symbol} (h : g.Produces form result)
    (before after : List Symbol) :
    g.Produces (before ++ form ++ after) (before ++ result ++ after) := by
  cases h with
  | @step p left right hp =>
    simpa only [List.append_assoc, List.cons_append] using
      Produces.step (before ++ left) (right ++ after) hp

theorem Derives.of_mem {g : Grammar} {p : Production} (h : p ∈ g.productions) :
    g.Derives [p.left] p.right := by
  simpa using (Derives.refl [p.left]).tail (Produces.step [] [] h)

theorem Derives.trans {g : Grammar} {form middle result : List Symbol}
    (h : g.Derives form middle) (h' : g.Derives middle result) : g.Derives form result := by
  induction h' with
  | refl => exact h
  | tail _ step ih => exact ih.tail step

theorem Derives.within {g : Grammar} {form result : List Symbol} (h : g.Derives form result)
    (before after : List Symbol) :
    g.Derives (before ++ form ++ after) (before ++ result ++ after) := by
  induction h with
  | refl => exact .refl _
  | tail _ step ih => exact ih.tail (step.within before after)

theorem Derives.append {g : Grammar} {form form' result result' : List Symbol}
    (h : g.Derives form result) (h' : g.Derives form' result') :
    g.Derives (form ++ form') (result ++ result') := by
  have first : g.Derives (form ++ form') (result ++ form') := by
    simpa using h.within [] form'
  have second : g.Derives (result ++ form') (result ++ result') := by
    simpa using h'.within result []
  exact first.trans second

end PhraseGrammar.Grammar
