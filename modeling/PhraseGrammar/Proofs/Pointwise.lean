import Mathlib.Data.List.Forall2

namespace PhraseGrammar

variable {α β ε : Type} {f : α → Except ε β} {xs : List α} {ys : List β} {cause : ε}

theorem exists_mem_of_forall₂ {R : α → β → Prop} (h : List.Forall₂ R xs ys) :
    (∀ x ∈ xs, ∃ y ∈ ys, R x y) ∧ ∀ y ∈ ys, ∃ x ∈ xs, R x y := by
  induction h with
  | nil => simp
  | cons hr _ ih =>
    simp only [List.forall_mem_cons, List.exists_mem_cons_iff]
    exact ⟨⟨.inl hr, fun x hx => .inr (ih.1 x hx)⟩, .inl hr, fun y hy => .inr (ih.2 y hy)⟩

/-- A function that takes each element of the second list back to its counterpart takes the list
back to the first. -/
theorem map_eq_of_forall₂ {R : α → β → Prop} {back : β → α} (h : List.Forall₂ R xs ys)
    (hb : ∀ x ∈ xs, ∀ y, R x y → back y = x) : ys.map back = xs := by
  induction h with
  | nil => rfl
  | cons hr _ ih =>
    rw [List.forall_mem_cons] at hb
    rw [List.map_cons, hb.1 _ hr, ih hb.2]

theorem eq_ok_of_toOption {result : Except ε α} {x : α} (h : result.toOption = some x) :
    result = .ok x := by
  cases result with
  | error cause => cases h
  | ok y =>
    cases h
    rfl

theorem map_eq_error_iff {γ : Type} {made : β → γ} {result : Except ε β} :
    result.map made = .error cause ↔ result = .error cause := by
  cases result <;> simp [Except.map]

theorem map_eq_ok_iff {γ : Type} {made : β → γ} {result : Except ε β} {z : γ} :
    result.map made = .ok z ↔ ∃ y, result = .ok y ∧ made y = z := by
  cases result <;> simp [Except.map]

theorem mapM_eq_ok_iff :
    xs.mapM f = .ok ys ↔ List.Forall₂ (fun x y => f x = .ok y) xs ys := by
  induction xs generalizing ys with
  | nil =>
    rw [List.mapM_nil, List.forall₂_nil_left_iff]
    simp [pure, Except.pure, eq_comm]
  | cons x xs ih =>
    rw [List.mapM_cons, List.forall₂_cons_left_iff]
    simp only [← ih]
    cases hx : f x with
    | error => simp [bind, Except.bind]
    | ok y =>
      cases hxs : xs.mapM f with
      | error => simp [bind, Except.bind]
      | ok ys' => simp [bind, Except.bind, pure, Except.pure, eq_comm]

theorem mapM_cons_eq_error_iff {x : α} : (x :: xs).mapM f = .error cause ↔
    f x = .error cause ∨ (∃ y, f x = .ok y) ∧ xs.mapM f = .error cause := by
  rw [List.mapM_cons]
  cases hx : f x with
  | error other => simp [bind, Except.bind]
  | ok y =>
    cases hxs : xs.mapM f <;> simp [bind, Except.bind, pure, Except.pure]

/-- The first failure is told. -/
theorem mapM_eq_error_iff : xs.mapM f = .error cause ↔ ∃ before x after,
    xs = before ++ x :: after ∧ (∀ y ∈ before, ∃ z, f y = .ok z) ∧ f x = .error cause := by
  induction xs with
  | nil => simp [pure, Except.pure]
  | cons x xs ih =>
    rw [mapM_cons_eq_error_iff, ih]
    apply Iff.intro
    · rintro (hx | ⟨hx, before, y, after, rfl, hb, hy⟩)
      · exact ⟨[], x, xs, rfl, List.forall_mem_nil _, hx⟩
      · exact ⟨x :: before, y, after, rfl, List.forall_mem_cons.2 ⟨hx, hb⟩, hy⟩
    · rintro ⟨_ | ⟨z, before⟩, y, after, he, hb, hy⟩
      · cases he
        exact .inl hy
      · cases he
        obtain ⟨hx, hb⟩ := List.forall_mem_cons.1 hb
        exact .inr ⟨hx, before, y, after, rfl, hb, hy⟩

end PhraseGrammar
