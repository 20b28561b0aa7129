namespace PhraseGrammar

variable {α : Type} [DecidableEq α] [LT α] [DecidableLT α]

/-- Puts an element at its place in an increasing list, unless the list has it already, and leaves
what comes after that place to `merge`. -/
def insertThen (merge : List α → List α) (x : α) : List α → List α
  | [] => x :: merge []
  | y :: rest =>
    if x < y then x :: merge (y :: rest)
    else if x = y then x :: merge rest
    else y :: insertThen merge x rest

/-- The elements of two increasing lists in one. -/
def mergeAscending : List α → List α → List α
  | [] => id
  | x :: rest => insertThen (mergeAscending rest) x

/-- The elements of all of some increasing lists in one. -/
def mergeAll (lists : List (List α)) : List α :=
  lists.foldr mergeAscending []

/-- If `merge` adds the elements with a property, the whole adds these and the element. -/
theorem mem_insertThen {merge : List α → List α} {x z : α} {Added : Prop}
    (h : ∀ elements, z ∈ merge elements ↔ Added ∨ z ∈ elements) (elements : List α) :
    z ∈ insertThen merge x elements ↔ z = x ∨ Added ∨ z ∈ elements := by
  induction elements with
  | nil => rw [insertThen, List.mem_cons, h]
  | cons y rest ih =>
    rw [insertThen]
    split
    · rw [List.mem_cons, h]
    · split
      · rename_i he
        rw [List.mem_cons, h, List.mem_cons, ← he]
        grind
      · rw [List.mem_cons, ih, List.mem_cons]
        grind

theorem mem_mergeAscending {z : α} {left right : List α} :
    z ∈ mergeAscending left right ↔ z ∈ left ∨ z ∈ right := by
  induction left generalizing right with
  | nil => simp [mergeAscending]
  | cons x rest ih =>
    rw [mergeAscending, mem_insertThen (fun _ => ih), List.mem_cons, or_assoc]

theorem mem_mergeAll {z : α} {lists : List (List α)} :
    z ∈ mergeAll lists ↔ ∃ list ∈ lists, z ∈ list := by
  induction lists with
  | nil => simp [mergeAll]
  | cons first rest ih =>
    rw [mergeAll, List.foldr_cons, mem_mergeAscending]
    simp only [List.mem_cons, or_and_right, exists_or, exists_eq_left]
    exact or_congr_right ih

end PhraseGrammar
