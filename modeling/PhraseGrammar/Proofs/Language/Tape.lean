import Mathlib.Tactic.Use
import PhraseGrammar.Language.Tape

namespace PhraseGrammar.Tape

variable {α : Type} {x : α} {options : List α} {count index drawn : Nat}
  {word : UInt32} {pending : List UInt32} {source : WordSource} {tape rest : Tape}

theorem share_lt (h : 0 < count) : share count word < count := by
  have hw : word.toNat < UInt32.size := word.toNat_lt
  rw [share, Nat.div_lt_iff_lt_mul (by decide), Nat.mul_comm count]
  exact Nat.mul_lt_mul_of_pos_right hw h

theorem pickFrom_lt (h : 0 < count) : (pickFrom count source pending drawn).1 < count := by
  induction pending generalizing drawn with
  | nil => exact share_lt h
  | cons word pending ih =>
    rw [pickFrom]
    split
    · exact share_lt h
    · exact ih

theorem index_lt_of_pickFrom (h : options ≠ [])
    (hp : pickFrom options.length source pending drawn = (index, rest)) :
    index < options.length := by
  have hlt : (pickFrom options.length source pending drawn).1 < options.length :=
    pickFrom_lt (List.length_pos_iff.2 h)
  rwa [hp] at hlt

theorem drawn_le_pickFrom : drawn ≤ (pickFrom count source pending drawn).2.drawn := by
  induction pending generalizing drawn with
  | nil => exact Nat.le_succ drawn
  | cons word pending ih =>
    rw [pickFrom]
    split
    · exact Nat.le_succ drawn
    · exact Nat.le_of_succ_le ih

/-- The words that are drawn for a pick do not depend on what follows them, or they are more than
the pending ones. -/
theorem pickFrom_cases (count : Nat) (words : List UInt32) :
    (∃ first rest index, words = first ++ rest ∧ ∀ more source drawn,
      pickFrom count source (first ++ more) drawn =
        (index, ⟨more, source, drawn + first.length⟩)) ∨
    ∀ source drawn, drawn + words.length < (pickFrom count source words drawn).2.drawn := by
  induction words with
  | nil => exact .inr fun _ drawn => Nat.lt_succ_self drawn
  | cons word words ih =>
    by_cases hw : word.toNat * count % UInt32.size ≤ zone count
    · exact .inl ⟨[word], words, share count word, rfl, fun _ _ _ => if_pos hw⟩
    · rcases ih with ⟨first, rest, index, rfl, hp⟩ | hp
      · left
        refine ⟨word :: first, rest, index, rfl, ?_⟩
        intro more source drawn
        rw [List.cons_append, pickFrom, if_neg hw, hp, List.length_cons, Nat.add_assoc,
          Nat.add_comm 1]
      · right
        intro source drawn
        have hlt := hp source (drawn + 1)
        rw [pickFrom, if_neg hw, List.length_cons]
        omega

theorem choose?_eq_some (h : index < options.length)
    (hp : pickFrom options.length tape.source tape.pending tape.drawn = (index, rest)) :
    choose? options tape = some (options[index], rest) := by
  have he : options.isEmpty = false :=
    List.isEmpty_eq_false_iff.2 (List.ne_nil_of_length_pos (Nat.zero_lt_of_lt h))
  rw [choose?, he, hp]
  simp only [Bool.false_eq_true, if_false, List.getElem?_eq_getElem h, Option.map_some]

theorem exists_mem_choose? (tape : Tape) (h : options ≠ []) :
    ∃ x ∈ options, ∃ rest, choose? options tape = some (x, rest) := by
  rcases hp : pickFrom options.length tape.source tape.pending tape.drawn with ⟨index, rest⟩
  have hi := index_lt_of_pickFrom h hp
  exact ⟨_, List.getElem_mem hi, rest, choose?_eq_some hi hp⟩

theorem drawn_le_of_choose? (h : choose? options tape = some (x, rest)) :
    tape.drawn ≤ rest.drawn := by
  rw [choose?] at h
  split at h
  · cases h
  · obtain ⟨_, _, he⟩ := Option.map_eq_some_iff.1 h
    cases he
    exact drawn_le_pickFrom

theorem choose?_cases (h : options ≠ []) (words : List UInt32) :
    (∃ first rest x, words = first ++ rest ∧ ∀ more source drawn,
      choose? options ⟨first ++ more, source, drawn⟩ =
        some (x, ⟨more, source, drawn + first.length⟩)) ∨
    ∀ source drawn, ∃ x rest, choose? options ⟨words, source, drawn⟩ = some (x, rest) ∧
      drawn + words.length < rest.drawn := by
  rcases pickFrom_cases options.length words with ⟨first, rest, index, rfl, hp⟩ | hp
  · have hi := index_lt_of_pickFrom h (hp [] .zeros 0)
    exact .inl ⟨first, rest, options[index], rfl, fun more source drawn =>
      choose?_eq_some hi (hp more source drawn)⟩
  · right
    intro source drawn
    have hlt := hp source drawn
    rcases he : pickFrom options.length source words drawn with ⟨index, rest⟩
    rw [he] at hlt
    exact ⟨_, rest, choose?_eq_some (index_lt_of_pickFrom h he) he, hlt⟩

theorem le_zone : count - 1 ≤ zone count := by
  rw [zone, Nat.shiftLeft_eq]
  exact Nat.sub_le_sub_right (Nat.le_mul_of_pos_right count (Nat.two_pow_pos _)) 1

/-- Each choice has a word that stands for it and is taken: the first whose product reaches into the
part of the choice. -/
theorem exists_word (h : index < count) (hc : count ≤ UInt32.size) :
    ∃ word : UInt32, share count word = index ∧
      word.toNat * count % UInt32.size ≤ zone count := by
  have hp : 0 < count := Nat.zero_lt_of_lt h
  obtain ⟨value, low, hv, hl⟩ : ∃ value low, value * count = index * UInt32.size + low ∧
      low ≤ count - 1 := by
    have hd := Nat.div_add_mod (index * UInt32.size + (count - 1)) count
    have hm := Nat.mod_lt (index * UInt32.size + (count - 1)) hp
    rw [Nat.mul_comm] at hd
    exact ⟨(index * UInt32.size + (count - 1)) / count,
      count - 1 - (index * UInt32.size + (count - 1)) % count, by omega, by omega⟩
  have hs : value < UInt32.size := by
    apply Nat.lt_of_mul_lt_mul_right (a := count)
    calc value * count = index * UInt32.size + low := hv
      _ < index * UInt32.size + UInt32.size := by omega
      _ = (index + 1) * UInt32.size := (Nat.succ_mul _ _).symm
      _ ≤ count * UInt32.size := Nat.mul_le_mul_right _ h
      _ = UInt32.size * count := Nat.mul_comm _ _
  have hlow : low < UInt32.size := by omega
  have hshare : share count (.ofNatLT value hs) = index := by
    rw [share, UInt32.toNat_ofNatLT, hv, Nat.mul_comm, Nat.mul_add_div (by decide),
      Nat.div_eq_of_lt hlow, Nat.add_zero]
  have hzone : (UInt32.ofNatLT value hs).toNat * count % UInt32.size ≤ zone count := by
    rw [UInt32.toNat_ofNatLT, hv, Nat.mul_add_mod', Nat.mod_eq_of_lt hlow]
    exact Nat.le_trans hl le_zone
  exact ⟨_, hshare, hzone⟩

theorem exists_choose?_eq (h : x ∈ options) (hl : options.length ≤ UInt32.size) :
    ∃ word, ∀ pending source drawn, choose? options ⟨word :: pending, source, drawn⟩ =
      some (x, ⟨pending, source, drawn + 1⟩) := by
  obtain ⟨index, hi, rfl⟩ := List.getElem_of_mem h
  obtain ⟨word, hs, hz⟩ := exists_word hi hl
  use word
  intro pending source drawn
  have hp : pickFrom options.length source (word :: pending) drawn =
      (index, ⟨pending, source, drawn + 1⟩) := by rw [pickFrom, if_pos hz, hs]
  exact choose?_eq_some hi hp

end PhraseGrammar.Tape
