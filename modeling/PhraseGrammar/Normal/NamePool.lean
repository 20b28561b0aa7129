import PhraseGrammar.Grammar.Basic
import Std.Data.TreeMap

namespace PhraseGrammar

/-- A base name without a number, then with the numbers from one on. -/
def candidate (base : Symbol) : Nat → Symbol
  | 0 => base
  | number + 1 => base ++ (number + 1).repr

/-- The names that new nonterminals must not have, and for each base how many of its candidates are
known to be among them from the first one on. -/
structure NamePool where
  used : SymbolSet
  spent : Std.TreeMap Symbol Nat compare
  mem_of_lt_spent : ∀ base number, number < spent.getD base 0 → candidate base number ∈ used

namespace NamePool

/-- The number of the first unused candidate from `number` on, among `limit` of them and the next
one. -/
def firstUnused (used : SymbolSet) (base : Symbol) : Nat → Nat → Nat
  | 0, number => number
  | limit + 1, number =>
    if used.contains (candidate base number) then firstUnused used base limit (number + 1)
    else number

/-- The candidates that the search passes over are used. -/
theorem mem_of_lt_firstUnused {used : SymbolSet} {base : Symbol} {limit first number : Nat}
    (hf : first ≤ number) (hn : number < firstUnused used base limit first) :
    candidate base number ∈ used := by
  induction limit generalizing first with
  | zero => exact absurd hn (Nat.not_lt_of_le hf)
  | succ limit ih =>
    rw [firstUnused] at hn
    split at hn
    · rename_i hc
      rcases Nat.eq_or_lt_of_le hf with rfl | hlt
      · exact Std.TreeSet.contains_iff_mem.1 hc
      · exact ih hlt hn
    · exact absurd hn (Nat.not_lt_of_le hf)

/-- The number of the first unused candidate of a base. There are more candidates than used names,
so the search ends at one that is free. -/
def freshNumber (pool : NamePool) (base : Symbol) : Nat :=
  firstUnused pool.used base pool.used.size (pool.spent.getD base 0)

theorem mem_of_lt_freshNumber {pool : NamePool} {base : Symbol} {number : Nat}
    (h : number < pool.freshNumber base) : candidate base number ∈ pool.used := by
  rcases Nat.lt_or_ge number (pool.spent.getD base 0) with hs | hs
  · exact pool.mem_of_lt_spent base number hs
  · exact mem_of_lt_firstUnused hs h

/-- A new name, which counts as used from now on. -/
def fresh (pool : NamePool) (base : Symbol) : Symbol × NamePool :=
  let number := pool.freshNumber base
  (candidate base number,
    { used := pool.used.insert (candidate base number)
      spent := pool.spent.insert base (number + 1)
      mem_of_lt_spent := by
        intro other n hn
        rw [Std.TreeSet.mem_insert]
        rw [Std.TreeMap.getD_insert] at hn
        split at hn
        · rename_i he
          cases Std.LawfulEqCmp.eq_of_compare he
          rcases Nat.eq_or_lt_of_le (Nat.le_of_lt_succ hn) with rfl | hlt
          · exact .inl Std.ReflCmp.compare_self
          · exact .inr (mem_of_lt_freshNumber hlt)
        · exact .inr (pool.mem_of_lt_spent other n hn) })

/-- The names in use are the nonterminals on either side of the productions. -/
def ofGrammar (g : Grammar) : NamePool where
  used := .ofList (g.nonterminals ++ g.symbolsUsed.filter isNonterminal)
  spent := ∅
  mem_of_lt_spent := fun _ _ h => by simp at h

/-- One new name for each base, in order. -/
def freshAll : NamePool → List Symbol → List Symbol × NamePool
  | pool, [] => ([], pool)
  | pool, base :: bases =>
    let first := pool.fresh base
    let rest := first.2.freshAll bases
    (first.1 :: rest.1, rest.2)

end NamePool

end PhraseGrammar
