import PhraseGrammar.Normal.NamePool
import PhraseGrammar.Proofs.Grammar.Symbols

namespace PhraseGrammar

variable {base : Symbol} {number : Nat}

theorem repr_injective {m n : Nat} (h : m.repr = n.repr) : m = n := by
  have hd := congrArg (fun s => Nat.ofDigitChars 10 s.toList 0) h
  simpa only [Nat.toList_repr, Nat.ofDigitChars_toDigits (by decide : 1 < 10) (Nat.le_refl 10)]
    using hd

theorem candidate_injective {m n : Nat} (h : candidate base m = candidate base n) : m = n := by
  have hc := congrArg String.toList h
  match m, n with
  | 0, 0 => rfl
  | 0, n + 1 =>
    simp only [candidate, String.toList_append] at hc
    exact absurd (List.append_right_eq_self.1 hc.symm) (by simp)
  | m + 1, 0 =>
    simp only [candidate, String.toList_append] at hc
    exact absurd (List.append_right_eq_self.1 hc) (by simp)
  | m + 1, n + 1 =>
    simp only [candidate, String.toList_append] at hc
    exact repr_injective (String.ext (List.append_cancel_left hc))

theorem isNonterminal_append {s : Symbol} (hs : isNonterminal s = true) (t : String) :
    isNonterminal (s ++ t) = true := by
  rw [isNonterminal] at hs
  split at hs
  · cases hs
  · rename_i c rest he
    rw [isNonterminal, String.toList_append, he]
    exact hs

theorem isNonterminal_candidate (hb : isNonterminal base = true) :
    isNonterminal (candidate base number) = true := by
  cases number with
  | zero => exact hb
  | succ number => exact isNonterminal_append hb _

theorem le_size_of_candidates {used : SymbolSet} {count : Nat}
    (h : ∀ n < count, candidate base n ∈ used) : count ≤ used.size := by
  have hn : ((List.range count).map (candidate base)).Nodup := by
    rw [List.Nodup, List.pairwise_map]
    exact List.nodup_range.imp fun hne he => hne (candidate_injective he)
  have hs : (List.range count).map (candidate base) ⊆ used.toList := by
    intro name hm
    obtain ⟨n, hr, rfl⟩ := List.mem_map.1 hm
    exact Std.TreeSet.mem_toList.2 (h n (List.mem_range.1 hr))
  have hle := hn.length_le_of_subset hs
  rwa [List.length_map, List.length_range, Std.TreeSet.length_toList] at hle

namespace NamePool

variable {pool middle rest : NamePool} {names names' : List Symbol}

theorem firstUnused_of_mem {used : SymbolSet} {limit first : Nat}
    (h : candidate base (firstUnused used base limit first) ∈ used) :
    firstUnused used base limit first = first + limit := by
  induction limit generalizing first with
  | zero => rfl
  | succ limit ih =>
    rw [firstUnused] at h ⊢
    split
    · rename_i hc
      rw [if_pos hc] at h
      rw [ih h]
      omega
    · rename_i hc
      rw [if_neg hc, ← Std.TreeSet.contains_iff_mem] at h
      exact absurd h hc

theorem candidate_freshNumber_not_mem (pool : NamePool) (base : Symbol) :
    candidate base (pool.freshNumber base) ∉ pool.used := by
  intro h
  have he : pool.freshNumber base = pool.spent.getD base 0 + pool.used.size := firstUnused_of_mem h
  have hle : pool.freshNumber base + 1 ≤ pool.used.size := by
    apply le_size_of_candidates
    intro n hn
    rcases Nat.eq_or_lt_of_le (Nat.le_of_lt_succ hn) with rfl | hlt
    · exact h
    · exact mem_of_lt_freshNumber hlt
  omega

/-- The names are new to a pool and differ from one another, and the pool that remains knows them
besides the names of the first one. -/
structure Allocates (pool : NamePool) (names : List Symbol) (rest : NamePool) : Prop where
  nodup : names.Nodup
  unused : ∀ name ∈ names, name ∉ pool.used
  mem_used_iff : ∀ s, s ∈ rest.used ↔ s ∈ pool.used ∨ s ∈ names

theorem allocates_nil (pool : NamePool) : pool.Allocates [] pool where
  nodup := .nil
  unused _ h := absurd h List.not_mem_nil
  mem_used_iff _ := by simp

theorem allocates_fresh (pool : NamePool) (base : Symbol) :
    pool.Allocates [(pool.fresh base).1] (pool.fresh base).2 where
  nodup := List.pairwise_singleton _ _
  unused name h := by
    rw [List.mem_singleton.1 h]
    exact candidate_freshNumber_not_mem pool base
  mem_used_iff s := by
    rw [List.mem_singleton]
    change s ∈ pool.used.insert _ ↔ _
    rw [Std.TreeSet.mem_insert, Std.LawfulEqCmp.compare_eq_iff_eq, or_comm, eq_comm]
    rfl

theorem Allocates.append (h : pool.Allocates names middle) (h' : middle.Allocates names' rest) :
    pool.Allocates (names ++ names') rest where
  nodup := by
    apply List.nodup_append.2 ⟨h.nodup, h'.nodup, ?_⟩
    intro s hs t ht he
    exact h'.unused t ht ((h.mem_used_iff t).2 (.inr (he ▸ hs)))
  unused name hm := by
    rcases List.mem_append.1 hm with hn | hn
    · exact h.unused name hn
    · intro hu
      exact h'.unused name hn ((h.mem_used_iff name).2 (.inl hu))
  mem_used_iff s := by
    rw [h'.mem_used_iff, h.mem_used_iff, List.mem_append, or_assoc]

theorem mem_used_ofGrammar_iff {g : Grammar} {s : Symbol} : s ∈ (ofGrammar g).used ↔
    (∃ p ∈ g.productions, p.left = s) ∨
      isNonterminal s = true ∧ ∃ p ∈ g.productions, s ∈ p.right := by
  rw [ofGrammar, mem_ofList, List.mem_append, Grammar.mem_nonterminals_iff, List.mem_filter,
    Grammar.mem_symbolsUsed_iff, and_comm]

end NamePool

namespace Grammar

variable {g : Grammar} {names : List Symbol} {p : Production} {s : Symbol}

/-- A nonterminal occurs on some side of a production. -/
def Mentions (g : Grammar) (s : Symbol) : Prop :=
  isNonterminal s = true ∧ ∃ p ∈ g.productions, s ∈ p.symbols

theorem mem_symbols_iff : s ∈ p.symbols ↔ s = p.left ∨ s ∈ p.right :=
  List.mem_cons

theorem Mentions.mem_used (h : g.Mentions s) : s ∈ (NamePool.ofGrammar g).used := by
  obtain ⟨hn, p, hp, hs⟩ := h
  rw [NamePool.mem_used_ofGrammar_iff]
  rcases mem_symbols_iff.1 hs with rfl | hr
  · exact .inl ⟨p, hp, rfl⟩
  · exact .inr ⟨hn, p, hp, hr⟩

/-- The names are nonterminals that do not occur in a grammar. -/
def AreNew (g : Grammar) (names : List Symbol) : Prop :=
  ∀ name ∈ names, isNonterminal name = true ∧ name ∉ (NamePool.ofGrammar g).used

theorem AreNew.not_mentions (h : g.AreNew names) (hs : s ∈ names) : ¬g.Mentions s :=
  fun hm => (h s hs).2 hm.mem_used

theorem AreNew.not_mem_symbols (h : g.AreNew names) (hp : p ∈ g.productions) (hs : s ∈ names) :
    s ∉ p.symbols :=
  fun hm => h.not_mentions hs ⟨(h s hs).1, p, hp, hm⟩

theorem AreNew.left_not_mem (h : g.AreNew names) (hp : p ∈ g.productions) : p.left ∉ names :=
  fun hm => h.not_mem_symbols hp hm List.mem_cons_self

theorem AreNew.right_not_mem (h : g.AreNew names) (hp : p ∈ g.productions) (hs : s ∈ p.right) :
    s ∉ names :=
  fun hm => h.not_mem_symbols hp hm (List.mem_cons_of_mem _ hs)

end Grammar

end PhraseGrammar
