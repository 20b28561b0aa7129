import Mathlib.Data.Nat.Init
import PhraseGrammar.Proofs.Normal.Stages

namespace PhraseGrammar

variable {used : SymbolSet} {base name : Symbol} {number : Nat} {bases names : List Symbol}

/-- The plain search for a name: one that is used gives way to the base with the next number. -/
inductive SearchesTo (used : SymbolSet) (base : Symbol) : Symbol → Nat → Symbol → Prop where
  | free {name : Symbol} {number : Nat} (h : name ∉ used) : SearchesTo used base name number name
  | next {name result : Symbol} {number : Nat} (h : name ∈ used)
    (hr : SearchesTo used base (base ++ number.repr) (number + 1) result) :
    SearchesTo used base name number result

theorem SearchesTo.unique {result result' : Symbol} (h : SearchesTo used base name number result)
    (h' : SearchesTo used base name number result') : result = result' := by
  induction h with
  | free hn =>
    cases h' with
    | free _ => rfl
    | next hm _ => exact absurd hm hn
  | next hm _ ih =>
    cases h' with
    | free hn => exact absurd hm hn
    | next _ hr => exact ih hr

/-- A free candidate is found from every one before it, when those are used. -/
theorem searchesTo_candidate {first last : Nat} (hf : candidate base last ∉ used)
    (hu : ∀ n < last, candidate base n ∈ used) (hle : first ≤ last) :
    SearchesTo used base (candidate base first) (first + 1) (candidate base last) := by
  induction hle using Nat.decreasingInduction with
  | self => exact .free hf
  | of_succ n hn ih => exact .next (hu n hn) ih

/-- Searches for one base after the other, where each name that is found is used from then on. -/
inductive HandsOut : SymbolSet → List Symbol → List Symbol → Prop where
  | done (used : SymbolSet) : HandsOut used [] []
  | call {used : SymbolSet} {base name : Symbol} {bases names : List Symbol}
    (h : SearchesTo used base base 1 name) (hr : HandsOut (used.insert name) bases names) :
    HandsOut used (base :: bases) (name :: names)

theorem HandsOut.unique {names' : List Symbol} (h : HandsOut used bases names)
    (h' : HandsOut used bases names') : names = names' := by
  induction h generalizing names' with
  | done =>
    cases h'
    rfl
  | call hs _ ih =>
    cases h' with
    | call hs' hr' =>
      obtain rfl := hs.unique hs'
      rw [ih hr']

/-- The candidate with this number is the first one of its base that is not taken. -/
def IsFirstFree (taken : Symbol → Prop) (base : Symbol) (number : Nat) : Prop :=
  ¬taken (candidate base number) ∧ ∀ n < number, taken (candidate base n)

namespace NamePool

variable {pool : NamePool} {index : Nat}

theorem isFirstFree_freshNumber (pool : NamePool) (base : Symbol) :
    IsFirstFree (· ∈ pool.used) base (pool.freshNumber base) :=
  ⟨candidate_freshNumber_not_mem pool base, fun _ => mem_of_lt_freshNumber⟩

theorem freshNumber_le_size : pool.freshNumber base ≤ pool.used.size :=
  le_size_of_candidates fun _ => mem_of_lt_freshNumber

/-- What a pool remembers of earlier searches makes no difference to the result of the next one. -/
theorem searchesTo_fresh (pool : NamePool) (base : Symbol) :
    SearchesTo pool.used base base 1 (pool.fresh base).1 := by
  obtain ⟨hf, hu⟩ := isFirstFree_freshNumber pool base
  exact searchesTo_candidate hf hu (Nat.zero_le _)

theorem handsOut_freshAll (pool : NamePool) (bases : List Symbol) :
    HandsOut pool.used bases (pool.freshAll bases).1 := by
  induction bases generalizing pool with
  | nil => exact .done pool.used
  | cons base bases ih => exact .call (searchesTo_fresh pool base) (ih (pool.fresh base).2)

theorem allocates_freshAll (pool : NamePool) (bases : List Symbol) :
    pool.Allocates (pool.freshAll bases).1 (pool.freshAll bases).2 := by
  induction bases generalizing pool with
  | nil => exact allocates_nil pool
  | cons base bases ih => exact (allocates_fresh pool base).append (ih (pool.fresh base).2)

theorem length_freshAll (pool : NamePool) (bases : List Symbol) :
    (pool.freshAll bases).1.length = bases.length := by
  induction bases generalizing pool with
  | nil => rfl
  | cons base bases ih => exact congrArg (· + 1) (ih (pool.fresh base).2)

/-- Names that were handed out earlier count as taken, besides those that the pool had at first. -/
theorem exists_isFirstFree (pool : NamePool) (hb : bases[index]? = some base) :
    ∃ number ≤ pool.used.size + index,
      (pool.freshAll bases).1[index]? = some (candidate base number) ∧
      IsFirstFree (fun s => s ∈ pool.used ∨ s ∈ (pool.freshAll bases).1.take index) base
        number := by
  induction bases generalizing pool index with
  | nil => cases hb
  | cons first bases ih =>
    cases index with
    | zero =>
      obtain rfl : first = base := Option.some.inj hb
      refine ⟨pool.freshNumber first, freshNumber_le_size, rfl, ?_⟩
      simpa only [List.take_zero, List.not_mem_nil, or_false] using
        isFirstFree_freshNumber pool first
    | succ index =>
      obtain ⟨number, hle, hn, hf⟩ := ih (pool.fresh first).2 hb
      have hs : (pool.fresh first).2.used.size ≤ pool.used.size + 1 :=
        Std.TreeSet.size_insert_le
      refine ⟨number, by omega, hn, ?_⟩
      -- The name for the first base has moved from the pool to the names before.
      simpa only [freshAll, List.take_succ_cons, List.mem_cons, ← or_assoc,
        (allocates_fresh pool first).mem_used_iff, List.not_mem_nil, or_false] using hf

/-- A free base goes to the first call for it, unless it went to an earlier one for another base. -/
theorem mem_freshAll_of_mem (pool : NamePool) (hb : base ∈ bases) (hf : base ∉ pool.used) :
    base ∈ (pool.freshAll bases).1 := by
  obtain ⟨index, hi⟩ := List.mem_iff_getElem?.1 hb
  obtain ⟨number, _, hn, _, ht⟩ := exists_isFirstFree pool hi
  rcases Nat.eq_zero_or_pos number with rfl | hpos
  · exact List.mem_of_getElem? hn
  · exact List.mem_of_mem_take ((ht 0 hpos).resolve_left hf)

end NamePool

namespace Grammar

variable {g : Grammar} {s : Symbol}

theorem WellFormed.mem_used_iff (hw : g.WellFormed) :
    s ∈ (NamePool.ofGrammar g).used ↔ g.Mentions s := by
  refine ⟨?_, Mentions.mem_used⟩
  intro h
  rcases NamePool.mem_used_ofGrammar_iff.1 h with ⟨p, hp, rfl⟩ | ⟨hn, p, hp, hr⟩
  · exact ⟨hw.left p hp, p, hp, List.mem_cons_self⟩
  · exact ⟨hn, p, hp, List.mem_cons_of_mem _ hr⟩

theorem IsRooted.mentions_start (hr : g.IsRooted) (hw : g.WellFormed) (hp : g.productions ≠ []) :
    g.Mentions g.start := by
  obtain ⟨p, hm⟩ := List.exists_mem_of_ne_nil _ hp
  obtain ⟨q, hq, hl⟩ := hr p hm
  exact ⟨hw.start, q, hq, mem_symbols_iff.2 (.inl hl.symm)⟩

/-- The names that are handed out for a list of bases when a grammar's own are in use. -/
def namesFor (g : Grammar) (bases : List Symbol) : List Symbol :=
  ((NamePool.ofGrammar g).freshAll bases).1

theorem not_mentions_of_mem_namesFor (h : name ∈ g.namesFor bases) : ¬g.Mentions name :=
  fun hm => (NamePool.allocates_freshAll _ bases).unused name h hm.mem_used

theorem exists_isFirstFree_namesFor (hw : g.WellFormed) {index : Nat}
    (hb : bases[index]? = some base) :
    ∃ number ≤ (NamePool.ofGrammar g).used.size + index,
      (g.namesFor bases)[index]? = some (candidate base number) ∧
      IsFirstFree (fun s => g.Mentions s ∨ s ∈ (g.namesFor bases).take index) base number := by
  have hf := NamePool.exists_isFirstFree (NamePool.ofGrammar g) hb
  simp only [hw.mem_used_iff] at hf
  exact hf

theorem mentions_start_of_mem_stages {stage : Grammar} (hw : g.WellFormed)
    (hs : stage ∈ [g.reduced, g.separated, g.paired]) (hp : stage.productions ≠ []) :
    stage.Mentions stage.start := by
  simp only [List.mem_cons, List.not_mem_nil, or_false] at hs
  rcases hs with rfl | rfl | rfl
  · exact (isRooted_reduced hw).mentions_start hw.reduced hp
  · exact (isRooted_separated hw).mentions_start hw.reduced.separateTerminals hp
  · exact (isRooted_paired hw).mentions_start hw.reduced.separateTerminals.binarize hp

/-- For any bases, one after the other, the search for a name comes to an end. What it finds is the
first candidate of its base that is neither a nonterminal of a production nor handed out before.
A start symbol that no production mentions is as free as any other name, but the grammars that get
new names on their way to normal form mention theirs. -/
theorem namesFor_spec {start : Symbol} {productions : List Production}
    (h : validate start productions = .ok g) (bases : List Symbol) :
    (∀ names, HandsOut (NamePool.ofGrammar g).used bases names ↔ names = g.namesFor bases) ∧
      (∀ s, s ∈ (NamePool.ofGrammar g).used ↔ g.Mentions s) ∧
      (g.namesFor bases).length = bases.length ∧
      (∀ index base, bases[index]? = some base →
        ∃ number ≤ (NamePool.ofGrammar g).used.size + index,
          (g.namesFor bases)[index]? = some (candidate base number) ∧
          IsFirstFree (fun s => g.Mentions s ∨ s ∈ (g.namesFor bases).take index) base number) ∧
      (g.namesFor bases).Nodup ∧
      (∀ name ∈ g.namesFor bases, ∀ p ∈ g.productions,
        p.left ≠ name ∧ (isNonterminal name = true → name ∉ p.right)) ∧
      (g.Mentions g.start → g.start ∉ g.namesFor bases) ∧
      (¬g.Mentions g.start → g.start ∈ bases → g.start ∈ g.namesFor bases) ∧
      ∀ stage ∈ [g.reduced, g.separated, g.paired], stage.productions ≠ [] →
        stage.start ∉ stage.namesFor bases := by
  obtain ⟨_, hw⟩ := validate_eq_ok_iff.1 h
  have hr := NamePool.handsOut_freshAll (NamePool.ofGrammar g) bases
  have ha := NamePool.allocates_freshAll (NamePool.ofGrammar g) bases
  refine ⟨?_, fun _ => hw.mem_used_iff, NamePool.length_freshAll _ _,
    fun _ _ => exists_isFirstFree_namesFor hw, ha.nodup, ?_, ?_, ?_, ?_⟩
  · intro names
    apply Iff.intro
    · intro hn
      exact hn.unique hr
    · rintro rfl
      exact hr
  · intro name hm p hp
    have hn := not_mentions_of_mem_namesFor hm
    apply And.intro
    · rintro rfl
      exact hn ⟨hw.left p hp, p, hp, List.mem_cons_self⟩
    · intro hs ht
      exact hn ⟨hs, p, hp, List.mem_cons_of_mem _ ht⟩
  · intro hs hm
    exact not_mentions_of_mem_namesFor hm hs
  · intro hs hb
    exact NamePool.mem_freshAll_of_mem _ hb (mt hw.mem_used_iff.1 hs)
  · intro stage hs hp hm
    exact not_mentions_of_mem_namesFor hm (mentions_start_of_mem_stages hw hs hp)

/-- Some of its names are candidates for others. -/
def numbered : Grammar :=
  ⟨"S", [⟨"S", ["S0", "T_a"]⟩, ⟨"S0", ["a"]⟩, ⟨"T_a", ["a", "b"]⟩, ⟨"S01", ["c"]⟩]⟩

theorem namesFor_numbered : validate "S" numbered.productions = .ok numbered ∧
    numbered.namesFor ["S0", "T_a", "T_a1", "S"] = ["S02", "T_a1", "T_a11", "S1"] ∧
      HandsOut (NamePool.ofGrammar numbered).used ["S0", "T_a", "T_a1", "S"]
        ["S02", "T_a1", "T_a11", "S1"] ∧
      IsFirstFree (fun s => numbered.Mentions s ∨ s ∈ ["S02", "T_a1"]) "T_a1" 1 ∧
      numbered.start ∉ numbered.reduced.namesFor ["S0", "T_a", "T_a1", "S"] := by
  have hv : validate "S" numbered.productions = .ok numbered := by decide +kernel
  obtain ⟨hr, _, _, hc, _, _, _, _, hs⟩ := namesFor_spec hv ["S0", "T_a", "T_a1", "S"]
  have hn : numbered.namesFor ["S0", "T_a", "T_a1", "S"] = ["S02", "T_a1", "T_a11", "S1"] := by
    decide +kernel
  rw [hn] at hc
  obtain ⟨number, _, he, hf⟩ := hc 2 "T_a1" rfl
  have hl : candidate "T_a1" 1 = "T_a11" := by decide +kernel
  obtain rfl : 1 = number := candidate_injective (hl.trans (Option.some.inj he))
  exact ⟨hv, hn, (hr _).2 hn.symm, hf,
    hs numbered.reduced List.mem_cons_self (by decide +kernel)⟩

/-- No production mentions its start symbol. -/
def unmentioned : Grammar :=
  ⟨"S", [⟨"A", ["a"]⟩]⟩

theorem start_handed_out : validate "S" unmentioned.productions = .ok unmentioned ∧
    unmentioned.start ∈ unmentioned.namesFor ["S"] := by
  decide +kernel

end Grammar

end PhraseGrammar
