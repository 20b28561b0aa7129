import Mathlib.Data.List.Nodup
import Mathlib.Logic.Relation
import PhraseGrammar.Grammar.Saturation

namespace PhraseGrammar

variable {productions : List Production} {limit : Nat} {stack found result : List Symbol}
  {s t : Symbol}

theorem mem_unitTargets_iff :
    t ∈ unitTargets productions s ↔ ⟨s, [t]⟩ ∈ productions ∧ isNonterminal t = true := by
  simp only [unitTargets, List.mem_flatMap, List.mem_filter, Bool.and_eq_true, beq_iff_eq]
  apply Iff.intro
  · intro h
    obtain ⟨⟨left, right⟩, ⟨hp, rfl, hu⟩, ht⟩ := h
    match right, hu with
    | [b], hu =>
      rw [List.mem_singleton.1 ht]
      exact ⟨hp, hu⟩
  · intro h
    exact ⟨⟨s, [t]⟩, ⟨h.1, rfl, h.2⟩, List.mem_singleton_self t⟩

/-- The unit targets of a symbol that were not found before. -/
def newTargets (productions : List Production) (found : List Symbol) (s : Symbol) : List Symbol :=
  ((unitTargets productions s).filter (!found.contains ·)).eraseDups

theorem mem_newTargets_iff :
    t ∈ newTargets productions found s ↔ t ∈ unitTargets productions s ∧ t ∉ found := by
  simp [newTargets]

theorem followUnits_cons : followUnits productions (limit + 1) (s :: stack) found =
    followUnits productions limit ((newTargets productions found s).reverse ++ stack)
      (found ++ newTargets productions found s) := rfl

theorem followUnits_nil : followUnits productions limit [] found = found := by
  cases limit <;> rfl

/-- A symbol that was not found before becomes the last of the found ones, and the first of those
on the stack. -/
def discover (state : List Symbol × List Symbol) (t : Symbol) : List Symbol × List Symbol :=
  if t ∈ state.1 then state else (state.1 ++ [t], t :: state.2)

theorem mem_discover {state : List Symbol × List Symbol} (hs : s ∈ state.1) :
    s ∈ (discover state t).1 := by
  rw [discover]
  split
  · exact hs
  · exact List.mem_append_left _ hs

theorem foldl_discover {targets : List Symbol} : targets.foldl discover (found, stack) =
    (found ++ (targets.filter (!found.contains ·)).eraseDups,
      (targets.filter (!found.contains ·)).eraseDups.reverse ++ stack) := by
  induction targets generalizing found stack with
  | nil => simp
  | cons t targets ih =>
    rw [List.foldl_cons, discover]
    by_cases ht : t ∈ found
    · rw [if_pos ht, ih, List.filter_cons_of_neg (by simpa using ht)]
    · rw [if_neg ht, ih, List.filter_cons_of_pos (by simpa using ht), List.eraseDups_cons,
        List.filter_filter]
      have hf : (fun u => !(found ++ [t]).contains u) =
          fun u => !(u == t) && !found.contains u := by
        funext u
        rw [List.contains_append, List.contains_cons, List.contains_nil, Bool.or_false, Bool.not_or,
          Bool.and_comm]
      rw [hf, List.append_assoc, List.reverse_cons, List.append_assoc]
      rfl

theorem foldl_discover_unitTargets : (unitTargets productions s).foldl discover (found, stack) =
    (found ++ newTargets productions found s,
      (newTargets productions found s).reverse ++ stack) :=
  foldl_discover

/-- The symbol on top of the stack is taken off and its targets are discovered one after the other,
until no symbol is left there. -/
inductive FollowsTo (productions : List Production) :
    List Symbol → List Symbol → List Symbol → Prop where
  | rest (found : List Symbol) : FollowsTo productions [] found found
  | again {s : Symbol} {stack found stack' found' result : List Symbol}
    (h : (unitTargets productions s).foldl discover (found, stack) = (found', stack'))
    (hr : FollowsTo productions stack' found' result) :
    FollowsTo productions (s :: stack) found result

theorem FollowsTo.unique {result' : List Symbol} (h : FollowsTo productions stack found result)
    (h' : FollowsTo productions stack found result') : result = result' := by
  induction h with
  | rest =>
    cases h'
    rfl
  | again he _ ih =>
    cases h' with
    | again he' hr' =>
      rw [he] at he'
      cases he'
      exact ih hr'

theorem length_newTargets_add_le {missing : List Symbol}
    (hm : ∀ t ∈ unitTargets productions s, t ∈ found ∨ t ∈ missing) :
    (newTargets productions found s).length +
      (missing.filter (· ∉ newTargets productions found s)).length ≤ missing.length := by
  have hn : (newTargets productions found s).length ≤
      (missing.filter (· ∈ newTargets productions found s)).length := by
    apply List.Nodup.length_le_of_subset
    · exact nodup_eraseDups _
    · intro t ht
      have hs := mem_newTargets_iff.1 ht
      exact List.mem_filter.2 ⟨(hm t hs.1).resolve_left hs.2, decide_eq_true ht⟩
  have hsum := List.length_eq_length_filter_add (l := missing)
    (fun t => decide (t ∈ newTargets productions found s))
  simp only [decide_not]
  omega

/-- The stack runs empty within as many rounds as there are symbols on it and symbols that may still
be put there. -/
theorem followsTo_followUnits (missing : List Symbol) (hl : stack.length + missing.length ≤ limit)
    (hm : ∀ s, ∀ t ∈ unitTargets productions s, t ∈ found ∨ t ∈ missing) :
    FollowsTo productions stack found (followUnits productions limit stack found) := by
  induction limit generalizing stack found missing with
  | zero =>
    obtain rfl : stack = [] := List.length_eq_zero_iff.1 (by omega)
    exact .rest found
  | succ limit ih =>
    cases stack with
    | nil => exact .rest found
    | cons x stack =>
      have hle := length_newTargets_add_le (hm x)
      rw [followUnits_cons]
      apply FollowsTo.again foldl_discover_unitTargets
      apply ih (missing.filter (· ∉ newTargets productions found x))
      · rw [List.length_append, List.length_reverse]
        rw [List.length_cons] at hl
        omega
      · intro s t ht
        rw [List.mem_append, List.mem_filter, decide_eq_true_iff]
        have ho := hm s t ht
        tauto

/-- Found symbols off the stack have had their targets found. -/
def Explored (productions : List Production) (stack found : List Symbol) : Prop :=
  ∀ s ∈ found, s ∈ stack ∨ ∀ t ∈ unitTargets productions s, t ∈ found

theorem mem_append_newTargets (ht : t ∈ unitTargets productions s) :
    t ∈ found ++ newTargets productions found s := by
  by_cases hf : t ∈ found
  · exact List.mem_append_left _ hf
  · exact List.mem_append_right _ (mem_newTargets_iff.2 ⟨ht, hf⟩)

theorem Explored.step (h : Explored productions (s :: stack) found) :
    Explored productions ((newTargets productions found s).reverse ++ stack)
      (found ++ newTargets productions found s) := by
  intro x hx
  rcases List.mem_append.1 hx with hf | hn
  · rcases h x hf with hs | ht
    · rcases List.mem_cons.1 hs with rfl | hs
      · exact .inr fun t ht => mem_append_newTargets ht
      · exact .inl (List.mem_append_right _ hs)
    · exact .inr fun t hm => List.mem_append_left _ (ht t hm)
  · exact .inl (List.mem_append_left _ (List.mem_reverse.2 hn))

theorem FollowsTo.explored (h : FollowsTo productions stack found result)
    (he : Explored productions stack found) : Explored productions [] result := by
  induction h with
  | rest => exact he
  | again hd _ ih =>
    rw [foldl_discover_unitTargets] at hd
    cases hd
    exact ih he.step

/-- The symbols that are found from one symbol: each other one is new when it is put behind the
rest, and a unit target of one of them. -/
inductive Trail (productions : List Production) (a : Symbol) : List Symbol → Prop where
  | start : Trail productions a [a]
  | extend {found : List Symbol} {s t : Symbol} (h : Trail productions a found) (hs : s ∈ found)
    (ht : t ∈ unitTargets productions s) (hn : t ∉ found) : Trail productions a (found ++ [t])

namespace Trail

variable {a b : Symbol} {before after : List Symbol}

theorem head?_eq (h : Trail productions a found) : found.head? = some a := by
  induction h with
  | start => rfl
  | extend _ _ _ _ ih => rw [List.head?_append, ih, Option.some_or]

theorem nodup (h : Trail productions a found) : found.Nodup := by
  induction h with
  | start => exact List.nodup_singleton a
  | extend _ _ _ hn ih => exact List.nodup_append_comm.1 (List.nodup_cons.2 ⟨hn, ih⟩)

theorem induction {Holds : Symbol → Prop} (h : Trail productions a found) (ha : Holds a)
    (hs : ∀ s, Holds s → ∀ t ∈ unitTargets productions s, Holds t) : ∀ s ∈ found, Holds s := by
  induction h with
  | start => exact List.forall_mem_singleton.2 ha
  | extend _ hm ht _ ih =>
    exact List.forall_mem_append.2 ⟨ih, List.forall_mem_singleton.2 (hs _ (ih _ hm) _ ht)⟩

theorem exists_earlier (h : Trail productions a found) (he : found = before ++ b :: after)
    (hb : before ≠ []) : ∃ c ∈ before, b ∈ unitTargets productions c := by
  induction h generalizing after with
  | start =>
    obtain ⟨first, rest, rfl⟩ := List.exists_cons_of_ne_nil hb
    simp at he
  | @extend found s t _ hs ht _ ih =>
    rcases List.eq_nil_or_concat after with rfl | ⟨after, u, rfl⟩
    · obtain ⟨rfl, hc⟩ := List.append_inj' he rfl
      obtain rfl := (List.cons.inj hc).1
      exact ⟨s, hs, ht⟩
    · rw [List.concat_eq_append, ← List.cons_append, ← List.append_assoc] at he
      exact ih (List.append_inj' he rfl).1

end Trail

/-- The found symbols are a trail, and the stack holds no others. -/
structure OnTrail (productions : List Production) (a : Symbol)
    (state : List Symbol × List Symbol) : Prop where
  trail : Trail productions a state.1
  mem_found : ∀ s ∈ state.2, s ∈ state.1

namespace OnTrail

variable {a : Symbol} {state : List Symbol × List Symbol} {targets : List Symbol}

theorem step (h : OnTrail productions a state) (hs : s ∈ state.1)
    (ht : t ∈ unitTargets productions s) : OnTrail productions a (discover state t) := by
  rw [discover]
  split
  · exact h
  · rename_i hn
    refine ⟨h.trail.extend hs ht hn, List.forall_mem_cons.2 ⟨by simp, ?_⟩⟩
    exact fun u hu => List.mem_append_left _ (h.mem_found u hu)

theorem run (h : OnTrail productions a state) (hs : s ∈ state.1)
    (ht : ∀ t ∈ targets, t ∈ unitTargets productions s) :
    OnTrail productions a (targets.foldl discover state) := by
  induction targets generalizing state with
  | nil => exact h
  | cons t targets ih =>
    obtain ⟨ht, hts⟩ := List.forall_mem_cons.1 ht
    exact ih (h.step hs ht) (mem_discover hs) hts

end OnTrail

theorem FollowsTo.trail {a : Symbol} (h : FollowsTo productions stack found result)
    (ht : OnTrail productions a (found, stack)) : Trail productions a result := by
  induction h with
  | rest => exact ht.trail
  | @again s stack found _ _ _ hd _ ih =>
    apply ih
    obtain ⟨hs, hst⟩ := List.forall_mem_cons.1 ht.mem_found
    have hf : OnTrail productions a (found, stack) := ⟨ht.trail, hst⟩
    rw [← hd]
    exact hf.run hs fun _ => id

namespace Grammar

variable {g : Grammar} {a b : Symbol}

/-- A nonterminal can take a symbol's place alone. -/
def UnitStep (g : Grammar) (a b : Symbol) : Prop :=
  ⟨a, [b]⟩ ∈ g.productions ∧ isNonterminal b = true

/-- A symbol becomes another by unit productions alone, of which there may be none. -/
abbrev UnitReaches (g : Grammar) : Symbol → Symbol → Prop :=
  Relation.ReflTransGen g.UnitStep

theorem followsTo_unitClosure (g : Grammar) (a : Symbol) :
    FollowsTo g.productions [a] [a] (g.unitClosure a) := by
  apply followsTo_followUnits ((g.productions.filter (·.isUnit)).map (·.right.headD ""))
  · have hle := List.length_filter_le (·.isUnit) g.productions
    simp only [List.length_singleton, List.length_map]
    omega
  · intro s t ht
    have hu := mem_unitTargets_iff.1 ht
    exact .inr (List.mem_map.2 ⟨⟨s, [t]⟩, List.mem_filter.2 ⟨hu.1, hu.2⟩, rfl⟩)

theorem trail_unitClosure (g : Grammar) (a : Symbol) : Trail g.productions a (g.unitClosure a) :=
  (followsTo_unitClosure g a).trail ⟨.start, fun _ => id⟩

theorem mem_unitClosure_of_mem (hs : s ∈ g.unitClosure a) (h : g.UnitStep s b) :
    b ∈ g.unitClosure a := by
  have he := (followsTo_unitClosure g a).explored fun _ => .inl
  exact (he s hs).resolve_left List.not_mem_nil b (mem_unitTargets_iff.2 h)

theorem mem_unitClosure_iff : b ∈ g.unitClosure a ↔ g.UnitReaches a b := by
  apply Iff.intro
  · refine (trail_unitClosure g a).induction .refl ?_ b
    intro s hs t ht
    exact hs.tail (mem_unitTargets_iff.1 ht)
  · intro h
    induction h with
    | refl => exact List.mem_of_head? (trail_unitClosure g a).head?_eq
    | tail _ hs ih => exact mem_unitClosure_of_mem ih hs

/-- Following unit productions comes to an end. What is found begins with the symbol itself, holds
nothing twice, and consists of the symbols that can be reached, each of them found from one before
it. -/
theorem unitClosure_spec (g : Grammar) (a : Symbol) :
    (∀ result, FollowsTo g.productions [a] [a] result ↔ result = g.unitClosure a) ∧
      (g.unitClosure a).head? = some a ∧
      (g.unitClosure a).Nodup ∧
      (∀ b, b ∈ g.unitClosure a ↔ b = a ∨ Relation.TransGen g.UnitStep a b) ∧
      ∀ before b after, g.unitClosure a = before ++ b :: after → before ≠ [] →
        ∃ c ∈ before, g.UnitStep c b := by
  have hf := followsTo_unitClosure g a
  have ht := trail_unitClosure g a
  refine ⟨?_, ht.head?_eq, ht.nodup, ?_, ?_⟩
  · intro result
    apply Iff.intro
    · intro hr
      exact hr.unique hf
    · rintro rfl
      exact hf
  · intro b
    exact mem_unitClosure_iff.trans Relation.reflTransGen_iff_eq_or_transGen
  · intro before b after he hb
    obtain ⟨c, hc, hu⟩ := ht.exists_earlier he hb
    exact ⟨c, hc, mem_unitTargets_iff.1 hu⟩

/-- Its unit productions lead round and round, by more than one way. -/
def winding : Grammar :=
  ⟨"S", [⟨"S", ["A"]⟩, ⟨"S", ["B"]⟩, ⟨"S", ["A"]⟩, ⟨"S", ["s"]⟩, ⟨"A", ["C"]⟩, ⟨"B", ["C"]⟩,
    ⟨"C", ["S"]⟩, ⟨"C", ["C"]⟩, ⟨"D", ["S"]⟩, ⟨"D", ["A", "B"]⟩]⟩

theorem unitClosure_winding : winding.unitClosure "S" = ["S", "A", "B", "C"] ∧
    FollowsTo winding.productions ["S"] ["S"] ["S", "A", "B", "C"] ∧
    Relation.TransGen winding.UnitStep "S" "C" ∧ ¬Relation.TransGen winding.UnitStep "S" "D" ∧
    ∃ c ∈ ["S", "A", "B"], winding.UnitStep c "C" := by
  obtain ⟨hf, _, _, hm, he⟩ := unitClosure_spec winding "S"
  have hu : winding.unitClosure "S" = ["S", "A", "B", "C"] := by decide +kernel
  simp only [hu] at hf hm he
  exact ⟨hu, (hf _).2 rfl, ((hm "C").1 (by decide)).resolve_left (by decide),
    fun h => absurd ((hm "D").2 (.inr h)) (by decide), he ["S", "A", "B"] "C" [] rfl (by decide)⟩

end Grammar

end PhraseGrammar
