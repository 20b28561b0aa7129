import PhraseGrammar.Grammar.WellFormed
import PhraseGrammar.Proofs.Normal.Chain

namespace PhraseGrammar

/-- Splits a right side into pairs by links that are given. The last symbols stay together. -/
def linked (left : Symbol) : List Symbol → List Symbol → List Production
  | a :: right, link :: links => ⟨left, [a, link]⟩ :: linked link right links
  | right, _ => [⟨left, right⟩]

/-- The names of the links of each chain. -/
def linksOfChains (pool : NamePool) : List Production → List (List Symbol)
  | [] => []
  | p :: productions =>
    (chainLinks pool ("BIN_" ++ p.left) p.right).map (·.1)
      :: linksOfChains (chain pool ("BIN_" ++ p.left) p.left p.right).2 productions

variable {pool : NamePool} {base left : Symbol} {right : List Symbol}
  {productions : List Production}

theorem length_chainLinks : (chainLinks pool base right).length = right.length - 2 := by
  induction right generalizing pool with
  | nil => rfl
  | cons a right ih =>
    rcases right with _ | ⟨b, _ | ⟨c, right⟩⟩
    · rfl
    · rfl
    · rw [chainLinks, List.length_cons, ih]
      rfl

theorem chain_eq_linked : (chain pool base left right).1 =
    linked left right ((chainLinks pool base right).map (·.1)) := by
  induction right generalizing pool left with
  | nil => rfl
  | cons a right ih =>
    rcases right with _ | ⟨b, _ | ⟨c, right⟩⟩
    · rfl
    · rfl
    · exact congrArg (_ :: ·) ih

theorem flatten_linksOfChains : (linksOfChains pool productions).flatten =
    (chainsLinks pool productions).map (·.1) := by
  induction productions generalizing pool with
  | nil => rfl
  | cons p productions ih =>
    rw [linksOfChains, List.flatten_cons, ih, chainsLinks, List.map_append]

theorem map_length_linksOfChains : (linksOfChains pool productions).map List.length =
    productions.map (·.right.length - 2) := by
  induction productions generalizing pool with
  | nil => rfl
  | cons p productions ih =>
    rw [linksOfChains, List.map_cons, List.length_map, length_chainLinks, ih, List.map_cons]

theorem chains_eq_linked : (chains pool productions).1 =
    (List.zipWith (fun p => linked p.left p.right) productions
      (linksOfChains pool productions)).flatten := by
  induction productions generalizing pool with
  | nil => rfl
  | cons p productions ih =>
    rw [chains, linksOfChains, List.zipWith_cons_cons, List.flatten_cons, ← ih, chain_eq_linked]

namespace Grammar

variable {g : Grammar}

/-- The links of each production, none for a right side of two symbols or fewer. -/
def linksOfEach (g : Grammar) : List (List Symbol) :=
  linksOfChains (.ofGrammar g) g.productions

theorem flatten_linksOfEach : g.linksOfEach.flatten = g.linkNames :=
  flatten_linksOfChains

theorem newTo_linkNames : NewTo g.linkNames g.productions :=
  fun _ hm _ hp => areNew_linkEntries.not_mem_symbols hp hm

theorem cutAt_linkNames :
    CutAt g.linkNames g.productions (chains (.ofGrammar g) g.productions).1 := cutAt_chains

/-- No two productions are merged. -/
theorem productions_binarize (hn : g.productions.Nodup) :
    g.binarize.productions = (chains (.ofGrammar g) g.productions).1 :=
  distinct_of_nodup (cutAt_linkNames.nodup nodup_linkNames newTo_linkNames hn)

/-- A second grammar is the first one with its long right sides split at links. Each production has
its own links, and contracting them, in whatever order, gives the first grammar back. -/
structure Binarization (g : Grammar) (links : List (List Symbol)) (g' : Grammar) : Prop where
  start_eq : g'.start = g.start
  length_le : ∀ q ∈ g'.productions, q.right.length ≤ 2
  length_links : links.map List.length = g.productions.map (·.right.length - 2)
  productions_eq : g'.productions =
    (List.zipWith (fun p => linked p.left p.right) g.productions links).flatten
  nodup_links : links.flatten.Nodup
  isNonterminal_link : ∀ link ∈ links.flatten, isNonterminal link = true
  newTo : NewTo links.flatten g.productions
  mentions_iff : ∀ s, g'.Mentions s ↔ g.Mentions s ∨ s ∈ links.flatten
  count_left : ∀ link ∈ links.flatten, (g'.productions.map (·.left)).count link = 1
  count_right : ∀ link ∈ links.flatten, (g'.productions.flatMap (·.right)).count link = 1
  getLast?_right : ∀ link ∈ links.flatten, ∀ q ∈ g'.productions, link ∈ q.right →
    q.right.getLast? = some link
  contractAll_eq : ∀ names, names.Perm links.flatten →
    contractAll names g'.productions = g.productions

/-- Splitting long right sides can be undone. -/
theorem binarization_binarize {start : Symbol} {productions : List Production}
    (h : validate start productions = .ok g) : g.Binarization g.linksOfEach g.binarize := by
  have hp := productions_binarize (validate_eq_ok_iff.1 h).2.nodup
  have hc : CutAt g.linkNames g.productions g.binarize.productions := hp ▸ cutAt_linkNames
  have hn : g.linkNames.Nodup := nodup_linkNames
  rw [← flatten_linksOfEach] at hc hn
  have hnew : NewTo g.linksOfEach.flatten g.productions := flatten_linksOfEach ▸ newTo_linkNames
  exact {
    start_eq := rfl
    length_le := fun q hq => length_le_of_mem_binarize hq
    length_links := map_length_linksOfChains
    productions_eq := hp.trans chains_eq_linked
    nodup_links := hn
    isNonterminal_link := fun link hm =>
      (areNew_linkEntries link (flatten_linksOfEach ▸ hm)).1
    newTo := hnew
    mentions_iff := fun s => flatten_linksOfEach ▸ mentions_binarize_iff
    count_left := fun link hm => hc.count_left hn hnew hm
    count_right := fun link hm => hc.count_right hn hnew hm
    getLast?_right := fun link hm q hq hs => hc.getLast?_right hnew hm hq hs
    contractAll_eq := fun names hm => hc.contractAll_eq hn hnew hm }

/-- Two long right sides belong to one nonterminal, and the first name for their links is taken. -/
def crowded : Grammar :=
  ⟨"S", [⟨"S", ["a", "S", "BIN_S", "b"]⟩, ⟨"BIN_S", []⟩, ⟨"S", ["c", "S", "d"]⟩]⟩

theorem binarization_crowded : validate "S" crowded.productions = .ok crowded ∧
    crowded.linksOfEach = [["BIN_S1", "BIN_S2"], [], ["BIN_S3"]] ∧
    crowded.Binarization crowded.linksOfEach crowded.binarize ∧
    contractAll ["BIN_S2", "BIN_S3", "BIN_S1"] crowded.binarize.productions =
      crowded.productions := by
  have hv : validate "S" crowded.productions = .ok crowded := by decide +kernel
  have hl : crowded.linksOfEach = [["BIN_S1", "BIN_S2"], [], ["BIN_S3"]] := by decide +kernel
  have hb := binarization_binarize hv
  refine ⟨hv, hl, hb, hb.contractAll_eq _ ?_⟩
  rw [hl]
  decide

end Grammar

end PhraseGrammar
