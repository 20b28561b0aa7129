import Mathlib.Data.List.Nodup
import PhraseGrammar.Proofs.Normal.FreshName

namespace PhraseGrammar

/-- The same production with a list of symbols in the places of a nonterminal. -/
def Production.replace (name : Symbol) (form : List Symbol) (p : Production) : Production :=
  ⟨p.left, p.right.flatMap fun s => if s = name then form else [s]⟩

/-- A nonterminal gives way to the right side of its first production, and its productions are left
out. -/
def contract (name : Symbol) (productions : List Production) : List Production :=
  match productions.find? (·.left == name) with
  | none => productions
  | some q => (productions.filter (·.left != name)).map (·.replace name q.right)

/-- Contracts one nonterminal after the other. -/
def contractAll (names : List Symbol) (productions : List Production) : List Production :=
  names.foldl (fun productions name => contract name productions) productions

/-- Some productions are cut in two, and the pieces perhaps again. The first piece ends with a link,
and the second is a production of this link. -/
inductive CutAt : List Symbol → List Production → List Production → Prop where
  | nil : CutAt [] [] []
  | whole {links : List Symbol} {productions pieces : List Production} (p : Production)
    (h : CutAt links productions pieces) : CutAt links (p :: productions) (p :: pieces)
  | cut {link left : Symbol} {links after : List Symbol} {productions pieces : List Production}
    (before : List Symbol) (h : CutAt links (⟨link, after⟩ :: productions) pieces) :
    CutAt (link :: links) (⟨left, before ++ after⟩ :: productions)
      (⟨left, before ++ [link]⟩ :: pieces)

/-- The names occur in none of the productions. -/
def NewTo (names : List Symbol) (productions : List Production) : Prop :=
  ∀ name ∈ names, ∀ p ∈ productions, name ∉ p.symbols

variable {name link left s : Symbol} {names links before after form : List Symbol}
  {p q : Production} {productions pieces : List Production}

theorem replace_of_not_mem (h : name ∉ p.symbols) : p.replace name form = p := by
  have hr : ∀ s ∈ p.right, (if s = name then form else [s]) = [s] := by
    intro s hs
    rw [if_neg]
    rintro rfl
    exact h (List.mem_cons_of_mem _ hs)
  rw [Production.replace, List.flatMap_congr hr, List.flatMap_singleton']

theorem contract_cons_of_not_mem (h : name ∉ p.symbols) :
    contract name (p :: productions) = p :: contract name productions := by
  have hl : p.left ≠ name := fun he => h (he ▸ List.mem_cons_self)
  rw [contract, contract, List.find?_cons_of_neg (by simpa using hl),
    List.filter_cons_of_pos (by simpa using hl)]
  cases productions.find? (·.left == name) with
  | none => rfl
  | some q => exact congrArg (· :: _) (replace_of_not_mem h)

/-- The two pieces on either side of a link are put together again. -/
theorem contract_link (hl : link ≠ left) (hb : link ∉ before)
    (hp : ∀ p ∈ productions, link ∉ p.symbols) :
    contract link (⟨left, before ++ [link]⟩ :: ⟨link, form⟩ :: productions) =
      ⟨left, before ++ form⟩ :: productions := by
  have hk : productions.filter (·.left != link) = productions := by
    rw [List.filter_eq_self]
    intro p hm
    have hne : p.left ≠ link := fun he => hp p hm (he ▸ List.mem_cons_self)
    simpa using hne
  have hs : ∀ s ∈ before, (if s = link then form else [s]) = [s] := by
    intro s hs
    rw [if_neg]
    rintro rfl
    exact hb hs
  have hf : (⟨left, before ++ [link]⟩ : Production).replace link form = ⟨left, before ++ form⟩ := by
    rw [Production.replace, List.flatMap_append, List.flatMap_congr hs, List.flatMap_singleton',
      List.flatMap_singleton, if_pos rfl]
  have hr : productions.map (·.replace link form) = productions := by
    rw [List.map_congr_left fun p hm => replace_of_not_mem (hp p hm), List.map_id']
  rw [contract, List.find?_cons_of_neg (by simpa using hl.symm), List.find?_cons_of_pos (by simp),
    List.filter_cons_of_pos (by simpa using hl.symm), List.filter_cons_of_neg (by simp)]
  simp only
  rw [hk, List.map_cons, hf, hr]

namespace NewTo

theorem tail (h : NewTo links (p :: productions)) : NewTo links productions :=
  fun name hn q hq => h name hn q (List.mem_cons_of_mem p hq)

/-- What is new to a production is new to its second piece, but for the link. -/
theorem of_cut (h : NewTo (link :: links) (⟨left, before ++ after⟩ :: productions))
    (hn : (link :: links).Nodup) : NewTo links (⟨link, after⟩ :: productions) := by
  intro name hm
  have hname := h name (List.mem_cons_of_mem _ hm)
  apply List.forall_mem_cons.2 ⟨?_, (List.forall_mem_cons.1 hname).2⟩
  intro hs
  rcases List.mem_cons.1 hs with rfl | hs
  · exact (List.nodup_cons.1 hn).1 hm
  · have ha : name ∈ before ++ after := List.mem_append_right before hs
    exact hname _ List.mem_cons_self (List.mem_cons_of_mem _ ha)

theorem not_mem_before (h : NewTo links (⟨left, before ++ after⟩ :: productions))
    (hm : name ∈ links) : name ∉ before := by
  intro hb
  have ha : name ∈ before ++ after := List.mem_append_left after hb
  exact h name hm _ List.mem_cons_self (List.mem_cons_of_mem _ ha)

theorem ne_left (h : NewTo links (p :: productions)) (hm : name ∈ links) : name ≠ p.left :=
  fun he => h name hm p List.mem_cons_self (he ▸ List.mem_cons_self)

end NewTo

namespace CutAt

theorem left_perm (h : CutAt links productions pieces) :
    (pieces.map (·.left)).Perm (productions.map (·.left) ++ links) := by
  induction h with
  | nil => exact .refl _
  | whole p _ ih => exact ih.cons _
  | @cut link left links after productions pieces before _ ih =>
    exact (ih.trans List.perm_middle.symm).cons left

theorem right_perm (h : CutAt links productions pieces) :
    (pieces.flatMap (·.right)).Perm (productions.flatMap (·.right) ++ links) := by
  induction h with
  | nil => exact .refl _
  | whole p _ ih =>
    rw [List.flatMap_cons, List.flatMap_cons, List.append_assoc]
    exact ih.append_left _
  | @cut link left links after productions pieces before _ ih =>
    rw [List.flatMap_cons] at ih
    rw [List.flatMap_cons, List.flatMap_cons, List.append_assoc, List.append_assoc,
      List.append_assoc, ← List.append_assoc after]
    exact ((ih.cons link).trans List.perm_middle.symm).append_left before

theorem mem_symbols_iff (h : CutAt links productions pieces) :
    (∃ q ∈ pieces, s ∈ q.symbols) ↔ (∃ p ∈ productions, s ∈ p.symbols) ∨ s ∈ links := by
  have hc : ∀ productions : List Production, (∃ p ∈ productions, s ∈ p.symbols) ↔
      s ∈ productions.map (·.left) ∨ s ∈ productions.flatMap (·.right) := by
    intro productions
    simp only [Production.symbols, List.mem_cons, List.mem_map, List.mem_flatMap, and_or_left,
      exists_or, eq_comm]
  rw [hc, hc, h.left_perm.mem_iff, h.right_perm.mem_iff, List.mem_append, List.mem_append,
    ← or_or_distrib_right]

theorem not_mem_symbols (h : CutAt links productions pieces) (hs : s ∉ links)
    (hp : ∀ p ∈ productions, s ∉ p.symbols) (hq : q ∈ pieces) : s ∉ q.symbols := by
  intro hm
  rcases h.mem_symbols_iff.1 ⟨q, hq, hm⟩ with ⟨p, hm, hs⟩ | hl
  · exact hp p hm hs
  · exact hs hl

/-- The first piece goes together with whatever begins the second one, the whole of it or again a
first piece. -/
theorem contract_head (h : CutAt links (⟨link, after⟩ :: productions) pieces)
    (hl : link ∉ links) (hp : ∀ p ∈ ⟨left, before ++ after⟩ :: productions, link ∉ p.symbols) :
    CutAt links (⟨left, before ++ after⟩ :: productions)
      (PhraseGrammar.contract link (⟨left, before ++ [link]⟩ :: pieces)) := by
  obtain ⟨hhead, htail⟩ := List.forall_mem_cons.1 hp
  rw [Production.symbols, List.mem_cons, List.mem_append, not_or, not_or] at hhead
  obtain ⟨hne, hb, ha⟩ := hhead
  cases h with
  | @whole _ _ pieces _ h =>
    rw [contract_link hne hb fun q hq => h.not_mem_symbols hl htail hq]
    exact .whole _ h
  | @cut link' _ links after _ pieces before' h =>
    rw [List.mem_cons, not_or] at hl
    have hp' : ∀ p ∈ ⟨link', after⟩ :: productions, link ∉ p.symbols := by
      apply List.forall_mem_cons.2 ⟨?_, htail⟩
      rw [Production.symbols, List.mem_cons, not_or]
      exact ⟨hl.1, fun hs => ha (List.mem_append_right before' hs)⟩
    rw [contract_link hne hb fun q hq => h.not_mem_symbols hl.2 hp' hq, ← List.append_assoc,
      ← List.append_assoc]
    exact .cut (before ++ before') h

/-- Contracting a link undoes one cut and leaves the others as they are. -/
theorem contract (h : CutAt links productions pieces) (hn : links.Nodup)
    (hnew : NewTo links productions) (hm : name ∈ links) :
    CutAt (links.erase name) productions (PhraseGrammar.contract name pieces) := by
  induction h with
  | nil => cases hm
  | whole p _ ih =>
    rw [contract_cons_of_not_mem (hnew name hm p List.mem_cons_self)]
    exact .whole p (ih hn hnew.tail hm)
  | @cut link left links after productions pieces before h ih =>
    obtain ⟨hl, hn'⟩ := List.nodup_cons.1 hn
    by_cases he : name = link
    · rw [he, List.erase_cons_head]
      exact h.contract_head hl (hnew link List.mem_cons_self)
    · have hm' : name ∈ links := List.mem_of_ne_of_mem he hm
      have hb : name ∉ (⟨left, before ++ [link]⟩ : Production).symbols := by
        rw [Production.symbols, List.mem_cons, List.mem_append, List.mem_singleton, not_or, not_or]
        exact ⟨hnew.ne_left hm, hnew.not_mem_before hm, he⟩
      rw [List.erase_cons_tail (by simpa using Ne.symm he), contract_cons_of_not_mem hb]
      exact .cut before (ih hn' (hnew.of_cut hn) hm')

theorem eq_of_nil (h : CutAt [] productions pieces) : pieces = productions := by
  generalize he : ([] : List Symbol) = links at h
  induction h with
  | nil => rfl
  | whole p _ ih => rw [ih he]
  | cut => cases he

/-- When all links are contracted, in whatever order, the pieces are whole again. -/
theorem contractAll_eq (h : CutAt links productions pieces) (hn : links.Nodup)
    (hnew : NewTo links productions) (hp : names.Perm links) :
    contractAll names pieces = productions := by
  induction names generalizing links pieces with
  | nil =>
    rw [List.nil_perm.1 hp] at h
    exact h.eq_of_nil
  | cons name names ih =>
    have hm : name ∈ links := hp.subset List.mem_cons_self
    have hnew' : NewTo (links.erase name) productions :=
      fun other ho => hnew other (List.mem_of_mem_erase ho)
    exact ih (h.contract hn hnew hm) (hn.erase name) hnew' (List.cons_perm_iff_perm_erase.1 hp).2

theorem count_left (h : CutAt links productions pieces) (hn : links.Nodup)
    (hnew : NewTo links productions) (hm : link ∈ links) :
    (pieces.map (·.left)).count link = 1 := by
  have hz : (productions.map (·.left)).count link = 0 := by
    rw [List.count_eq_zero]
    intro hl
    obtain ⟨p, hp, rfl⟩ := List.mem_map.1 hl
    exact hnew _ hm p hp List.mem_cons_self
  rw [h.left_perm.count_eq, List.count_append, hz, List.count_eq_one_of_mem hn hm]

theorem count_right (h : CutAt links productions pieces) (hn : links.Nodup)
    (hnew : NewTo links productions) (hm : link ∈ links) :
    (pieces.flatMap (·.right)).count link = 1 := by
  have hz : (productions.flatMap (·.right)).count link = 0 := by
    rw [List.count_eq_zero]
    intro hr
    obtain ⟨p, hp, hs⟩ := List.mem_flatMap.1 hr
    exact hnew _ hm p hp (List.mem_cons_of_mem _ hs)
  rw [h.right_perm.count_eq, List.count_append, hz, List.count_eq_one_of_mem hn hm]

/-- A piece has the symbols of one production on its right side, and perhaps a link after them. -/
theorem right_cases (h : CutAt links productions pieces) (hq : q ∈ pieces) :
    ∃ p ∈ productions, q.right ⊆ p.right ∨
      ∃ before, before ⊆ p.right ∧ ∃ link ∈ links, q.right = before ++ [link] := by
  induction h with
  | nil => cases hq
  | whole p _ ih =>
    rcases List.mem_cons.1 hq with rfl | hq
    · exact ⟨q, List.mem_cons_self, .inl (List.Subset.refl _)⟩
    · obtain ⟨p', hp, hr⟩ := ih hq
      exact ⟨p', List.mem_cons_of_mem p hp, hr⟩
  | @cut link left links after productions pieces before h ih =>
    rcases List.mem_cons.1 hq with rfl | hq
    · exact ⟨_, List.mem_cons_self, .inr ⟨before, List.subset_append_left before after,
        link, List.mem_cons_self, rfl⟩⟩
    · obtain ⟨p, hp, hr⟩ := ih hq
      have hr' : q.right ⊆ p.right ∨ ∃ before, before ⊆ p.right ∧
          ∃ name ∈ link :: links, q.right = before ++ [name] := by
        apply hr.imp_right
        rintro ⟨before, hb, name, hm, he⟩
        exact ⟨before, hb, name, List.mem_cons_of_mem link hm, he⟩
      rcases List.mem_cons.1 hp with rfl | hp
      · have ha := List.subset_append_right before after
        refine ⟨_, List.mem_cons_self, hr'.imp (fun hs => List.Subset.trans hs ha) ?_⟩
        rintro ⟨first, hb, hm⟩
        exact ⟨first, List.Subset.trans hb ha, hm⟩
      · exact ⟨p, List.mem_cons_of_mem _ hp, hr'⟩

theorem getLast?_right (h : CutAt links productions pieces) (hnew : NewTo links productions)
    (hm : link ∈ links) (hq : q ∈ pieces) (hs : link ∈ q.right) :
    q.right.getLast? = some link := by
  obtain ⟨p, hp, hr | ⟨before, hb, name, _, he⟩⟩ := h.right_cases hq
  · exact absurd (List.mem_cons_of_mem _ (hr hs)) (hnew link hm p hp)
  · rw [he, List.mem_append, List.mem_singleton] at hs
    rcases hs with hs | rfl
    · exact absurd (List.mem_cons_of_mem _ (hb hs)) (hnew link hm p hp)
    · rw [he, List.getLast?_concat]

theorem mem_of_not_mem_links (h : CutAt links productions pieces) (hq : q ∈ pieces)
    (hs : ∀ link ∈ links, link ∉ q.symbols) : q ∈ productions := by
  induction h with
  | nil => cases hq
  | whole p _ ih =>
    rcases List.mem_cons.1 hq with rfl | hq
    · exact List.mem_cons_self
    · exact List.mem_cons_of_mem p (ih hq hs)
  | @cut link left links after productions pieces before h ih =>
    obtain ⟨hl, hs⟩ := List.forall_mem_cons.1 hs
    rcases List.mem_cons.1 hq with rfl | hq
    · have hm : link ∈ before ++ [link] := List.mem_append_right _ List.mem_cons_self
      exact absurd (List.mem_cons_of_mem left hm) hl
    · rcases List.mem_cons.1 (ih hq hs) with rfl | hp
      · exact absurd List.mem_cons_self hl
      · exact List.mem_cons_of_mem _ hp

/-- Cutting makes no two productions equal. -/
theorem nodup (h : CutAt links productions pieces) (hn : links.Nodup)
    (hnew : NewTo links productions) (hp : productions.Nodup) : pieces.Nodup := by
  induction h with
  | nil => exact .nil
  | whole p h ih =>
    obtain ⟨hm, hp⟩ := List.nodup_cons.1 hp
    apply List.nodup_cons.2 ⟨?_, ih hn hnew.tail hp⟩
    intro hq
    exact hm (h.mem_of_not_mem_links hq fun link hl => hnew link hl p List.mem_cons_self)
  | @cut link left links after productions pieces before h ih =>
    obtain ⟨hl, hn'⟩ := List.nodup_cons.1 hn
    have hlink := hnew link List.mem_cons_self
    have hp' : (⟨link, after⟩ :: productions).Nodup :=
      List.nodup_cons.2 ⟨fun hm => hlink _ (List.mem_cons_of_mem _ hm) List.mem_cons_self,
        (List.nodup_cons.1 hp).2⟩
    apply List.nodup_cons.2 ⟨?_, ih hn' (hnew.of_cut hn) hp'⟩
    intro hq
    have hm : link ∈ pieces.flatMap (·.right) :=
      List.mem_flatMap_of_mem hq (List.mem_append_right before List.mem_cons_self)
    rw [h.right_perm.mem_iff, List.flatMap_cons, List.mem_append, List.mem_append] at hm
    rcases hm with (ha | hr) | hm
    · have hs : link ∈ before ++ after := List.mem_append_right before ha
      exact hlink _ List.mem_cons_self (List.mem_cons_of_mem left hs)
    · obtain ⟨p, hp, hs⟩ := List.mem_flatMap.1 hr
      exact hlink p (List.mem_cons_of_mem _ hp) (List.mem_cons_of_mem _ hs)
    · exact hl hm

end CutAt

end PhraseGrammar
