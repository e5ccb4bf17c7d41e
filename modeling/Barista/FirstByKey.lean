import Mathlib.Tactic

/-!
# First occurrences

The elements of a list may have keys.  `firsts` goes through a list and keeps an element if
it has a key that no element before it had.
-/

namespace Barista

open List

variable {α κ : Type} [DecidableEq κ] (key : α → Option κ)

def keepFirst (kept : List α) (element : α) : List α :=
  match key element with
  | none => kept
  | some found =>
    if kept.any (fun other => key other == some found) then kept else kept ++ [element]

def firsts (list : List α) : List α := list.foldl (keepFirst key) []

variable {key} {list : List α} {elem : α}

@[simp]
theorem firsts_concat (list : List α) (elem : α) :
    firsts key (list ++ [elem]) = keepFirst key (firsts key list) elem := by
  simp [firsts, foldl_append]

theorem keepFirst_of_none (kept : List α) (without : key elem = none) :
    keepFirst key kept elem = kept := by
  simp [keepFirst, without]

variable {found : κ}

theorem keepFirst_of_known {kept : List α} (has : key elem = some found)
    (known : ∃ other ∈ kept, key other = some found) : keepFirst key kept elem = kept := by
  simp [keepFirst, has, known]

theorem keepFirst_of_new {kept : List α} (has : key elem = some found)
    (new : ∀ other ∈ kept, key other ≠ some found) :
    keepFirst key kept elem = kept ++ [elem] := by
  simpa [keepFirst, has] using new

theorem find?_firsts (list : List α) (wanted : κ) :
    (firsts key list).find? (fun other => key other == some wanted) =
      list.find? fun other => key other == some wanted := by
  induction list using List.reverseRecOn with
  | nil => rfl
  | append_singleton list elem ih =>
    rw [firsts_concat, find?_append, ← ih]
    rcases has : key elem with _ | found
    · simp [keepFirst_of_none _ has, has]
    · by_cases known : ∃ other ∈ firsts key list, key other = some found
      · rw [keepFirst_of_known has known]
        by_cases same : found = wanted
        · subst same
          rcases known with ⟨other, mem, otherKey⟩
          have hit : ((firsts key list).find? fun other => key other == some found).isSome := by
            rw [find?_isSome]
            exact ⟨other, mem, by simp [otherKey]⟩
          rcases Option.isSome_iff_exists.mp hit with ⟨first, hit⟩
          simp [hit]
        · simp [has, same]
      · push Not at known
        rw [keepFirst_of_new has known, find?_append]

theorem mem_of_mem_firsts (mem : elem ∈ firsts key list) : elem ∈ list := by
  induction list using List.reverseRecOn with
  | nil => exact mem
  | append_singleton list last ih =>
    rw [firsts_concat, keepFirst] at mem
    split at mem
    · exact mem_append_left _ (ih mem)
    · split at mem
      · exact mem_append_left _ (ih mem)
      · rcases mem_append.mp mem with old | new
        · exact mem_append_left _ (ih old)
        · exact mem_append_right _ new

theorem exists_key_of_mem_firsts (mem : elem ∈ firsts key list) :
    ∃ found, key elem = some found := by
  induction list using List.reverseRecOn with
  | nil => cases mem
  | append_singleton list last ih =>
    rcases has : key last with _ | found
    · rw [firsts_concat, keepFirst_of_none _ has] at mem
      exact ih mem
    · by_cases known : ∃ other ∈ firsts key list, key other = some found
      · rw [firsts_concat, keepFirst_of_known has known] at mem
        exact ih mem
      · push Not at known
        rw [firsts_concat, keepFirst_of_new has known] at mem
        rcases mem_append.mp mem with old | new
        · exact ih old
        · rw [mem_singleton.mp new]
          exact ⟨found, has⟩

theorem firsts_prefix_append (list more : List α) :
    firsts key list <+: firsts key (list ++ more) := by
  induction more using List.reverseRecOn with
  | nil => simp
  | append_singleton more last ih =>
    rw [← append_assoc, firsts_concat, keepFirst]
    split
    · exact ih
    · split
      · exact ih
      · exact ih.trans (prefix_append _ _)

theorem exists_mem_firsts (mem : elem ∈ list) (has : key elem = some found) :
    ∃ first ∈ firsts key list, key first = some found := by
  have hit : (list.find? fun other => key other == some found).isSome := by
    rw [find?_isSome]
    exact ⟨elem, mem, by simp [has]⟩
  rw [← find?_firsts] at hit
  rcases Option.isSome_iff_exists.mp hit with ⟨first, hit⟩
  exact ⟨first, mem_of_find?_eq_some hit, by simpa using find?_some hit⟩

theorem firsts_sublist (list : List α) : (firsts key list).Sublist list := by
  induction list using List.reverseRecOn with
  | nil => exact List.Sublist.slnil
  | append_singleton list last ih =>
    rw [firsts_concat, keepFirst]
    split
    · exact ih.trans (sublist_append_left _ _)
    · split
      · exact ih.trans (sublist_append_left _ _)
      · exact ih.append (List.Sublist.refl _)

theorem firsts_congr {other : α → Option κ} (same : ∀ elem ∈ list, key elem = other elem) :
    firsts key list = firsts other list := by
  induction list using List.reverseRecOn with
  | nil => rfl
  | append_singleton list last ih =>
    have pre : ∀ elem ∈ list, key elem = other elem :=
      fun elem mem => same elem (mem_append_left _ mem)
    have kept : ∀ elem ∈ firsts other list, key elem = other elem :=
      fun elem mem => pre elem (mem_of_mem_firsts mem)
    have sameLast : key last = other last := same last (by simp)
    rw [firsts_concat, firsts_concat, ih pre, keepFirst, keepFirst, sameLast]
    rcases has : other last with _ | found
    · rfl
    · have sameTest : (firsts other list).any (fun elem => key elem == some found) =
          (firsts other list).any fun elem => other elem == some found := by
        rw [Bool.eq_iff_iff, any_eq_true, any_eq_true]
        constructor
        · rintro ⟨elem, mem, has⟩
          exact ⟨elem, mem, by rwa [← kept elem mem]⟩
        · rintro ⟨elem, mem, has⟩
          exact ⟨elem, mem, by rwa [kept elem mem]⟩
      simp only [sameTest]

theorem firsts_map {β : Type} (f : β → α) (list : List β) :
    firsts key (list.map f) = (firsts (fun elem => key (f elem)) list).map f := by
  induction list using List.reverseRecOn with
  | nil => rfl
  | append_singleton list last ih =>
    rw [map_append, map_singleton, firsts_concat, firsts_concat, ih, keepFirst, keepFirst]
    rcases key (f last) with _ | _
    · rfl
    · simp only [any_map, Function.comp_def]
      split
      · rfl
      · rw [map_append, map_singleton]

theorem nodup_firsts (list : List α) : ((firsts key list).map key).Nodup := by
  induction list using List.reverseRecOn with
  | nil => exact List.Pairwise.nil
  | append_singleton list elem ih =>
    rcases has : key elem with _ | found
    · rwa [firsts_concat, keepFirst_of_none _ has]
    · rw [firsts_concat]
      by_cases known : ∃ other ∈ firsts key list, key other = some found
      · rwa [keepFirst_of_known has known]
      · push Not at known
        rw [keepFirst_of_new has known, map_append, nodup_append]
        refine ⟨ih, nodup_singleton _, ?_⟩
        intro old oldMem new newMem same
        rcases mem_map.mp oldMem with ⟨other, otherMem, otherKey⟩
        refine known other otherMem ?_
        rw [otherKey, same, mem_singleton.mp newMem, has]

theorem find?_of_nodup {ν : Type} [BEq ν] [LawfulBEq ν] {name : α → ν}
    (distinct : (list.map name).Nodup) (mem : elem ∈ list) :
    list.find? (fun other => name other == name elem) = some elem := by
  induction list with
  | nil => cases mem
  | cons head tail ih =>
    rw [map_cons, nodup_cons] at distinct
    rcases mem_cons.mp mem with rfl | later
    · simp
    · have differs : name head ≠ name elem := by
        intro same
        exact distinct.1 (same ▸ mem_map_of_mem later)
      rw [find?_cons_of_neg (by simpa using differs), ih distinct.2 later]

theorem find?_of_mem_firsts (mem : elem ∈ firsts key list) (has : key elem = some found) :
    list.find? (fun other => key other == some found) = some elem := by
  rw [← find?_firsts, ← has]
  exact find?_of_nodup (nodup_firsts list) mem

end Barista
