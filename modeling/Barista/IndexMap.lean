import Mathlib.Tactic

/-!
# Maps that keep the order of insertion

A list of entries without repeated keys.  A key that is inserted again keeps its place.
-/

namespace Barista

open List

structure IndexMap (κ ν : Type) where
  entries : List (κ × ν)
  distinct : (entries.map Prod.fst).Nodup
  deriving DecidableEq

namespace IndexMap

variable {κ ν : Type} [DecidableEq κ] {map : IndexMap κ ν} {key other : κ} {val : ν}

instance : EmptyCollection (IndexMap κ ν) := ⟨⟨[], nodup_nil⟩⟩

def get? (map : IndexMap κ ν) (key : κ) : Option ν :=
  (map.entries.find? fun entry => entry.1 = key).map Prod.snd

variable (entries : List (κ × ν))

def replace (key : κ) (value : ν) : List (κ × ν) :=
  entries.map fun entry => if entry.1 = key then (key, value) else entry

theorem map_fst_replace (key : κ) (val : ν) :
    (replace entries key val).map Prod.fst = entries.map Prod.fst := by
  rw [replace, map_map]
  apply map_congr_left
  intro entry _
  by_cases same : entry.1 = key <;> simp [same]

def insert (map : IndexMap κ ν) (key : κ) (value : ν) : IndexMap κ ν :=
  if known : key ∈ map.entries.map Prod.fst then
    { entries := replace map.entries key value
      distinct := by
        rw [map_fst_replace]
        exact map.distinct }
  else
    { entries := map.entries ++ [(key, value)]
      distinct := by
        rw [map_append, nodup_append]
        refine ⟨map.distinct, nodup_singleton _, ?_⟩
        intro old oldMem new newMem same
        rw [same, mem_singleton.mp newMem] at oldMem
        exact known oldMem }

def insertIfNew (map : IndexMap κ ν) (key : κ) (value : ν) : IndexMap κ ν :=
  if key ∈ map.entries.map Prod.fst then map else map.insert key value

def extend (map : IndexMap κ ν) (entries : List (κ × ν)) : IndexMap κ ν :=
  entries.foldl (fun map entry => map.insert entry.1 entry.2) map

@[simp]
theorem get?_empty (key : κ) : (∅ : IndexMap κ ν).get? key = none := rfl

theorem get?_isSome : (map.get? key).isSome ↔ key ∈ map.entries.map Prod.fst := by
  simp [get?]

theorem find?_replace_self (key : κ) (val : ν) (known : key ∈ entries.map Prod.fst) :
    ((replace entries key val).find? fun entry => entry.1 = key) = some (key, val) := by
  induction entries with
  | nil => cases known
  | cons head tail ih =>
    by_cases same : head.1 = key
    · simp [replace, same]
    · have later : key ∈ tail.map Prod.fst := by
        rcases mem_cons.mp known with isHead | later
        · exact absurd isHead.symm same
        · exact later
      have rest := ih later
      rw [replace] at rest ⊢
      simp [same, rest]

theorem find?_replace_of_ne (val : ν) (differs : other ≠ key) :
    ((replace entries key val).find? fun entry => entry.1 = other) =
      entries.find? fun entry => entry.1 = other := by
  induction entries with
  | nil => rfl
  | cons head tail ih =>
    rw [replace] at ih ⊢
    by_cases same : head.1 = key
    · simp [same, Ne.symm differs, ih]
    · simp [same, find?_cons, ih]

theorem get?_insert_self : (map.insert key val).get? key = some val := by
  unfold insert get?
  split_ifs with known
  · rw [find?_replace_self _ _ _ known]
    rfl
  · have absent : (map.entries.find? fun entry => entry.1 = key) = none := by
      rw [find?_eq_none]
      intro entry mem same
      exact known (mem_map.mpr ⟨entry, mem, by simpa using same⟩)
    simp [find?_append, absent]

theorem get?_insert_of_ne (differs : other ≠ key) :
    (map.insert key val).get? other = map.get? other := by
  unfold insert get?
  split_ifs
  · rw [find?_replace_of_ne _ _ differs]
  · simp [find?_append, Ne.symm differs]

theorem get?_insert :
    (map.insert key val).get? other = if other = key then some val else map.get? other := by
  split_ifs with same
  · rw [same, get?_insert_self]
  · exact get?_insert_of_ne same

theorem get?_insertIfNew : (map.insertIfNew key val).get? other =
      (map.get? other).or (if other = key then some val else none) := by
  by_cases known : key ∈ map.entries.map Prod.fst
  · rw [insertIfNew, if_pos known]
    rcases Option.isSome_iff_exists.mp (get?_isSome.mpr known) with ⟨old, found⟩
    by_cases same : other = key <;> simp [same, found]
  · rw [insertIfNew, if_neg known, get?_insert]
    have absent : map.get? key = none := by
      rw [← Option.not_isSome_iff_eq_none, get?_isSome]
      exact known
    by_cases same : other = key <;> simp [same, absent]

theorem get?_extend (map other : IndexMap κ ν) (key : κ) :
    (map.extend other.entries).get? key = (other.get? key).or (map.get? key) := by
  have step : ∀ (entries : List (κ × ν)) (map : IndexMap κ ν), (entries.map Prod.fst).Nodup →
      (map.extend entries).get? key =
        ((entries.find? fun entry => entry.1 = key).map Prod.snd).or (map.get? key) := by
    intro entries
    induction entries with
    | nil => exact fun _ _ => rfl
    | cons head tail ih =>
      intro map distinct
      rw [map_cons, nodup_cons] at distinct
      have extended : map.extend (head :: tail) = (map.insert head.1 head.2).extend tail := rfl
      rw [extended, ih _ distinct.2]
      by_cases same : head.1 = key
      · have absent : (tail.find? fun entry => entry.1 = key) = none := by
          rw [find?_eq_none]
          intro entry mem found
          apply distinct.1
          rw [same, ← of_decide_eq_true found]
          exact mem_map_of_mem mem
        rw [absent, ← same, get?_insert_self, find?_cons_of_pos (by simp)]
        rfl
      · rw [get?_insert_of_ne (Ne.symm same), find?_cons_of_neg (by simp [same])]
  exact step other.entries map other.distinct

end IndexMap

end Barista
