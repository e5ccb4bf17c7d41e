import Mathlib.Tactic

/-!
# Assignments one after the other

A list of assignments changes a function at some places.  Where a place is assigned twice, the later
value counts.  What is there before does not matter at the assigned places, so doing the assignments
again changes nothing.
-/

namespace Barista.Assignments

variable {ι β : Type} [DecidableEq ι]

def assign (list : List (ι × β)) (f : ι → β) : ι → β :=
  list.foldl (fun f pair => Function.update f pair.1 pair.2) f

variable {list : List (ι × β)} {f g : ι → β} {place : ι}

theorem assign_of_notMem (elsewhere : place ∉ list.map Prod.fst) :
    assign list f place = f place := by
  induction list generalizing f with
  | nil => rfl
  | cons pair list ih =>
    rw [List.map_cons, List.mem_cons, not_or] at elsewhere
    exact (ih elsewhere.2).trans (Function.update_of_ne elsewhere.1 _ _)

theorem exists_mem_assign (assigned : place ∈ list.map Prod.fst) :
    ∃ val, (place, val) ∈ list ∧ ∀ f, assign list f place = val := by
  induction list with
  | nil => cases assigned
  | cons pair list ih =>
    by_cases later : place ∈ list.map Prod.fst
    · rcases ih later with ⟨val, mem, same⟩
      exact ⟨val, List.mem_cons_of_mem _ mem, fun f => same _⟩
    · have first : place = pair.1 := by
        rw [List.map_cons, List.mem_cons] at assigned
        exact assigned.resolve_right later
      refine ⟨pair.2, by simp [first], fun f => ?_⟩
      apply (assign_of_notMem later).trans
      rw [first]
      exact Function.update_self _ _ _

theorem assign_congr (assigned : place ∈ list.map Prod.fst) :
    assign list f place = assign list g place := by
  rcases exists_mem_assign assigned with ⟨val, -, same⟩
  rw [same f, same g]

theorem assign_eq_self_iff : assign list f = f ↔
    ∀ place ∈ list.map Prod.fst, assign list f place = f place := by
  constructor
  · intro same place _
    rw [same]
  · intro same
    funext place
    by_cases assigned : place ∈ list.map Prod.fst
    · exact same place assigned
    · exact assign_of_notMem assigned

theorem assign_assign : assign list (assign list f) = assign list f :=
  assign_eq_self_iff.mpr fun _ assigned => assign_congr assigned

end Barista.Assignments
