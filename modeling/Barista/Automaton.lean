import Mathlib.Tactic

/-!
# Automata whose acts may be forbidden

An automaton is a partial step function.  A run is allowed if each of its acts is, in the state in
which it is taken.  A concrete automaton simulates an abstract one if each of its steps is a step
of the abstract one or keeps the abstract state.
-/

namespace Barista.Automaton

variable {σ α : Type}

inductive Reaches (step : σ → α → Option σ) (allowed : σ → α → Prop) (start : σ) : σ → Prop
  | refl : Reaches step allowed start start
  | step {middle last : σ} (earlier : Reaches step allowed start middle) (act : α)
      (meets : allowed middle act) (taken : step middle act = some last) :
      Reaches step allowed start last

variable {step : σ → α → Option σ} {allowed : σ → α → Prop} {start st st' : σ}

theorem Reaches.trans {mid last : σ} (first : Reaches step allowed start mid)
    (second : Reaches step allowed mid last) : Reaches step allowed start last := by
  induction second with
  | refl => exact first
  | step _ act meets taken ih => exact ih.step act meets taken

section Runs

variable (reaches : Reaches step allowed start st)

include reaches

theorem Reaches.keeps {property : σ → Prop} (first : property start)
    (next : ∀ st act st', property st → allowed st act → step st act = some st' → property st') :
    property st := by
  induction reaches with
  | refl => exact first
  | step _ act meets taken ih => exact next _ act _ ih meets taken

def run (step : σ → α → Option σ) (allowed : σ → α → Prop)
    [∀ state act, Decidable (allowed state act)] (state : σ) : List α → Option σ
  | [] => some state
  | act :: acts =>
    if allowed state act then (step state act).bind fun next => run step allowed next acts
    else none

theorem Reaches.run [∀ st act, Decidable (allowed st act)] {acts : List α}
    (runs : run step allowed st acts = some st') : Reaches step allowed start st' := by
  induction acts generalizing st with
  | nil =>
    cases runs
    exact reaches
  | cons act acts ih =>
    simp only [Automaton.run, Option.ite_none_right_eq_some] at runs
    rcases Option.bind_eq_some_iff.mp runs.2 with ⟨mid, taken, rest⟩
    exact ih (reaches.step act runs.1 taken) rest

omit reaches in
theorem run_append [∀ st act, Decidable (allowed st act)] (acts more : List α) :
    run step allowed st (acts ++ more) =
      (run step allowed st acts).bind fun mid => run step allowed mid more := by
  induction acts generalizing st with
  | nil => rfl
  | cons act acts ih =>
    simp only [List.cons_append, Automaton.run]
    split_ifs
    · rw [Option.bind_assoc]
      congr
      funext next
      exact ih
    · rfl

theorem Reaches.follow {acts : List α} (always : ∀ act ∈ acts, ∀ st, allowed st act)
    (runs : Automaton.run step (fun _ _ => True) st acts = some st') :
    Reaches step allowed start st' := by
  induction acts generalizing st with
  | nil =>
    cases runs
    exact reaches
  | cons act acts ih =>
    rw [List.forall_mem_cons] at always
    rcases Option.bind_eq_some_iff.mp runs with ⟨mid, taken, rest⟩
    exact ih (reaches.step act (always.1 st) taken) always.2 rest

end Runs

end Barista.Automaton
