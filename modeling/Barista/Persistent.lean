import Mathlib.Tactic

/-!
# Programs whose effects outlive a failure

A program acts on a state and may fail.  What it did to the state before it failed stays done, as
with files on a disk.  A program maintains an invariant if it does so whether it fails or not.  The
rule for loops says when the results of all rounds are still good at the end.
-/

namespace Barista

open List

def Persistent (σ ε α : Type) : Type := σ → Except ε α × σ

namespace Persistent

variable {σ ε δ α β : Type}

instance : Monad (Persistent σ ε) where
  pure value state := (.ok value, state)
  bind program next state :=
    match program state with
    | (.ok value, middle) => next value middle
    | (.error failure, middle) => (.error failure, middle)

def fail (failure : ε) : Persistent σ ε α := fun state => (.error failure, state)

def ofExcept (result : Except ε α) : Persistent σ ε α := fun state => (result, state)

def update (change : σ → σ) : Persistent σ ε Unit := fun state => (.ok (), change state)

variable {prog : Persistent σ ε α} {next : α → Persistent σ ε β} {st last : σ} {inv : σ → Prop}

theorem bind_of_ok {val : α} {mid : σ} (ran : prog st = (.ok val, mid)) :
    (prog >>= next) st = next val mid := by
  simp [bind, ran]

theorem bind_of_error {failure : ε} {mid : σ} (ran : prog st = (.error failure, mid)) :
    (prog >>= next) st = (.error failure, mid) := by
  simp [bind, ran]

theorem bind_eq_ok {val : β} : (prog >>= next) st = (.ok val, last) ↔
      ∃ first mid, prog st = (.ok first, mid) ∧ next first mid = (.ok val, last) := by
  rcases ran : prog st with ⟨_ | first, mid⟩
  · rw [bind_of_error ran]
    simp
  · rw [bind_of_ok ran]
    simp

theorem pure_eq_ok {val other : α} :
    (pure val : Persistent σ ε α) st = (.ok other, last) ↔ val = other ∧ st = last := by
  change (Except.ok val, st) = (Except.ok other, last) ↔ _
  simp

theorem ofExcept_eq_ok {out : Except ε α} {val : α} :
    (ofExcept out : Persistent σ ε α) st = (.ok val, last) ↔ out = .ok val ∧ st = last := by
  simp [ofExcept]

theorem update_eq_ok {change : σ → σ} {val : Unit} :
    (update change : Persistent σ ε Unit) st = (.ok val, last) ↔ change st = last := by
  simp [update]

def Maintains (invariant : σ → Prop) (program : Persistent σ ε α) : Prop :=
  ∀ state, invariant state → invariant (program state).2

namespace Maintains

theorem pure (val : α) : Maintains inv (Pure.pure val : Persistent σ ε α) := fun _ holds => holds

theorem ofExcept (out : Except ε α) : Maintains inv (ofExcept out : Persistent σ ε α) :=
  fun _ holds => holds

theorem bind (first : Maintains inv prog) (rest : ∀ val, Maintains inv (next val)) :
    Maintains inv (prog >>= next) := by
  intro st holds
  have kept := first st holds
  rcases ran : prog st with ⟨failure | val, mid⟩ <;> rw [ran] at kept
  · rw [bind_of_error ran]
    exact kept
  · rw [bind_of_ok ran]
    exact rest val mid kept

theorem ofExcept_bind {out : Except ε α} (rest : ∀ val, out = .ok val → Maintains inv (next val)) :
    Maintains inv (Persistent.ofExcept out >>= next) := by
  intro st holds
  rcases out with _ | val
  · exact holds
  · exact rest val rfl st holds

theorem mapM' {list : List α} {body : α → Persistent σ ε β}
    (rounds : ∀ elem ∈ list, Maintains inv (body elem)) :
    Maintains inv (list.mapM' body) := by
  induction list with
  | nil => exact pure []
  | cons elem list ih =>
    rw [forall_mem_cons] at rounds
    apply bind rounds.1
    intro val
    apply bind (ih rounds.2)
    intro values
    exact pure _

end Maintains

def KeepsOnFailure (invariant : σ → Prop) (program : Persistent σ ε α) : Prop :=
  ∀ state failure last, invariant state → program state = (.error failure, last) → invariant last

theorem Maintains.keepsOnFailure (kept : Maintains inv prog) : KeepsOnFailure inv prog := by
  intro st failure last holds failed
  have final := kept st holds
  rw [failed] at final
  exact final

theorem KeepsOnFailure.bind (first : Maintains inv prog)
    (rest : ∀ val, KeepsOnFailure inv (next val)) :
    KeepsOnFailure inv (prog >>= next) := by
  intro st failure last holds failed
  have kept := first st holds
  rcases ran : prog st with ⟨early | val, mid⟩
  · rw [bind_of_error ran] at failed
    cases failed
    rw [ran] at kept
    exact kept
  · rw [bind_of_ok ran] at failed
    rw [ran] at kept
    exact rest val mid failure last kept failed

theorem KeepsOnFailure.bind_pure (first : KeepsOnFailure inv prog) (val : α → β) :
    KeepsOnFailure inv (prog >>= fun out => pure (val out)) := by
  intro st failure last holds failed
  rcases ran : prog st with ⟨early | out, mid⟩
  · rw [bind_of_error ran] at failed
    cases failed
    exact first st _ _ holds ran
  · rw [bind_of_ok ran] at failed
    cases failed

section Goal

variable {goal : σ → Prop}

end Goal

variable {body : α → Persistent σ ε β} {list : List α} {values : List β}

theorem forall₂_of_mapM' {good : α → β → σ → Prop} {apart : α → α → Prop}
    (round : ∀ elem val pre post, body elem pre = (.ok val, post) → good elem val post)
    (stable : ∀ elem val other st, apart elem other → good elem val st → good
      elem val (body other st).2) (pairwise : list.Pairwise apart)
    (ran : (list.mapM' body) st = (.ok values, last)) :
    Forall₂ (fun elem val => good elem val last) list values := by
  induction list generalizing st values with
  | nil =>
    rw [mapM'_nil, pure_eq_ok] at ran
    rw [← ran.1]
    exact List.Forall₂.nil
  | cons elem list ih =>
    rw [pairwise_cons] at pairwise
    rw [mapM'_cons, bind_eq_ok] at ran
    rcases ran with ⟨val, mid, first, ran⟩
    rcases bind_eq_ok.mp ran with ⟨others, between, rest, ended⟩
    rcases pure_eq_ok.mp ended with ⟨rfl, rfl⟩
    refine List.Forall₂.cons ?_ (ih pairwise.2 rest)
    have maintained : Maintains (good elem val) (list.mapM' body) := by
      apply Maintains.mapM'
      intro other mem st holds
      exact stable elem val other st (pairwise.1 other mem) holds
    have kept := maintained mid (round elem val st mid first)
    rw [rest] at kept
    exact kept

theorem forall₂_of_maintains {good : α → β → Prop} {inv : σ → Prop}
    (keeps : ∀ elem ∈ list, Maintains inv (body elem))
    (round : ∀ elem ∈ list, ∀ val pre post, inv pre → body elem pre = (.ok
      val, post) → good elem val) (holds : inv st)
    (ran : (list.mapM' body) st = (.ok values, last)) :
    Forall₂ good list values := by
  induction list generalizing st values with
  | nil =>
    rw [mapM'_nil, pure_eq_ok] at ran
    rw [← ran.1]
    exact List.Forall₂.nil
  | cons elem list ih =>
    rw [forall_mem_cons] at keeps round
    rw [mapM'_cons, bind_eq_ok] at ran
    rcases ran with ⟨val, mid, first, ran⟩
    rcases bind_eq_ok.mp ran with ⟨others, between, rest, ended⟩
    rcases pure_eq_ok.mp ended with ⟨rfl, rfl⟩
    have kept := keeps.1 st holds
    rw [first] at kept
    exact List.Forall₂.cons (round.1 val st mid holds first) (ih keeps.2 round.2 kept rest)

theorem forall_of_mapM' {good : α → σ → Prop} {apart : α → α → Prop}
    (round : ∀ elem val pre post, body elem pre = (.ok val, post) → good elem post)
    (stable : ∀ elem other st, apart elem other → good elem st → good elem (body
      other st).2) (pairwise : list.Pairwise apart)
    (ran : (list.mapM' body) st = (.ok values, last)) :
    ∀ elem ∈ list, good elem last := by
  have all : Forall₂ (fun elem _ => good elem last) list values :=
    forall₂_of_mapM' round (fun elem _ => stable elem) pairwise ran
  intro elem mem
  rcases getElem_of_mem mem with ⟨idx, bound, rfl⟩
  exact all.get bound (all.length_eq ▸ bound)

theorem exists_mapM'_eq_ok (inv : σ → Prop) (holds : inv st)
    (round : ∀ elem ∈ list, ∀ pre, inv pre → ∃ val post, body elem pre =
      (.ok val, post) ∧ inv post) :
    ∃ values last, (list.mapM' body) st = (.ok values, last) := by
  induction list generalizing st with
  | nil => exact ⟨[], st, rfl⟩
  | cons elem list ih =>
    rw [forall_mem_cons] at round
    rcases round.1 st holds with ⟨val, mid, first, kept⟩
    rcases ih kept round.2 with ⟨values, last, rest⟩
    refine ⟨val :: values, last, ?_⟩
    rw [mapM'_cons, bind_of_ok first, bind_of_ok rest]
    rfl

end Persistent

end Barista
