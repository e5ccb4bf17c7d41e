import Mathlib.Tactic

/-!
# Programs in lockstep

Two runs of one program from related states give one outcome and related states again.
-/

namespace Barista

variable {σ ε α β : Type} {related : σ → σ → Prop} {prog : StateT σ (Except ε) α}
  {next : α → StateT σ (Except ε) β} {st st' : σ} {out : Except ε (α × σ)} {ans : Except ε α}

theorem run_bind_eq_ok {val : β} :
    (prog >>= next).run st = .ok (val, st') ↔ ∃ mid between, prog.run st = .ok (mid, between) ∧
        (next mid).run between = .ok (val, st') := by
  rw [StateT.run_bind]
  rcases prog.run st with _ | pair
  · constructor
    · intro ret
      cases ret
    · rintro ⟨mid, between, ret, -⟩
      cases ret
  · constructor
    · intro ret
      exact ⟨pair.1, pair.2, rfl, ret⟩
    · rintro ⟨mid, between, same, ret⟩
      cases same
      exact ret

inductive Outcome (related : σ → σ → Prop) : Except ε (α × σ) → Except ε (α × σ) → Prop
  | ok (value : α) {left right : σ} :
      related left right → Outcome related (.ok (value, left)) (.ok (value, right))
  | error (error : ε) : Outcome related (.error error) (.error error)

def Lockstep (related : σ → σ → Prop) (program : StateT σ (Except ε) α) : Prop :=
  ∀ left right, related left right → Outcome related (program.run left) (program.run right)

def Keeps (invariant : σ → Prop) (program : StateT σ (Except ε) α) : Prop :=
  ∀ state value state', invariant state → program.run state = .ok (value, state') → invariant state'

namespace Lockstep

theorem pure (val : α) : Lockstep related (Pure.pure val : StateT σ (Except ε) α) := by
  intro left right same
  exact Outcome.ok val same

theorem throw (err : ε) : Lockstep related (MonadExcept.throw err : StateT σ (Except ε) α) := by
  intro left right _
  exact Outcome.error err

theorem bind (first : Lockstep related prog) (rest : ∀ val, Lockstep related (next val)) :
    Lockstep related (prog >>= next) := by
  intro left right same
  rw [StateT.run_bind, StateT.run_bind]
  have ran := first left right same
  generalize prog.run left = leftResult at ran ⊢
  generalize prog.run right = rightResult at ran ⊢
  cases ran with
  | ok val same' => exact rest val _ _ same'
  | error err => exact Outcome.error err

theorem read {view : σ → α} (same : ∀ left right, related left right → view left = view right) :
    Lockstep related (do return view (← get) : StateT σ (Except ε) α) := by
  intro left right holds
  have equal := same left right holds
  change Outcome related (.ok (view left, left)) (.ok (view right, right))
  rw [equal]
  exact Outcome.ok _ holds

theorem modify {change : σ → σ}
    (keeps : ∀ left right, related left right → related (change left) (change right)) :
    Lockstep related (modify change : StateT σ (Except ε) Unit) := by
  intro left right holds
  exact Outcome.ok () (keeps left right holds)

end Lockstep

namespace Keeps

variable {inv : σ → Prop}

theorem pure (val : α) : Keeps inv (Pure.pure val : StateT σ (Except ε) α) := by
  intro st value' st' holds ret
  cases ret
  exact holds

theorem throw (err : ε) : Keeps inv (MonadExcept.throw err : StateT σ (Except ε) α) := by
  intro st val st' _ ret
  cases ret

theorem bind (first : Keeps inv prog) (rest : ∀ val, Keeps inv (next val)) :
    Keeps inv (prog >>= next) := by
  intro st val st' holds ret
  rw [StateT.run_bind] at ret
  rcases ran : prog.run st with _ | pair <;> rw [ran] at ret
  · cases ret
  · exact rest pair.1 pair.2 val st' (first st pair.1 pair.2 holds ran) ret

theorem read (view : σ → α) : Keeps inv (do return view (← get) : StateT σ (Except ε) α) := by
  intro st val st' holds ret
  cases ret
  exact holds

theorem modify {change : σ → σ} (keeps : ∀ st, inv st → inv (change st)) :
    Keeps inv (modify change : StateT σ (Except ε) Unit) := by
  intro st val st' holds ret
  cases ret
  exact keeps st holds

end Keeps

structure Steady (related : σ → σ → Prop) (program : StateT σ (Except ε) α) : Prop where
  lockstep : Lockstep related program
  keeps : ∀ left, Keeps (related left) program

namespace Steady

theorem pure (val : α) : Steady related (Pure.pure val : StateT σ (Except ε) α) :=
  ⟨Lockstep.pure val, fun _ => Keeps.pure val⟩

theorem throw (err : ε) : Steady related (MonadExcept.throw err : StateT σ (Except ε) α) :=
  ⟨Lockstep.throw err, fun _ => Keeps.throw err⟩

theorem bind (first : Steady related prog) (rest : ∀ val, Steady related (next val)) :
    Steady related (prog >>= next) where
  lockstep := first.lockstep.bind fun val => (rest val).lockstep
  keeps := fun left => (first.keeps left).bind fun val => (rest val).keeps left

theorem read {view : σ → α} (same : ∀ left right, related left right → view left = view right) :
    Steady related (do return view (← get) : StateT σ (Except ε) α) :=
  ⟨Lockstep.read same, fun _ => Keeps.read view⟩

theorem modify {change : σ → σ}
    (both : ∀ left right, related left right → related (change left) (change right))
    (alone : ∀ left right, related left right → related left (change right)) :
    Steady related (modify change : StateT σ (Except ε) Unit) :=
  ⟨Lockstep.modify both, fun left => Keeps.modify (alone left)⟩

end Steady

inductive Answered (related : σ → σ → Prop) (state : σ) : Except ε α → Except ε (α × σ) → Prop
  | ok (value : α) {state' : σ} :
      related state state' → Answered related state (.ok value) (.ok (value, state'))
  | error (error : ε) : Answered related state (.error error) (.error error)

theorem Answered.map_fst (answered : Answered related st ans out) : out.map Prod.fst = ans := by
  cases answered with
  | ok val holds => rfl
  | error err => rfl

inductive Returns (related : σ → σ → Prop) (state : σ) : Option α → Except ε (α × σ) → Prop
  | ok (value : α) {state' : σ} :
      related state state' → Returns related state (some value) (.ok (value, state'))
  | error (error : ε) : Returns related state none (.error error)

namespace Returns

theorem of_answered (answered : Answered related st ans out) :
    Returns related st ans.toOption out := by
  cases answered with
  | ok val holds => exact ok val holds
  | error failure => exact error failure

theorem bind (equivalence : Equivalence related) {want : Option α} {further : α → Option β}
    (first : Returns related st want (prog.run st))
    (rest : ∀ val st', related st st' → Returns related st' (further val) ((next val).run st')) :
    Returns related st (want.bind further) ((prog >>= next).run st) := by
  rw [StateT.run_bind]
  generalize prog.run st = out at first ⊢
  cases first with
  | error failure => exact error failure
  | @ok val st' holds =>
    change Returns related st (further val) ((next val).run st')
    have ran := rest val st' holds
    generalize further val = expected' at ran ⊢
    generalize (next val).run st' = result' at ran ⊢
    cases ran with
    | ok value' holds' => exact ok value' (equivalence.trans holds holds')
    | error failure => exact error failure

theorem exists_ok_iff {want : Option α} {val : α}
    (returns : Returns related st want out) : (∃ st', out = .ok (val, st')) ↔ want = some val := by
  cases returns with
  | ok value' holds =>
    constructor
    · rintro ⟨st', same⟩
      cases same
      rfl
    · rintro ⟨⟩
      exact ⟨_, rfl⟩
  | error failure => simp

end Returns

theorem Steady.of_answered (equivalence : Equivalence related) {ans : σ → Except ε α}
    (same : ∀ left right, related left right → ans left = ans right)
    (answered : ∀ st, Answered related st (ans st) (prog.run st)) :
    Steady related prog where
  lockstep := by
    intro left right holds
    have leftRan := answered left
    have rightRan := answered right
    rw [← same left right holds] at rightRan
    generalize ans left = ans at leftRan rightRan
    generalize prog.run left = leftResult at leftRan ⊢
    generalize prog.run right = rightResult at rightRan ⊢
    cases leftRan with
    | ok val leftRelated =>
      cases rightRan with
      | ok val rightRelated =>
        exact Outcome.ok val (equivalence.trans (equivalence.symm leftRelated)
            (equivalence.trans holds rightRelated))
    | error err =>
      cases rightRan with
      | error err => exact Outcome.error err
  keeps := by
    intro left st val st' holds ret
    have ran := answered st
    rw [ret] at ran
    generalize ans st = ans at ran
    cases ran with
    | ok val related' => exact equivalence.trans holds related'

structure Compositional (judges : (α : Type) → StateT σ (Except ε) α → Prop) : Prop where
  pure : ∀ {α : Type} (value : α), judges α (Pure.pure value)
  throw : ∀ {α : Type} (error : ε), judges α (MonadExcept.throw error)
  bind : ∀ {α β : Type} {program : StateT σ (Except ε) α} {next : α → StateT σ (Except ε) β},
    judges α program → (∀ value, judges β (next value)) → judges β (program >>= next)

theorem compositional_lockstep (related : σ → σ → Prop) :
    Compositional fun α (prog : StateT σ (Except ε) α) => Lockstep related prog where
  pure := Lockstep.pure
  throw := Lockstep.throw
  bind := Lockstep.bind

theorem compositional_keeps (inv : σ → Prop) :
    Compositional fun α (prog : StateT σ (Except ε) α) => Keeps inv prog where
  pure := Keeps.pure
  throw := Keeps.throw
  bind := Keeps.bind

theorem compositional_steady (related : σ → σ → Prop) :
    Compositional fun α (prog : StateT σ (Except ε) α) => Steady related prog where
  pure := Steady.pure
  throw := Steady.throw
  bind := Steady.bind

end Barista
