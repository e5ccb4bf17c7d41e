import Mathlib.Tactic

/-!
# Crews of tasks

Tasks move one at a time over a state they share. An invariant is kept if every move keeps what
its own task and the other tasks assert.
-/

namespace Barista

structure Crew (ι τ σ : Type) where
  locals : ι → τ
  shared : σ

namespace Crew

variable {ι τ σ : Type} [DecidableEq ι]

inductive Step (move : ι → τ → σ → τ → σ → Prop) (crew : Crew ι τ σ) : Crew ι τ σ → Prop
  | move (task : ι) (after : τ) (shared : σ)
      (moves : move task (crew.locals task) crew.shared after shared) :
      Step move crew ⟨Function.update crew.locals task after, shared⟩

def Reaches (move : ι → τ → σ → τ → σ → Prop) : Crew ι τ σ → Crew ι τ σ → Prop :=
  Relation.ReflTransGen (Step move)

theorem Reaches.move {move : ι → τ → σ → τ → σ → Prop} {start crew : Crew ι τ σ}
    (reaches : Reaches move start crew) (task : ι) {post : τ} {shared : σ}
    (moves : move task (crew.locals task) crew.shared post shared) :
    Reaches move start ⟨Function.update crew.locals task post, shared⟩ :=
  reaches.tail (.move task post shared moves)

structure Outline (move : ι → τ → σ → τ → σ → Prop) (Global : σ → Prop)
    (Local : ι → τ → σ → Prop) : Prop where
  global : ∀ {task before shared after shared'}, Global shared → Local task before shared →
    move task before shared after shared' → Global shared'
  own : ∀ {task before shared after shared'}, Global shared → Local task before shared →
    move task before shared after shared' → Local task after shared'
  others : ∀ {task before shared after shared' other present}, Global shared →
    Local task before shared → move task before shared after shared' → other ≠ task →
    Local other present shared → Local other present shared'

structure Holds (Global : σ → Prop) (Local : ι → τ → σ → Prop) (crew : Crew ι τ σ) : Prop where
  global : Global crew.shared
  locals : ∀ task, Local task (crew.locals task) crew.shared

variable {move : ι → τ → σ → τ → σ → Prop} {Global : σ → Prop} {Local : ι → τ → σ → Prop}
  {crew crew' : Crew ι τ σ}

theorem Outline.step (outline : Outline move Global Local) (holds : crew.Holds Global Local)
    (step : Step move crew crew') : crew'.Holds Global Local := by
  rcases step with ⟨task, post, shared, moves⟩
  refine ⟨outline.global holds.global (holds.locals task) moves, ?_⟩
  intro other
  by_cases same : other = task
  · subst same
    simp only [Function.update_self]
    exact outline.own holds.global (holds.locals other) moves
  · simp only [Function.update_of_ne same]
    exact outline.others holds.global (holds.locals task) moves same (holds.locals other)

theorem Outline.holds (outline : Outline move Global Local) (holds : crew.Holds Global Local)
    (reaches : Reaches move crew crew') : crew'.Holds Global Local := by
  induction reaches with
  | refl => exact holds
  | tail _ step ih => exact outline.step ih step

end Crew

end Barista
