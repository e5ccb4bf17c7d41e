import Mathlib.Tactic

/-!
# Interleaved programs

Programs send requests to a state they share, in any order of their steps. A discipline says what
each holds, and which answers it may rely on.
-/

namespace Barista

open Function

inductive Program (Call : Type) (Answer : Call → Type) (α : Type) where
  | done (value : α)
  | call (call : Call) (next : Answer call → Program Call Answer α)

variable {Call : Type} {Answer : Call → Type} {α β : Type}

namespace Program

def bind : Program Call Answer α → (α → Program Call Answer β) → Program Call Answer β
  | done value, next => next value
  | call question continue', next => call question fun answer => (continue' answer).bind next

instance : Monad (Program Call Answer) where
  pure := done
  bind := bind

def request (question : Call) : Program Call Answer (Answer question) := call question done

end Program

structure Discipline (Call : Type) (Answer : Call → Type) (Record : Type) where
  Permits : Record → Call → Prop
  Moves : Record → (question : Call) → Answer question → Record → Prop

section Follows

variable {Record : Type} (discipline : Discipline Call Answer Record)

def Follows (post : Record → α → Prop) : Program Call Answer α → Record → Prop
  | .done value, record => post record value
  | .call question next, record =>
    discipline.Permits record question ∧
      ∀ answer moved, discipline.Moves record question answer moved →
        Follows post (next answer) moved

variable {discipline} {post : Record → α → Prop} {record : Record}

theorem follows_pure {val : α} (holds : post record val) :
    Follows discipline post (pure val) record := holds

theorem Follows.mono {weaker : Record → α → Prop} {prog : Program Call Answer α}
    (follows : Follows discipline post prog record)
    (weaken : ∀ last val, post last val → weaker last val) :
    Follows discipline weaker prog record := by
  induction prog generalizing record with
  | done val => exact weaken _ _ follows
  | call query next ih =>
    exact ⟨follows.1, fun ans moved moves => ih ans (follows.2 ans moved moves)⟩

theorem Follows.bind {between : Record → β → Prop} {prog : Program Call Answer β}
    {next : β → Program Call Answer α} (follows : Follows discipline between prog record)
    (later : ∀ last val, between last val → Follows discipline post (next val) last) :
    Follows discipline post (prog >>= next) record := by
  induction prog generalizing record with
  | done val => exact later _ _ follows
  | call query continue' ih =>
    exact ⟨follows.1, fun ans moved moves => ih ans (follows.2 ans moved moves)⟩

end Follows

structure Pool (ι σ : Type) (Call : Type) (Answer : Call → Type) (α : Type) where
  tasks : ι → Option (Program Call Answer α)
  state : σ

namespace Pool

variable {ι σ Record : Type} [DecidableEq ι]

inductive Step (effect : (question : Call) → σ → Answer question → σ → Prop)
    (starts : Program Call Answer α → Prop) (pool : Pool ι σ Call Answer α) :
    Pool ι σ Call Answer α → Prop
  | start (name : ι) (program : Program Call Answer α) (free : pool.tasks name = none)
      (allowed : starts program) :
      Step effect starts pool ⟨update pool.tasks name (some program), pool.state⟩
  | call (name : ι) (question : Call) (next : Answer question → Program Call Answer α)
      (answer : Answer question) (state : σ)
      (turn : pool.tasks name = some (.call question next))
      (acts : effect question pool.state answer state) :
      Step effect starts pool ⟨update pool.tasks name (some (next answer)), state⟩
  | stop (left : ι → Option (Program Call Answer α))
      (fewer : ∀ name, left name = pool.tasks name ∨ left name = none) :
      Step effect starts pool ⟨left, pool.state⟩

def Reaches (effect : (question : Call) → σ → Answer question → σ → Prop)
    (starts : Program Call Answer α → Prop) :
    Pool ι σ Call Answer α → Pool ι σ Call Answer α → Prop :=
  Relation.ReflTransGen (Step effect starts)

variable (discipline : Discipline Call Answer Record)

structure Upholds (effect : (question : Call) → σ → Answer question → σ → Prop) (blank : Record)
    (Invariant : (ι → Record) → σ → Prop) : Prop where
  call : ∀ {records state name question answer state'}, Invariant records state →
    discipline.Permits (records name) question → effect question state answer state' →
    ∃ moved, discipline.Moves (records name) question answer moved ∧
      Invariant (update records name moved) state'
  forget : ∀ {records state} (name : ι), Invariant records state →
    Invariant (update records name blank) state

structure Settled (post : Record → α → Prop)
    (Invariant : (ι → Record) → σ → Prop) (pool : Pool ι σ Call Answer α)
    (records : ι → Record) : Prop where
  invariant : Invariant records pool.state
  follows : ∀ {name program}, pool.tasks name = some program →
    Follows discipline post program (records name)

variable {discipline : Discipline Call Answer Record}
  {effect : (query : Call) → σ → Answer query → σ → Prop} {blank : Record}
  {Invariant : (ι → Record) → σ → Prop} {starts : Program Call Answer α → Prop}
  {post : Record → α → Prop} {pool pool' : Pool ι σ Call Answer α} {recs : ι → Record}

theorem follows_update {tasks : ι → Option (Program Call Answer α)} {name : ι}
    {prog : Program Call Answer α} {moved : Record}
    (others : ∀ {other prog}, tasks other = some prog → Follows discipline post prog (recs other))
    (follows : Follows discipline post prog moved) {other : ι} {program' : Program Call Answer α}
    (present : update tasks name (some prog) other = some program') :
    Follows discipline post program' (update recs name moved other) := by
  by_cases same : other = name
  · subst same
    rw [update_self, Option.some.injEq] at present
    rw [update_self]
    exact present ▸ follows
  · rw [update_of_ne same] at present ⊢
    exact others present

section Settled

variable (upholds : Upholds discipline effect blank Invariant)
  (disciplined : ∀ prog, starts prog → Follows discipline post prog blank)
  (settled : Settled discipline post Invariant pool recs)

include upholds disciplined settled

theorem Settled.step (step : Step effect starts pool pool') :
    ∃ records', Settled discipline post Invariant pool' records' ∧
      ∀ name val, pool.tasks name = some (.done val) →
        records' name = recs name ∨ pool'.state = pool.state := by
  cases step with
  | start name prog free allowed =>
    refine ⟨update recs name blank, ⟨?_, ?_⟩, fun _ _ _ => .inr rfl⟩
    · exact upholds.forget name settled.invariant
    · exact follows_update settled.follows (disciplined prog allowed)
  | call name query next ans st turn acts =>
    have follows := settled.follows turn
    rcases upholds.call settled.invariant follows.1 acts with ⟨moved, moves, inv⟩
    refine ⟨update recs name moved, ⟨inv, ?_⟩, ?_⟩
    · exact follows_update settled.follows (follows.2 ans moved moves)
    · intro other val ended
      have apart : other ≠ name := by
        rintro rfl
        rw [turn] at ended
        cases ended
      exact .inl (update_of_ne apart _ _)
  | stop left fewer =>
    refine ⟨recs, ⟨settled.invariant, ?_⟩, fun _ _ _ => .inr rfl⟩
    intro name prog present
    rcases fewer name with same | gone
    · exact settled.follows (same ▸ present)
    · cases gone.symm.trans present

theorem settled_of_reaches (reaches : Reaches effect starts pool pool') :
    ∃ records', Settled discipline post Invariant pool' records' := by
  induction reaches with
  | refl => exact ⟨recs, settled⟩
  | tail _ step ih =>
    rcases ih with ⟨between, settled⟩
    rcases settled.step upholds disciplined step with ⟨records', settled', -⟩
    exact ⟨records', settled'⟩

end Settled

end Pool

end Barista
