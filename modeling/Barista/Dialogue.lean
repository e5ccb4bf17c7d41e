import Mathlib.Tactic

/-!
# Dialogues

A computation that may ask questions to the outside, and that may fail, is a well-founded
tree: each question is a node with one branch for each reply.  A resolver, which may keep a
state of its own, picks the replies.
-/

namespace Barista

inductive Dialogue (Q A ε : Type) (α : Type) where
  | ok (value : α)
  | error (error : ε)
  | ask (question : Q) (next : A → Dialogue Q A ε α)

namespace Dialogue

variable {Q A ε α β σ : Type}

def bind : Dialogue Q A ε α → (α → Dialogue Q A ε β) → Dialogue Q A ε β
  | ok value, next => next value
  | error failure, _ => error failure
  | ask question continue', next => ask question fun reply => (continue' reply).bind next

instance : Monad (Dialogue Q A ε) where
  pure := ok
  bind := bind

def request (question : Q) : Dialogue Q A ε A := ask question ok

def ofExcept : Except ε α → Dialogue Q A ε α
  | .ok value => ok value
  | .error failure => error failure

def mapError (wrap : ε → σ) : Dialogue Q A ε α → Dialogue Q A σ α
  | ok value => ok value
  | error failure => error (wrap failure)
  | ask question next => ask question fun reply => (next reply).mapError wrap

def run (reply : Q → σ → A × σ) : Dialogue Q A ε α → σ → Except ε α × σ
  | ok value, state => (.ok value, state)
  | error failure, state => (.error failure, state)
  | ask question next, state =>
    (next (reply question state).1).run reply (reply question state).2

def runWithin (reply : Q → σ → A × σ) : ℕ → Dialogue Q A ε α → σ → Option (Except ε α × σ)
  | _, ok value, state => some (.ok value, state)
  | _, error failure, state => some (.error failure, state)
  | 0, ask _ _, _ => none
  | limit + 1, ask question next, state =>
    runWithin reply limit (next (reply question state).1) (reply question state).2

def eval (reply : Q → A) : Dialogue Q A ε α → Except ε α
  | ok value => .ok value
  | error failure => .error failure
  | ask question next => (next (reply question)).eval reply

variable {reply : Q → σ → A × σ} {replies : Q → A} {st st' : σ}

@[simp]
theorem run_pure (val : α) : (pure val : Dialogue Q A ε α).run reply st = (.ok val, st) := rfl

@[simp]
theorem run_error (failure : ε) :
    (error failure : Dialogue Q A ε α).run reply st = (.error failure, st) := rfl

@[simp]
theorem run_request (query : Q) : (request query : Dialogue Q A ε A).run reply st =
      (.ok (reply query st).1, (reply query st).2) := rfl

variable {dialogue : Dialogue Q A ε α} {val : α}

theorem run_bind_eq_ok {f : α → Dialogue Q A ε β} {val : β} :
    (dialogue >>= f).run reply st = (.ok val, st') ↔
      ∃ first mid, dialogue.run reply st = (.ok first, mid) ∧
        (f first).run reply mid = (.ok val, st') := by
  induction dialogue generalizing st with
  | ok first =>
    constructor
    · intro ran
      exact ⟨first, st, rfl, ran⟩
    · rintro ⟨_, _, same, ran⟩
      cases same
      exact ran
  | error failure =>
    constructor
    · intro ran
      cases ran
    · rintro ⟨_, _, same, -⟩
      cases same
  | ask query next ih => exact ih _

theorem run_mapError_eq_ok {δ : Type} {wrap : ε → δ} :
    (dialogue.mapError wrap).run reply st = (.ok val, st') ↔
      dialogue.run reply st = (.ok val, st') := by
  induction dialogue generalizing st with
  | ok first => simp [mapError, run]
  | error failure => simp [mapError]
  | ask query next ih => exact ih _

theorem run_ofExcept_eq_ok {out : Except ε α} :
    (ofExcept out : Dialogue Q A ε α).run reply st = (.ok val, st') ↔ out = .ok val ∧ st = st' := by
  cases out <;> simp [ofExcept, run]

theorem exists_run_of_map {f : α → β} {image : β}
    (mapped : (dialogue.run reply st).1.map f = .ok image) :
    ∃ val st', dialogue.run reply st = (.ok val, st') ∧ f val = image := by
  rcases ran : dialogue.run reply st with ⟨out, st'⟩
  rw [ran] at mapped
  rcases out with _ | val
  · cases mapped
  · exact ⟨val, st', rfl, Except.ok.inj mapped⟩

theorem exists_runWithin (reply : Q → σ → A × σ) (dialogue : Dialogue Q A ε α) (st : σ) :
    ∃ limit, runWithin reply limit dialogue st = some (dialogue.run reply st) := by
  induction dialogue generalizing st with
  | ok val => exact ⟨0, rfl⟩
  | error failure => exact ⟨0, rfl⟩
  | ask query next ih =>
    rcases ih (reply query st).1 (reply query st).2 with ⟨limit, ended⟩
    exact ⟨limit + 1, ended⟩

@[simp]
theorem eval_pure (val : α) : (pure val : Dialogue Q A ε α).eval replies = .ok val := rfl

@[simp]
theorem eval_ok (val : α) : (ok val : Dialogue Q A ε α).eval replies = .ok val := rfl

@[simp]
theorem eval_error (failure : ε) :
    (error failure : Dialogue Q A ε α).eval replies = .error failure := rfl

@[simp]
theorem eval_request (query : Q) :
    (request query : Dialogue Q A ε A).eval replies = .ok (replies query) := rfl

@[simp]
theorem eval_ofExcept (out : Except ε α) :
    (ofExcept out : Dialogue Q A ε α).eval replies = out := by
  cases out <;> rfl

@[simp]
theorem eval_bind (dialogue : Dialogue Q A ε α) (f : α → Dialogue Q A ε β) :
    (dialogue >>= f).eval replies = dialogue.eval replies >>= fun val => (f val).eval replies := by
  induction dialogue with
  | ok val => rfl
  | error failure => rfl
  | ask query next ih => exact ih _

theorem eval_mapError_eq_ok {δ : Type} {wrap : ε → δ} :
    (dialogue.mapError wrap).eval replies = .ok val ↔ dialogue.eval replies = .ok val := by
  induction dialogue with
  | ok first => simp [mapError]
  | error failure => simp [mapError]
  | ask query next ih => exact ih _

end Dialogue

end Barista
