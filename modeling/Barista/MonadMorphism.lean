import Mathlib.Tactic

/-!
# Monad morphisms

A map between monads that respects their operations also respects the traversals of lists and
options, and so every program that is put together from these.
-/

namespace Barista

structure MonadMorphism (m n : Type → Type) [Monad m] [Monad n] where
  apply : {α : Type} → m α → n α
  apply_pure : ∀ {α : Type} (value : α), apply (pure value) = pure value
  apply_bind : ∀ {α β : Type} (first : m α) (next : α → m β),
    apply (first >>= next) = apply first >>= fun value => apply (next value)
  apply_map : ∀ {α β : Type} (f : α → β) (program : m α),
    apply (f <$> program) = f <$> apply program

namespace MonadMorphism

variable {m n : Type → Type} [Monad m] [Monad n] (morphism : MonadMorphism m n) {α β : Type}

attribute [simp] apply_pure apply_bind apply_map

@[simp]
theorem apply_option_mapM (f : α → m β) (option : Option α) :
    morphism.apply (option.mapM f) = option.mapM fun elem => morphism.apply (f elem) := by
  rcases option with _ | elem
  · exact morphism.apply_pure none
  · exact morphism.apply_map some (f elem)

@[simp]
theorem apply_mapM' (f : α → m β) (list : List α) :
    morphism.apply (list.mapM' f) = list.mapM' fun elem => morphism.apply (f elem) := by
  induction list with
  | nil => exact morphism.apply_pure []
  | cons head tail ih => simp [ih]

@[simp]
theorem apply_foldlM (f : β → α → m β) (start : β) (list : List α) :
    morphism.apply (list.foldlM f start) =
      list.foldlM (fun out elem => morphism.apply (f out elem)) start := by
  induction list generalizing start with
  | nil => exact morphism.apply_pure start
  | cons head tail ih => simp [ih]

def mapError {ε δ : Type} (wrap : ε → δ) : MonadMorphism (Except ε) (Except δ) where
  apply := Except.mapError wrap
  apply_pure := fun _ => rfl
  apply_bind := fun first next => by cases first <;> rfl
  apply_map := fun f program => by cases program <;> rfl

end MonadMorphism

end Barista
