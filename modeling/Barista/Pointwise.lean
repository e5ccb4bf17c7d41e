import Mathlib.Tactic

/-!
# Fallible traversals

A traversal that may fail succeeds with a list if and only if it succeeds at every element,
and then the two lists are related pointwise.
-/

namespace Barista

open List

variable {ε α β γ : Type}

variable {first : Except ε α} {val : β} {f : α → Except ε β} {list : List α} {out : List β}
  {r : α → β → Prop} {next : α → Except ε β}

theorem bind_eq_ok : first >>= next = .ok val ↔ ∃ mid, first = .ok mid ∧ next mid = .ok val := by
  rcases first with _ | _
  · simp [Bind.bind, Except.bind]
  · simp [Bind.bind, Except.bind]

theorem bind_eq_error {failure : ε} : first >>= next = .error failure ↔
      first = .error failure ∨ ∃ mid, first = .ok mid ∧ next mid = .error failure := by
  rcases first with _ | _
  · simp [Bind.bind, Except.bind]
  · simp [Bind.bind, Except.bind]

theorem map_eq_ok {f : α → β} : f <$> first = .ok val ↔ ∃ mid, first = .ok mid ∧ f mid = val := by
  rcases first with _ | _
  · simp [Functor.map, Except.map]
  · simp [Functor.map, Except.map]

theorem mapM'_eq_ok : list.mapM' f = .ok out ↔
      Forall₂ (fun elem val => f elem = .ok val) list out := by
  induction list generalizing out with
  | nil =>
    rw [mapM'_nil, forall₂_nil_left_iff]
    exact ⟨fun same => (Except.ok.inj same).symm, fun same => by rw [same]; rfl⟩
  | cons head tail ih =>
    rw [mapM'_cons, forall₂_cons_left_iff, bind_eq_ok]
    constructor
    · rintro ⟨val, headOk, rest⟩
      rcases bind_eq_ok.mp rest with ⟨values, tailOk, same⟩
      exact ⟨val, values, headOk, ih.mp tailOk, (Except.ok.inj same).symm⟩
    · rintro ⟨val, values, headOk, tailOk, rfl⟩
      exact ⟨val, headOk, bind_eq_ok.mpr ⟨values, ih.mpr tailOk, rfl⟩⟩

theorem mapM'_eq_error {failure : ε} (failed : list.mapM' f = .error failure) :
    ∃ elem ∈ list, f elem = .error failure := by
  induction list with
  | nil => cases failed
  | cons head tail ih =>
    rw [mapM'_cons] at failed
    rcases bind_eq_error.mp failed with first | ⟨val, -, failed⟩
    · exact ⟨head, .head _, first⟩
    · rcases bind_eq_error.mp failed with rest | ⟨values, -, failed⟩
      · rcases ih rest with ⟨elem, mem, failed⟩
        exact ⟨elem, .tail _ mem, failed⟩
      · cases failed

theorem option_mapM_eq_ok {option : Option α} {out : Option β} : option.mapM f = .ok out ↔
      Option.Rel (fun elem val => f elem = .ok val) option out := by
  rcases option with _ | _
  · constructor
    · intro same
      rw [← Except.ok.inj same]
      exact .none
    · rintro ⟨⟩
      rfl
  · constructor
    · intro mapped
      rcases map_eq_ok.mp mapped with ⟨val, found, rfl⟩
      exact .some found
    · intro related
      cases related with
      | some found => exact map_eq_ok.mpr ⟨_, found, rfl⟩

theorem rel_some_left {elem : α} {right : Option β} (related : Option.Rel r (some elem) right) :
    ∃ val, right = some val ∧ r elem val := by
  cases related with
  | some holds => exact ⟨_, rfl, holds⟩

theorem rel_some_right {left : Option α} (related : Option.Rel r left (some val)) :
    ∃ elem, left = some elem ∧ r elem val := by
  cases related with
  | some holds => exact ⟨_, rfl, holds⟩

theorem rel_isSome {left : Option α} {right : Option β} (related : Option.Rel r left right) :
    left.isSome = right.isSome := by
  rcases related with _ | _
  · rfl
  · rfl

theorem forall₂_exists_right {elem : α} (related : Forall₂ r list out) (mem : elem ∈ list) :
    ∃ val ∈ out, r elem val := by
  induction related with
  | nil => cases mem
  | cons head tail ih =>
    rcases mem_cons.mp mem with rfl | later
    · exact ⟨_, .head _, head⟩
    · rcases ih later with ⟨val, valueMem, holds⟩
      exact ⟨val, .tail _ valueMem, holds⟩

theorem forall₂_trans {s : β → γ → Prop} {t : α → γ → Prop}
    (compose : ∀ ⦃first second third⦄, r first second → s second third → t first third)
    {mid : List β} {out : List γ} (former : Forall₂ r list mid)
    (latter : Forall₂ s mid out) :
    Forall₂ t list out := by
  induction former generalizing out with
  | nil =>
    cases latter
    exact .nil
  | cons head tail ih =>
    cases latter with
    | cons head' tail' => exact .cons (compose head head') (ih tail')

theorem forall₂_map {δ : Type} {s : γ → δ → Prop} {f : α → γ} {g : β → δ}
    (related : Forall₂ r list out) (maps : ∀ ⦃elem val⦄, r elem val → s (f elem) (g val)) :
    Forall₂ s (list.map f) (out.map g) :=
  rel_map maps related

theorem forall₂_append {first second : List α} (related : Forall₂ r (first ++ second) out) :
    ∃ left right, Forall₂ r first left ∧ Forall₂ r second right ∧ out = left ++ right := by
  induction first generalizing out with
  | nil => exact ⟨[], out, .nil, related, rfl⟩
  | cons head tail ih =>
    rcases forall₂_cons_left_iff.mp related with ⟨val, values, headOk, tailOk, rfl⟩
    rcases ih tailOk with ⟨left, right, leftOk, rightOk, rfl⟩
    exact ⟨val :: left, right, .cons headOk leftOk, rightOk, rfl⟩

theorem forall₂_flatten {lists : List (List α)} (related : Forall₂ r lists.flatten out) :
    ∃ results, Forall₂ (Forall₂ r) lists results ∧ out = results.flatten := by
  induction lists generalizing out with
  | nil =>
    rw [flatten_nil, forall₂_nil_left_iff] at related
    exact ⟨[], .nil, related⟩
  | cons head tail ih =>
    rw [flatten_cons] at related
    rcases forall₂_append related with ⟨first, rest, headOk, tailOk, rfl⟩
    rcases ih tailOk with ⟨results, tailCut, rfl⟩
    exact ⟨first :: results, .cons headOk tailCut, rfl⟩

theorem forall₂_groups {p : α → List β → Prop} {r : β → γ → Prop} {between : List β → List β}
    {groups : List α} {mid : List (List β)} {rest : List β} {out : List γ}
    (first : Forall₂ p groups mid)
    (second : Forall₂ r ((mid.map between).flatten ++ rest) out) :
    ∃ results extra,
      Forall₂ (fun group final => ∃ left, p group left ∧ Forall₂ r (between left) final)
        groups results ∧
      out = results.flatten ++ extra := by
  rcases forall₂_append second with ⟨inner, extra, innerOk, -, rfl⟩
  rcases forall₂_flatten innerOk with ⟨results, cut, rfl⟩
  refine ⟨results, extra, ?_, rfl⟩
  rw [forall₂_map_left_iff] at cut
  clear second innerOk
  induction first generalizing results with
  | nil =>
    rw [forall₂_nil_left_iff] at cut
    rw [cut]
    exact .nil
  | cons head tail ih =>
    rcases forall₂_cons_left_iff.mp cut with ⟨last, lasts, lastOk, restOk, rfl⟩
    exact .cons ⟨_, head, lastOk⟩ (ih _ restOk)

end Barista
