import Mathlib.Tactic

/-!
# Pairing off two lists

The first list is gone through in order, and each of its entries takes the first entry of the
second list that fits.  Where entries fit by a key and no key has a choice, the pairs and what is
left do not depend on the order of the lists.
-/

namespace Barista.Pairing

open List

section Pairing

variable {α : Type} (fits : α → α → Bool)

def pairOff : List α → List α → List (α × α) × List α × List α
  | [], right => ([], [], right)
  | entry :: left, right =>
    match right.find? (fits entry) with
    | some other =>
      let (pairs, rest) := pairOff left (right.eraseP (fits entry))
      ((entry, other) :: pairs, rest)
    | none =>
      let (pairs, unpaired, rest) := pairOff left right
      (pairs, entry :: unpaired, rest)

variable {fits} (left right : List α)

theorem perm_of_find? {α : Type} {test : α → Bool} {found : α} {entries : List α}
    (some : entries.find? test = .some found) :
    (found :: entries.eraseP test).Perm entries := by
  rcases find?_eq_some_iff_append.mp some with ⟨passes, before, after, rfl, earlier⟩
  have fail : ∀ entry ∈ before, ¬test entry := by simpa using earlier
  rw [eraseP_append_right _ fail, eraseP_cons_of_pos passes]
  exact perm_middle.symm

theorem pairOff_left : ((pairOff fits left right).1.map Prod.fst ++
    (pairOff fits left right).2.1).Perm left := by
  fun_induction pairOff fits left right with
  | case1 right => exact .refl _
  | case2 entry left right other found pairs rest same ih =>
    rw [same] at ih
    exact ih.cons _
  | case3 entry left right missing pairs unpaired rest same ih =>
    rw [same] at ih
    exact perm_middle.trans (ih.cons _)

theorem pairOff_right : ((pairOff fits left right).1.map Prod.snd ++
    (pairOff fits left right).2.2).Perm right := by
  fun_induction pairOff fits left right with
  | case1 right => exact .refl _
  | case2 entry left right other found pairs rest same ih =>
    rw [same] at ih
    exact (ih.cons other).trans (perm_of_find? found)
  | case3 entry left right missing pairs unpaired rest same ih =>
    rw [same] at ih
    exact ih

theorem sublist_pairOff_left : (pairOff fits left right).2.1 <+ left := by
  fun_induction pairOff fits left right with
  | case1 right => exact .refl _
  | case2 entry left right other found pairs rest same ih =>
    rw [same] at ih
    exact ih.cons _
  | case3 entry left right missing pairs unpaired rest same ih =>
    rw [same] at ih
    exact ih.cons_cons _

theorem sublist_pairOff_right : (pairOff fits left right).2.2 <+ right := by
  fun_induction pairOff fits left right with
  | case1 right => exact .refl _
  | case2 entry left right other found pairs rest same ih =>
    rw [same] at ih
    exact ih.trans eraseP_sublist
  | case3 entry left right missing pairs unpaired rest same ih =>
    rw [same] at ih
    exact ih

variable {left right}

theorem fits_of_mem_pairOff {pair : α × α} (paired : pair ∈ (pairOff fits left right).1) :
    fits pair.1 pair.2 := by
  fun_induction pairOff fits left right with
  | case1 right => cases paired
  | case2 entry left right other found pairs rest same ih =>
    rw [same] at ih
    rcases mem_cons.mp paired with rfl | later
    · exact find?_some found
    · exact ih later
  | case3 entry left right missing pairs unpaired rest same ih =>
    rw [same] at ih
    exact ih paired

/-- The pairing is maximal. -/
theorem not_fits_of_unpaired {entry other : α} (unpaired : entry ∈ (pairOff fits left right).2.1)
    (rest : other ∈ (pairOff fits left right).2.2) : ¬fits entry other := by
  fun_induction pairOff fits left right with
  | case1 right => cases unpaired
  | case2 first left right _ _ pairs rest' same ih =>
    rw [same] at ih
    exact ih unpaired rest
  | case3 first left right missing pairs unpaired' rest' same ih =>
    rw [same] at ih
    rcases mem_cons.mp unpaired with rfl | later
    · have remains : rest' <+ right := by
        simpa [same] using @sublist_pairOff_right _ fits left right
      exact find?_eq_none.mp missing _ (remains.subset rest)
    · exact ih later rest

theorem mem_pairOff_cons {entry other : α} (meets : fits entry other) :
    (entry, other) ∈ (pairOff fits (entry :: left) (other :: right)).1 := by
  simp [pairOff, find?, meets]

section Distinct

variable (distinct : left.Nodup) (distinct' : right.Nodup)

include distinct in
theorem nodup_pairOff_fst : ((pairOff fits left right).1.map Prod.fst ++
    (pairOff fits left right).2.1).Nodup :=
  (pairOff_left left right).nodup_iff.mpr distinct

include distinct' in
theorem nodup_pairOff_snd : ((pairOff fits left right).1.map Prod.snd ++
    (pairOff fits left right).2.2).Nodup :=
  (pairOff_right left right).nodup_iff.mpr distinct'

include distinct in
theorem nodup_pairs : (pairOff fits left right).1.Nodup :=
  (nodup_append.mp (nodup_pairOff_fst distinct)).1.of_map _

include distinct in
theorem partner_unique {entry other other' : α}
    (paired : (entry, other) ∈ (pairOff fits left right).1)
    (paired' : (entry, other') ∈ (pairOff fits left right).1) : other = other' := by
  have nodup := (nodup_append.mp (@nodup_pairOff_fst _ fits left right distinct)).1
  exact congrArg Prod.snd (inj_on_of_nodup_map nodup paired paired' rfl)

include distinct' in
theorem partner_unique' {entry entry' other : α}
    (paired : (entry, other) ∈ (pairOff fits left right).1)
    (paired' : (entry', other) ∈ (pairOff fits left right).1) : entry = entry' := by
  have nodup := (nodup_append.mp (@nodup_pairOff_snd _ fits left right distinct')).1
  exact congrArg Prod.fst (inj_on_of_nodup_map nodup paired paired' rfl)

end Distinct

end Pairing

section Passes

variable {α κ : Type}

/-- Where an entry of one side and one of the other have one key, no third entry has it. -/
def OneToOne (ours theirs : α → Prop) (key : α → κ) : Prop :=
  ∀ entry other, ours entry → theirs other → key entry = key other →
    (∀ entry', ours entry' → key entry' = key entry → entry' = entry) ∧
      ∀ other', theirs other' → key other' = key other → other' = other

/-- No entry of the other side has the entry's key. -/
def Unmatched (ours theirs : α → Prop) (key : α → κ) (entry : α) : Prop :=
  ours entry ∧ ∀ other, theirs other → key entry ≠ key other

variable {fits : α → α → Bool} {key : α → κ} {left right : List α}
  (fit : ∀ entry ∈ left, ∀ other ∈ right, fits entry other ↔ key entry = key other)
  (one : OneToOne (· ∈ left) (· ∈ right) key)

include fit one

theorem mem_pairOff {entry other : α} : (entry, other) ∈ (pairOff fits left right).1 ↔
    entry ∈ left ∧ other ∈ right ∧ key entry = key other := by
  have leftPerm := @pairOff_left _ fits left right
  have rightPerm := @pairOff_right _ fits left right
  constructor
  · intro paired
    have mem : entry ∈ left := leftPerm.subset (mem_append_left _ (mem_map_of_mem paired))
    have mem' : other ∈ right := rightPerm.subset (mem_append_left _ (mem_map_of_mem paired))
    exact ⟨mem, mem', (fit entry mem other mem').mp (fits_of_mem_pairOff paired)⟩
  · rintro ⟨mem, mem', same⟩
    rcases one entry other mem mem' same with ⟨alone, alone'⟩
    rcases mem_append.mp (leftPerm.mem_iff.mpr mem) with paired | unpaired
    · rcases mem_map.mp paired with ⟨⟨_, partner⟩, pair, rfl⟩
      have partnerMem := rightPerm.subset (mem_append_left _ (mem_map_of_mem pair))
      have meets := (fit _ mem _ partnerMem).mp (fits_of_mem_pairOff pair)
      rwa [alone' partner partnerMem (meets.symm.trans same)] at pair
    rcases mem_append.mp (rightPerm.mem_iff.mpr mem') with paired | rest
    · rcases mem_map.mp paired with ⟨⟨partner, _⟩, pair, rfl⟩
      have partnerMem := leftPerm.subset (mem_append_left _ (mem_map_of_mem pair))
      have meets := (fit _ partnerMem _ mem').mp (fits_of_mem_pairOff pair)
      rwa [alone partner partnerMem (meets.trans same.symm)] at pair
    · exact absurd ((fit entry mem other mem').mpr same) (not_fits_of_unpaired unpaired rest)

theorem mem_unpaired (distinct : left.Nodup) {entry : α} : entry ∈ (pairOff fits left right).2.1 ↔
    Unmatched (· ∈ left) (· ∈ right) key entry := by
  have leftPerm := @pairOff_left _ fits left right
  have apart := (nodup_append.mp (@nodup_pairOff_fst _ fits left right distinct)).2.2
  constructor
  · intro unpaired
    have mem : entry ∈ left := leftPerm.subset (mem_append_right _ unpaired)
    refine ⟨mem, fun other mem' same => ?_⟩
    have paired := (mem_pairOff fit one).mpr ⟨mem, mem', same⟩
    exact apart entry (mem_map_of_mem paired) entry unpaired rfl
  · rintro ⟨mem, none⟩
    rcases mem_append.mp (leftPerm.mem_iff.mpr mem) with paired | unpaired
    · rcases mem_map.mp paired with ⟨⟨_, partner⟩, pair, rfl⟩
      rcases (mem_pairOff fit one).mp pair with ⟨_, mem', same⟩
      exact absurd same (none partner mem')
    · exact unpaired

theorem mem_rest (distinct' : right.Nodup) {other : α} : other ∈ (pairOff fits left right).2.2 ↔
    Unmatched (· ∈ right) (· ∈ left) key other := by
  have rightPerm := @pairOff_right _ fits left right
  have apart := (nodup_append.mp (@nodup_pairOff_snd _ fits left right distinct')).2.2
  constructor
  · intro rest
    have mem' : other ∈ right := rightPerm.subset (mem_append_right _ rest)
    refine ⟨mem', fun entry mem same => ?_⟩
    have paired := (mem_pairOff fit one).mpr ⟨mem, mem', same.symm⟩
    exact apart other (mem_map_of_mem paired) other rest rfl
  · rintro ⟨mem', none⟩
    rcases mem_append.mp (rightPerm.mem_iff.mpr mem') with paired | rest
    · rcases mem_map.mp paired with ⟨⟨partner, _⟩, pair, rfl⟩
      rcases (mem_pairOff fit one).mp pair with ⟨mem, _, same⟩
      exact absurd same.symm (none partner mem)
    · exact rest

end Passes

end Barista.Pairing
