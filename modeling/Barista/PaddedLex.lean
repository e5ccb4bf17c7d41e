import Mathlib.Tactic

/-!
# Padded lexicographic comparison

Lists are compared element by element, and the longer one against a padding. The comparison is a
preorder on three lists exactly if none of them straddles another once their common start is over.
-/

namespace Barista

section Consistency

variable {α : Type} (cmp : α → α → Ordering)

def TransitiveAt (first second third : α) : Prop :=
  cmp first second ≠ .gt → cmp second third ≠ .gt → cmp first third ≠ .gt ∧
      (cmp first second = .lt ∨ cmp second third = .lt → cmp first third = .lt)

def PreorderOn (first second third : α) : Prop :=
  TransitiveAt cmp first second third ∧ TransitiveAt cmp first third second ∧
    TransitiveAt cmp second first third ∧ TransitiveAt cmp second third first ∧
      TransitiveAt cmp third first second ∧ TransitiveAt cmp third second first

def Agree : Ordering → Ordering → Ordering → Bool
  | .eq, second, third => second == third
  | first, .eq, third => first == third
  | .lt, .lt, third => third == .lt
  | .gt, .gt, third => third == .gt
  | .lt, .gt, _ => true
  | .gt, .lt, _ => true

variable {cmp}

theorem preorderOn_iff_agree (oriented : ∀ left right, cmp left right = (cmp right left).swap)
    (first second third : α) :
    PreorderOn cmp first second third ↔
      Agree (cmp first second) (cmp second third) (cmp first third) := by
  rw [PreorderOn]
  simp only [TransitiveAt]
  rw [oriented second first, oriented third second, oriented third first]
  generalize cmp first second = one
  generalize cmp second third = two
  generalize cmp first third = three
  cases one <;> cases two <;> cases three <;> simp [Agree]

theorem agree_swap_first {one two three : Ordering} :
    Agree one two three ↔ Agree one.swap three two := by
  cases one <;> cases two <;> cases three <;> simp [Agree]

theorem agree_last_first {one two three : Ordering} :
    Agree one two three ↔ Agree three.swap one two.swap := by
  cases one <;> cases two <;> cases three <;> simp [Agree]

theorem agree_then {one two three : Ordering} (agree : Agree one two three)
    (differ : ¬ (one = .eq ∧ two = .eq)) (one' two' three' : Ordering) :
    Agree (one.then one') (two.then two') (three.then three') := by
  cases one <;> cases two <;> cases three <;> simp [Agree] at agree differ ⊢
  · cases two' <;> rfl
  · cases one' <;> rfl
  · cases one' <;> rfl
  · cases two' <;> rfl

end Consistency

structure PaddedOrder (α : Type) where
  cmp : α → α → Ordering
  pad : α → Ordering
  trans : Std.TransCmp cmp
  pad_congr : ∀ {left right}, cmp left right = .eq → pad left = pad right

namespace PaddedOrder

variable {α : Type} (order : PaddedOrder α)

theorem cmp_swap (left right : α) : order.cmp left right = (order.cmp right left).swap :=
  have := order.trans
  Std.OrientedCmp.eq_swap

theorem agree_cmp (first second third : α) :
    Agree (order.cmp first second) (order.cmp second third) (order.cmp first third) := by
  have := order.trans
  rw [← preorderOn_iff_agree order.cmp_swap]
  have transitive : ∀ one two three : α, TransitiveAt order.cmp one two three := by
    intro one two three oneTwo twoThree
    refine ⟨?_, ?_⟩
    · exact Ordering.isLE_iff_ne_gt.mp (Std.TransCmp.isLE_trans
        (Ordering.isLE_iff_ne_gt.mpr oneTwo) (Ordering.isLE_iff_ne_gt.mpr twoThree))
    · rintro (strict | strict)
      · exact Std.TransCmp.lt_of_lt_of_isLE strict (Ordering.isLE_iff_ne_gt.mpr twoThree)
      · exact Std.TransCmp.lt_of_isLE_of_lt (Ordering.isLE_iff_ne_gt.mpr oneTwo) strict
  refine ⟨?_, ?_, ?_, ?_, ?_, ?_⟩ <;> apply transitive

def padAll : List α → Ordering
  | [] => .eq
  | entry :: rest => (order.pad entry).then (padAll rest)

def compare : List α → List α → Ordering
  | [], right => (order.padAll right).swap
  | left :: lefts, [] => order.padAll (left :: lefts)
  | left :: lefts, right :: rights => (order.cmp left right).then (compare lefts rights)

@[simp]
theorem compare_nil_left (right : List α) :
    order.compare [] right = (order.padAll right).swap := rfl

@[simp]
theorem compare_nil_right (left : List α) : order.compare left [] = order.padAll left := by
  cases left <;> rfl

@[simp]
theorem compare_cons (left right : α) (lefts rights : List α) :
    order.compare (left :: lefts) (right :: rights) =
      (order.cmp left right).then (order.compare lefts rights) := rfl

theorem compare_swap (left right : List α) :
    order.compare left right = (order.compare right left).swap := by
  induction left generalizing right with
  | nil => simp
  | cons left lefts ih =>
    rcases right with _ | ⟨right, rights⟩
    · simp
    · rw [compare_cons, compare_cons, ih rights, order.cmp_swap left right, Ordering.swap_then]

theorem compare_self (list : List α) : order.compare list list = .eq := by
  have := order.trans
  induction list with
  | nil => rfl
  | cons entry rest ih => simp [ih, Std.ReflCmp.compare_self]

theorem padAll_congr {left right : List α} (same : order.compare left right = .eq) :
    order.padAll left = order.padAll right := by
  induction left generalizing right with
  | nil =>
    rw [compare_nil_left, Ordering.swap_eq_eq] at same
    rw [same]
    rfl
  | cons left lefts ih =>
    rcases right with _ | _
    · exact same
    · rw [compare_cons, Ordering.then_eq_eq] at same
      rw [padAll, padAll, order.pad_congr same.1, ih same.2]

theorem padAll_eq_eq {list : List α} :
    order.padAll list = .eq ↔ ∀ entry ∈ list, order.pad entry = .eq := by
  induction list with
  | nil => simp [padAll]
  | cons entry rest ih => simp [padAll, ih]

def Straddles (left right : List α) : Prop :=
  order.compare left right = .lt ∧ order.padAll left ≠ .lt ∧ order.padAll right ≠ .gt

def Coherent : List α → List α → List α → Prop
  | first :: firsts, second :: seconds, third :: thirds =>
    order.cmp first second = .eq → order.cmp second third = .eq → Coherent firsts seconds thirds
  | first, second, third =>
    (¬ order.Straddles first second ∧ ¬ order.Straddles second first) ∧
      (¬ order.Straddles second third ∧ ¬ order.Straddles third second) ∧
        (¬ order.Straddles first third ∧ ¬ order.Straddles third first)

theorem not_straddles_nil_left (right : List α) : ¬ order.Straddles [] right := by
  rintro ⟨below, -, notAbove⟩
  rw [compare_nil_left, Ordering.swap_eq_lt] at below
  exact notAbove below

theorem not_straddles_nil_right (left : List α) : ¬ order.Straddles left [] := by
  rintro ⟨below, notBelow, -⟩
  rw [compare_nil_right] at below
  exact notBelow below

theorem agree_nil_iff (second third : List α) :
    Agree (order.compare [] second) (order.compare second third) (order.compare [] third) ↔
      ¬ order.Straddles second third ∧ ¬ order.Straddles third second := by
  have same : order.compare second third = .eq → order.padAll second = order.padAll third :=
    order.padAll_congr
  rw [Straddles, Straddles, order.compare_swap third second, compare_nil_left, compare_nil_left]
  revert same
  generalize order.compare second third = between
  generalize order.padAll second = below
  generalize order.padAll third = above
  intro same
  cases between <;> cases below <;> cases above <;> simp [Agree] at same ⊢

theorem coherent_of_ended {first second third : List α}
    (ended : first = [] ∨ second = [] ∨ third = []) :
    order.Coherent first second third ↔
      (¬ order.Straddles first second ∧ ¬ order.Straddles second first) ∧
        (¬ order.Straddles second third ∧ ¬ order.Straddles third second) ∧
          (¬ order.Straddles first third ∧ ¬ order.Straddles third first) := by
  rcases first with _ | ⟨first, firsts⟩
  · simp only [Coherent]
  · rcases second with _ | ⟨second, seconds⟩
    · simp only [Coherent]
    · rcases third with _ | ⟨third, thirds⟩
      · simp only [Coherent]
      · simp at ended

theorem agree_compare_iff_of_ended {first second third : List α}
    (ended : first = [] ∨ second = [] ∨ third = []) :
    Agree (order.compare first second) (order.compare second third)
      (order.compare first third) ↔ order.Coherent first second third := by
  rw [order.coherent_of_ended ended]
  rcases ended with rfl | rfl | rfl
  · rw [agree_nil_iff]
    simp [not_straddles_nil_left, not_straddles_nil_right]
  · rw [agree_swap_first, ← order.compare_swap [] first, agree_nil_iff]
    simp [not_straddles_nil_left, not_straddles_nil_right]
  · rw [agree_last_first, ← order.compare_swap [] first, ← order.compare_swap [] second,
      agree_nil_iff]
    simp [not_straddles_nil_left, not_straddles_nil_right]

theorem agree_compare_iff (first second third : List α) :
    Agree (order.compare first second) (order.compare second third)
      (order.compare first third) ↔ order.Coherent first second third := by
  induction first generalizing second third with
  | nil => exact order.agree_compare_iff_of_ended (Or.inl rfl)
  | cons first firsts ih =>
    rcases second with _ | ⟨second, seconds⟩
    · exact order.agree_compare_iff_of_ended (Or.inr (Or.inl rfl))
    rcases third with _ | ⟨third, thirds⟩
    · exact order.agree_compare_iff_of_ended (Or.inr (Or.inr rfl))
    have heads := order.agree_cmp first second third
    simp only [compare_cons, Coherent]
    by_cases equal : order.cmp first second = .eq ∧ order.cmp second third = .eq
    · rcases equal with ⟨firstSecond, secondThird⟩
      have firstThird : order.cmp first third = .eq := by
        rw [firstSecond, secondThird, Agree, beq_iff_eq] at heads
        exact heads.symm
      rw [firstSecond, secondThird, firstThird]
      simpa using ih seconds thirds
    · have agree := agree_then heads equal (order.compare firsts seconds)
        (order.compare seconds thirds) (order.compare firsts thirds)
      simp only [agree, true_iff]
      intro firstSecond secondThird
      exact absurd ⟨firstSecond, secondThird⟩ equal

theorem preorderOn_compare_iff (first second third : List α) :
    PreorderOn order.compare first second third ↔ order.Coherent first second third := by
  rw [preorderOn_iff_agree order.compare_swap, agree_compare_iff]

end PaddedOrder

end Barista
