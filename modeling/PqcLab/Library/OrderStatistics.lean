import Mathlib.Algebra.Order.Floor.Ring
import Mathlib.Data.Int.ConditionallyCompleteOrder
import Mathlib.Data.List.Sort
import Mathlib.Tactic.Linarith
import Mathlib.Tactic.Ring

/-! Interpolated order statistics: linear interpolation between the values of a sequence, and lists that
sorting keeps one below the other. -/

namespace Interpolation

variable {α : Type} [Field α] [LinearOrder α] [FloorRing α]

/-- The value at a position between two indices, weighted by the distances to them. -/
def interpolate (f : ℤ → α) (k : α) : α :=
  if ⌊k⌋ = ⌈k⌉ then f ⌊k⌋ else f ⌊k⌋ * (⌈k⌉ - k) + f ⌈k⌉ * (k - ⌊k⌋)

theorem eq_floor_of_floor_eq_ceil {k : α} (whole : ⌊k⌋ = ⌈k⌉) : k = ⌊k⌋ := by
  apply le_antisymm
  · rw [whole]
    exact Int.le_ceil k
  · exact Int.floor_le k

variable [IsStrictOrderedRing α]

theorem ceil_eq_floor_add_one {k : α} (between : ⌊k⌋ ≠ ⌈k⌉) : ⌈k⌉ = ⌊k⌋ + 1 := by
  have low : ⌊k⌋ ≤ ⌈k⌉ := Int.floor_le_ceil k
  have high : ⌈k⌉ ≤ ⌊k⌋ + 1 := Int.ceil_le_floor_add_one k
  omega

theorem interpolate_eq (f : ℤ → α) (k : α) :
    interpolate f k = f ⌊k⌋ + (f ⌈k⌉ - f ⌊k⌋) * (k - ⌊k⌋) := by
  unfold interpolate
  split_ifs with whole
  · rw [← whole]
    ring
  · rw [ceil_eq_floor_add_one whole]
    push_cast
    ring

@[simp] theorem interpolate_intCast (f : ℤ → α) (i : ℤ) : interpolate f i = f i := by
  simp [interpolate]

theorem weight_nonneg (k : α) : 0 ≤ k - ⌊k⌋ := by
  linarith [Int.floor_le k]

theorem weight_le_one (k : α) : k - ⌊k⌋ ≤ 1 := by
  linarith [Int.lt_floor_add_one k]

theorem le_interpolate {f : ℤ → α} {k : α} (ordered : f ⌊k⌋ ≤ f ⌈k⌉) : f ⌊k⌋ ≤ interpolate f k := by
  rw [interpolate_eq]
  have gain : 0 ≤ (f ⌈k⌉ - f ⌊k⌋) * (k - ⌊k⌋) := mul_nonneg (by linarith) (weight_nonneg k)
  linarith

theorem interpolate_le {f : ℤ → α} {k : α} (ordered : f ⌊k⌋ ≤ f ⌈k⌉) : interpolate f k ≤ f ⌈k⌉ := by
  rw [interpolate_eq]
  have gain : (f ⌈k⌉ - f ⌊k⌋) * (k - ⌊k⌋) ≤ (f ⌈k⌉ - f ⌊k⌋) * 1 :=
    mul_le_mul_of_nonneg_left (weight_le_one k) (by linarith)
  linarith

theorem interpolate_le_interpolate {f g : ℤ → α} {k : α} (low : f ⌊k⌋ ≤ g ⌊k⌋) (high : f ⌈k⌉ ≤ g ⌈k⌉) :
    interpolate f k ≤ interpolate g k := by
  rw [interpolate_eq, interpolate_eq]
  have weight := weight_nonneg k
  have lower : f ⌊k⌋ * (1 - (k - ⌊k⌋)) ≤ g ⌊k⌋ * (1 - (k - ⌊k⌋)) :=
    mul_le_mul_of_nonneg_right low (by linarith [weight_le_one k])
  have upper : f ⌈k⌉ * (k - ⌊k⌋) ≤ g ⌈k⌉ * (k - ⌊k⌋) := mul_le_mul_of_nonneg_right high weight
  linarith

/-- A sequence that ascends on an interval of indices is interpolated by a function that does. -/
theorem interpolate_mono {f : ℤ → α} {low high : ℤ} (ascends : MonotoneOn f (Set.Icc low high)) {k l : α}
    (first : (low : α) ≤ k) (ordered : k ≤ l) (last : l ≤ high) : interpolate f k ≤ interpolate f l := by
  have inside {m : α} (above : (low : α) ≤ m) (below : m ≤ high) :
      ⌊m⌋ ∈ Set.Icc low high ∧ ⌈m⌉ ∈ Set.Icc low high := by
    have floor : low ≤ ⌊m⌋ := Int.le_floor.mpr above
    have ceil : ⌈m⌉ ≤ high := Int.ceil_le.mpr below
    have between : ⌊m⌋ ≤ ⌈m⌉ := Int.floor_le_ceil m
    exact ⟨⟨floor, by omega⟩, by omega, ceil⟩
  obtain ⟨floorK, ceilK⟩ := inside first (ordered.trans last)
  obtain ⟨floorL, ceilL⟩ := inside (first.trans ordered) last
  by_cases segment : ⌊k⌋ = ⌊l⌋
  · by_cases whole : ⌊k⌋ = ⌈k⌉
    · -- the segment begins at `k`
      have start : k = ⌊k⌋ := eq_floor_of_floor_eq_ceil whole
      rw [start, interpolate_intCast, segment]
      exact le_interpolate (ascends floorL ceilL (Int.floor_le_ceil l))
    · have ceil : ⌈k⌉ = ⌈l⌉ := by
        have next := ceil_eq_floor_add_one whole
        have further : ⌊l⌋ ≠ ⌈l⌉ := by
          intro wholeL
          have atL : l = ⌊l⌋ := eq_floor_of_floor_eq_ceil wholeL
          have atK : (⌈k⌉ : α) ≤ ⌊k⌋ := by
            exact_mod_cast Int.ceil_le.mpr (ordered.trans (atL.le.trans (by rw [segment])))
          have : ⌈k⌉ ≤ ⌊k⌋ := by exact_mod_cast atK
          omega
        rw [next, ceil_eq_floor_add_one further, segment]
      rw [interpolate_eq, interpolate_eq, ← segment, ← ceil]
      have climb : 0 ≤ f ⌈k⌉ - f ⌊k⌋ := by
        linarith [ascends floorK ceilK (Int.floor_le_ceil k)]
      have weights : k - ⌊k⌋ ≤ l - ⌊k⌋ := by linarith
      linarith [mul_le_mul_of_nonneg_left weights climb]
  · -- an index lies between the two positions
    have floors : ⌊k⌋ ≤ ⌊l⌋ := Int.floor_mono ordered
    have across : ⌈k⌉ ≤ ⌊l⌋ := by
      have next : ⌈k⌉ ≤ ⌊k⌋ + 1 := Int.ceil_le_floor_add_one k
      omega
    calc interpolate f k ≤ f ⌈k⌉ := interpolate_le (ascends floorK ceilK (Int.floor_le_ceil k))
      _ ≤ f ⌊l⌋ := ascends ceilK floorL across
      _ ≤ interpolate f l := le_interpolate (ascends floorL ceilL (Int.floor_le_ceil l))

end Interpolation

section Sorting

variable {α : Type} [LinearOrder α]

theorem orderedInsert_of_least {a : α} {l : List α} (least : ∀ b ∈ l, a ≤ b) :
    l.orderedInsert (· ≤ ·) a = a :: l := by
  cases l with
  | nil => rfl
  | cons b l => exact List.orderedInsert_cons_of_le _ l (least b (by simp))

theorem forall₂_orderedInsert {a b : α} {xs ys : List α} (sortedX : xs.Pairwise (· ≤ ·))
    (sortedY : ys.Pairwise (· ≤ ·)) (below : List.Forall₂ (· ≤ ·) xs ys) (le : a ≤ b) :
    List.Forall₂ (· ≤ ·) (xs.orderedInsert (· ≤ ·) a) (ys.orderedInsert (· ≤ ·) b) := by
  induction below generalizing a b with
  | nil => simpa using le
  | @cons x y xs ys first rest ih =>
    obtain ⟨leastX, tailX⟩ := List.pairwise_cons.mp sortedX
    obtain ⟨leastY, tailY⟩ := List.pairwise_cons.mp sortedY
    rw [List.orderedInsert_cons, List.orderedInsert_cons]
    by_cases beforeX : a ≤ x
    · rw [if_pos beforeX]
      by_cases beforeY : b ≤ y
      · rw [if_pos beforeY]
        exact .cons le (.cons first rest)
      · -- `a` stands before `x`, and `b` goes behind `y`
        rw [if_neg beforeY]
        have moved := ih tailX tailY (first.trans (le_of_not_ge beforeY))
        rw [orderedInsert_of_least leastX] at moved
        exact .cons (beforeX.trans first) moved
    · rw [if_neg beforeX]
      have passed : x ≤ a := le_of_not_ge beforeX
      by_cases beforeY : b ≤ y
      · rw [if_pos beforeY]
        have moved := ih tailX tailY (le.trans beforeY)
        rw [orderedInsert_of_least leastY] at moved
        exact .cons (passed.trans le) moved
      · rw [if_neg beforeY]
        exact .cons first (ih tailX tailY le)

theorem forall₂_insertionSort {xs ys : List α} (below : List.Forall₂ (· ≤ ·) xs ys) :
    List.Forall₂ (· ≤ ·) (xs.insertionSort (· ≤ ·)) (ys.insertionSort (· ≤ ·)) := by
  induction below with
  | nil => exact .nil
  | cons first rest ih =>
    rw [List.insertionSort_cons, List.insertionSort_cons]
    apply forall₂_orderedInsert
    · exact List.pairwise_insertionSort _ _
    · exact List.pairwise_insertionSort _ _
    · exact ih
    · exact first

theorem insertionSort_perm {xs ys : List α} (perm : xs.Perm ys) :
    xs.insertionSort (· ≤ ·) = ys.insertionSort (· ≤ ·) := by
  have same : (xs.insertionSort (· ≤ ·)).Perm (ys.insertionSort (· ≤ ·)) :=
    (List.perm_insertionSort _ xs).trans (perm.trans (List.perm_insertionSort _ ys).symm)
  exact same.eq_of_pairwise' (List.pairwise_insertionSort _ xs) (List.pairwise_insertionSort _ ys)

end Sorting
