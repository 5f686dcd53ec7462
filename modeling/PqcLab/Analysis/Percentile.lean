import PqcLab.Analysis.Bench
import PqcLab.Library.OrderStatistics
import Mathlib.Algebra.Order.BigOperators.Group.List
import Mathlib.Data.List.GetD
import Mathlib.Tactic.FieldSimp

/-! The elapsed times of a summary in exact arithmetic. -/

namespace PqcLab

open Interpolation

/-- `sorted_vals[i]` -/
def position (xs : List ℚ) (i : ℤ) : ℚ := xs.getD i.toNat 0

/-- `len(sorted_vals) - 1` -/
def lastIndex (xs : List ℚ) : ℤ := xs.length - 1

variable {xs ys : List ℚ}

theorem position_monotoneOn (sorted : xs.Pairwise (· ≤ ·)) :
    MonotoneOn (position xs) (Set.Icc 0 (lastIndex xs)) := by
  intro i first j last ordered
  obtain ⟨low, -⟩ := first
  obtain ⟨-, high⟩ := last
  unfold lastIndex at high
  unfold position
  rw [List.getD_eq_getElem xs 0 (by omega), List.getD_eq_getElem xs 0 (by omega)]
  rcases ordered.eq_or_lt with same | before
  · simp [same]
  · exact List.pairwise_iff_getElem.mp sorted _ _ _ _ (by omega)

theorem position_getElem? {i : ℤ} (low : 0 ≤ i) (high : i ≤ lastIndex xs) :
    xs[i.toNat]? = some (position xs i) := by
  unfold lastIndex at high
  have inside : i.toNat < xs.length := by omega
  unfold position
  rw [List.getD_eq_getElem xs 0 inside, List.getElem?_eq_getElem inside]

/-- The three cases of the code are one interpolation. -/
theorem percentile_eq (xs : List ℚ) (p : ℚ) :
    percentile xs p = interpolate (position xs) (lastIndex xs * p) := by
  by_cases single : xs.length = 1
  · have start : (lastIndex xs : ℚ) * p = ((0 : ℤ) : ℚ) := by simp [lastIndex, single]
    rw [start, interpolate_intCast]
    unfold percentile
    rw [if_pos single]
    rfl
  · unfold percentile
    rw [if_neg single]
    rfl

theorem lastIndex_nonneg (nonempty : xs ≠ []) : 0 ≤ lastIndex xs := by
  have := List.length_pos_iff.mpr nonempty
  unfold lastIndex
  omega

theorem median_eq (nonempty : xs ≠ []) : median xs = interpolate (position xs) (lastIndex xs * (1 / 2)) := by
  have positive := List.length_pos_iff.mpr nonempty
  unfold median
  dsimp only
  by_cases odd : xs.length % 2 = 1
  · have middle : (lastIndex xs : ℚ) * (1 / 2) = ((xs.length / 2 : ℕ) : ℤ) := by
      have double : lastIndex xs = 2 * (xs.length / 2 : ℕ) := by
        unfold lastIndex
        omega
      rw [double]
      push_cast
      ring
    rw [if_pos odd, middle, interpolate_intCast]
    rfl
  · obtain ⟨m, length⟩ : ∃ m : ℕ, xs.length = 2 * (m + 1) := ⟨xs.length / 2 - 1, by omega⟩
    have middle : (lastIndex xs : ℚ) * (1 / 2) = m + 1 / 2 := by
      have double : lastIndex xs = 2 * m + 1 := by
        unfold lastIndex
        omega
      rw [double]
      push_cast
      ring
    have floor : ⌊(m : ℚ) + 1 / 2⌋ = m := by
      rw [Int.floor_eq_iff]
      constructor
      · push_cast
        linarith
      · push_cast
        linarith
    have ceil : ⌈(m : ℚ) + 1 / 2⌉ = m + 1 := by
      rw [Int.ceil_eq_iff]
      constructor
      · push_cast
        linarith
      · push_cast
        linarith
    have before : xs.length / 2 - 1 = m := by omega
    have after : xs.length / 2 = m + 1 := by omega
    rw [if_neg odd, middle, interpolate_eq, floor, ceil, before, after]
    change (xs.getD m 0 + xs.getD (m + 1) 0) / 2 = xs.getD m 0 + (xs.getD (m + 1) 0 - xs.getD m 0) * _
    push_cast
    ring

theorem index_within {p : ℚ} (nonempty : xs ≠ []) (low : 0 ≤ p) (high : p ≤ 1) :
    ((0 : ℤ) : ℚ) ≤ lastIndex xs * p ∧ (lastIndex xs : ℚ) * p ≤ lastIndex xs := by
  have last : (0 : ℚ) ≤ lastIndex xs := by exact_mod_cast lastIndex_nonneg nonempty
  constructor
  · rw [Int.cast_zero]
    exact mul_nonneg last low
  · exact mul_le_of_le_one_right last high

theorem percentile_mono {p q : ℚ} (sorted : xs.Pairwise (· ≤ ·)) (nonempty : xs ≠ []) (low : 0 ≤ p)
    (ordered : p ≤ q) (high : q ≤ 1) : percentile xs p ≤ percentile xs q := by
  rw [percentile_eq, percentile_eq]
  apply interpolate_mono (position_monotoneOn sorted)
  · exact (index_within nonempty low (ordered.trans high)).1
  · have last : (0 : ℚ) ≤ lastIndex xs := by exact_mod_cast lastIndex_nonneg nonempty
    exact mul_le_mul_of_nonneg_left ordered last
  · exact (index_within nonempty (low.trans ordered) high).2

theorem percentile_zero (xs : List ℚ) : percentile xs 0 = position xs 0 := by
  have start : (lastIndex xs : ℚ) * 0 = ((0 : ℤ) : ℚ) := by simp
  rw [percentile_eq, start, interpolate_intCast]

theorem percentile_one (xs : List ℚ) : percentile xs 1 = position xs (lastIndex xs) := by
  rw [percentile_eq, mul_one, interpolate_intCast]

structure PercentileAt (xs : List ℚ) (p low high : ℚ) : Prop where
  start : 0 ≤ ⌊(xs.length - 1) * p⌋
  stop : ⌈(xs.length - 1) * p⌉ < xs.length
  lower : xs[⌊(xs.length - 1) * p⌋.toNat]? = some low
  upper : xs[⌈(xs.length - 1) * p⌉.toNat]? = some high
  above : low ≤ percentile xs p
  below : percentile xs p ≤ high

theorem percentile_at {p : ℚ} (sorted : xs.Pairwise (· ≤ ·)) (nonempty : xs ≠ []) (low : 0 ≤ p) (high : p ≤ 1) :
    ∃ lower upper, PercentileAt xs p lower upper := by
  obtain ⟨above, below⟩ := index_within nonempty low high
  have index : (xs.length - 1 : ℚ) * p = lastIndex xs * p := by
    unfold lastIndex
    push_cast
    ring
  have start : 0 ≤ ⌊(lastIndex xs : ℚ) * p⌋ := Int.le_floor.mpr above
  have stop : ⌈(lastIndex xs : ℚ) * p⌉ ≤ lastIndex xs := Int.ceil_le.mpr below
  have between := Int.floor_le_ceil ((lastIndex xs : ℚ) * p)
  have ordered : position xs ⌊(lastIndex xs : ℚ) * p⌋ ≤ position xs ⌈(lastIndex xs : ℚ) * p⌉ :=
    position_monotoneOn sorted ⟨start, between.trans stop⟩ ⟨start.trans between, stop⟩ between
  refine ⟨position xs ⌊(lastIndex xs : ℚ) * p⌋, position xs ⌈(lastIndex xs : ℚ) * p⌉, ?_, ?_, ?_, ?_, ?_, ?_⟩
  · rw [index]
    exact start
  · rw [index]
    unfold lastIndex at *
    omega
  · rw [index]
    exact position_getElem? start (between.trans stop)
  · rw [index]
    exact position_getElem? (start.trans between) stop
  · rw [percentile_eq]
    exact le_interpolate ordered
  · rw [percentile_eq]
    exact interpolate_le ordered

theorem sortFloats_eq (xs : List ℚ) : sortFloats xs = xs.insertionSort (· ≤ ·) := by
  have same := List.map_insertionSort (fun a b : ℚ => PyFloat.le a b = true) (· ≤ ·) id xs
    fun a _ b _ => decide_eq_true_iff
  simpa [sortFloats] using same

theorem foldl_min_sorted {a : ℚ} (least : ∀ x ∈ xs, a ≤ x) :
    xs.foldl (fun low x => if PyFloat.le low x then low else x) a = a := by
  induction xs with
  | nil => rfl
  | cons x xs ih =>
    have keeps : PyFloat.le a x = true := decide_eq_true (least x (by simp))
    rw [List.foldl_cons, if_pos keeps]
    exact ih fun y member => least y (by simp [member])

theorem foldl_max_sorted {a : ℚ} (sorted : (a :: xs).Pairwise (· ≤ ·)) :
    xs.foldl (fun high x => if PyFloat.le x high then high else x) a = (a :: xs).getLast (by simp) := by
  induction xs generalizing a with
  | nil => rfl
  | cons x xs ih =>
    obtain ⟨least, tail⟩ := List.pairwise_cons.mp sorted
    have next : (if PyFloat.le x a then a else x) = x := by
      split_ifs with same
      · exact le_antisymm (least x (by simp)) (of_decide_eq_true same)
      · rfl
    rw [List.foldl_cons, next, ih tail, List.getLast_cons_cons]

theorem pyMin_sorted (sorted : xs.Pairwise (· ≤ ·)) (nonempty : xs ≠ []) : pyMin xs = position xs 0 := by
  cases xs with
  | nil => exact absurd rfl nonempty
  | cons a l => exact foldl_min_sorted (List.pairwise_cons.mp sorted).1

theorem pyMax_sorted (sorted : xs.Pairwise (· ≤ ·)) (nonempty : xs ≠ []) :
    pyMax xs = position xs (lastIndex xs) := by
  cases xs with
  | nil => exact absurd rfl nonempty
  | cons a l =>
    have last : pyMax (a :: l) = (a :: l).getLast (by simp) := foldl_max_sorted sorted
    rw [last, List.getLast_eq_getElem]
    unfold position lastIndex
    rw [List.getD_eq_getElem _ _ (by simp)]
    simp

def BenchFigures.elapsed {α : Type} (f : BenchFigures α) : List α :=
  [f.elapsedMeanMs, f.elapsedMedianMs, f.elapsedP95Ms, f.elapsedP99Ms, f.elapsedMinMs, f.elapsedMaxMs]

def mean (xs : List ℚ) : ℚ := xs.sum / xs.length

def elapsedFigures (xs : List ℚ) : List ℚ :=
  [mean xs, percentile xs (1 / 2), percentile xs (95 / 100), percentile xs (99 / 100), percentile xs 0,
    percentile xs 1]

def sortedElapsed (rows : List (BenchRow ℚ)) : List ℚ := (rows.map (·.elapsedMs)).insertionSort (· ≤ ·)

theorem sortedElapsed_ne_nil {rows : List (BenchRow ℚ)} (nonempty : rows ≠ []) : sortedElapsed rows ≠ [] := by
  intro empty
  apply nonempty
  have length := congrArg List.length empty
  unfold sortedElapsed at length
  rw [List.length_insertionSort, List.length_map] at length
  exact List.length_eq_zero_iff.mp length

/-- All elapsed figures but the mean are percentiles. -/
theorem benchFigures_elapsed {rows : List (BenchRow ℚ)} (nonempty : rows ≠ []) :
    ∃ figures, benchFigures rows = .ok figures ∧
      figures.elapsed = elapsedFigures (sortedElapsed rows) := by
  have counted (values : List ℤ) : ∃ n : PyNumber ℚ, meanInts values = .ok n := by
    unfold meanInts
    dsimp only
    split_ifs
    · exact ⟨_, rfl⟩
    · exact ⟨_, rfl⟩
  obtain ⟨successRate, success⟩ := counted (rows.map (·.success))
  obtain ⟨bytesReadMean, bytesRead⟩ := counted (rows.map (·.bytesRead))
  obtain ⟨bytesWrittenMean, bytesWritten⟩ := counted (rows.map (·.bytesWritten))
  have sorted : (sortedElapsed rows).Pairwise (· ≤ ·) := List.pairwise_insertionSort _ _
  have some := sortedElapsed_ne_nil nonempty
  unfold benchFigures
  rw [success, bytesRead, bytesWritten, sortFloats_eq, ← sortedElapsed]
  refine ⟨_, rfl, ?_⟩
  change [mean _, median _, percentile _ _, percentile _ _, pyMin _, pyMax _] = _
  rw [median_eq some, ← percentile_eq, pyMin_sorted sorted some, ← percentile_zero, pyMax_sorted sorted some,
    ← percentile_one]
  rfl

theorem mean_between {low high : ℚ} (nonempty : xs ≠ []) (bounds : ∀ x ∈ xs, low ≤ x ∧ x ≤ high) :
    low ≤ mean xs ∧ mean xs ≤ high := by
  have positive : (0 : ℚ) < xs.length := by exact_mod_cast List.length_pos_iff.mpr nonempty
  have least : xs.length • low ≤ xs.sum := List.card_nsmul_le_sum xs low fun x member => (bounds x member).1
  have greatest : xs.sum ≤ xs.length • high := List.sum_le_card_nsmul xs high fun x member => (bounds x member).2
  rw [nsmul_eq_mul] at least greatest
  unfold mean
  constructor
  · rw [le_div_iff₀ positive]
    linarith
  · rw [div_le_iff₀ positive]
    linarith

theorem extremes_sorted (sorted : xs.Pairwise (· ≤ ·)) : ∀ x ∈ xs, percentile xs 0 ≤ x ∧ x ≤ percentile xs 1 := by
  intro x member
  obtain ⟨i, inside, rfl⟩ := List.getElem_of_mem member
  have found : xs[i] = position xs i := by
    unfold position
    rw [List.getD_eq_getElem _ _ (by simpa using inside)]
    simp
  have last : (i : ℤ) ≤ lastIndex xs := by
    unfold lastIndex
    omega
  rw [percentile_zero, percentile_one, found]
  constructor
  · apply position_monotoneOn sorted
    · exact ⟨le_rfl, by omega⟩
    · exact ⟨by omega, last⟩
    · omega
  · apply position_monotoneOn sorted
    · exact ⟨by omega, last⟩
    · exact ⟨by omega, le_rfl⟩
    · exact last

structure PercentileLaws (xs : List ℚ) : Prop where
  within : ∀ p, 0 ≤ p → p ≤ 1 → ∃ low high, PercentileAt xs p low high
  mono : ∀ p q, 0 ≤ p → p ≤ q → q ≤ 1 → percentile xs p ≤ percentile xs q
  first : xs[0]? = some (percentile xs 0)
  last : xs[xs.length - 1]? = some (percentile xs 1)
  middle : percentile xs (1 / 2) = median xs

structure FiguresOrdered (f : BenchFigures ℚ) : Prop where
  minMedian : f.elapsedMinMs ≤ f.elapsedMedianMs
  medianP95 : f.elapsedMedianMs ≤ f.elapsedP95Ms
  p95P99 : f.elapsedP95Ms ≤ f.elapsedP99Ms
  p99Max : f.elapsedP99Ms ≤ f.elapsedMaxMs
  minMean : f.elapsedMinMs ≤ f.elapsedMeanMs
  meanMax : f.elapsedMeanMs ≤ f.elapsedMaxMs

theorem percentileLaws (sorted : xs.Pairwise (· ≤ ·)) (nonempty : xs ≠ []) : PercentileLaws xs where
  within _ low high := percentile_at sorted nonempty low high
  mono _ _ low ordered high := percentile_mono sorted nonempty low ordered high
  first := by
    rw [percentile_zero, ← position_getElem? le_rfl (lastIndex_nonneg nonempty)]
    rfl
  last := by
    have index : (lastIndex xs).toNat = xs.length - 1 := by
      unfold lastIndex
      omega
    rw [percentile_one, ← position_getElem? (lastIndex_nonneg nonempty) le_rfl, index]
  middle := by rw [median_eq nonempty, percentile_eq]

theorem figuresOrdered {figures : BenchFigures ℚ} (sorted : xs.Pairwise (· ≤ ·)) (nonempty : xs ≠ [])
    (elapsed : figures.elapsed = elapsedFigures xs) : FiguresOrdered figures := by
  obtain ⟨low, high⟩ := mean_between nonempty (extremes_sorted sorted)
  have ascends (p q : ℚ) (first : 0 ≤ p) (ordered : p ≤ q) (last : q ≤ 1) : percentile xs p ≤ percentile xs q :=
    percentile_mono sorted nonempty first ordered last
  simp only [BenchFigures.elapsed, elapsedFigures, List.cons.injEq, and_true] at elapsed
  obtain ⟨mean, median, p95, p99, min, max⟩ := elapsed
  constructor
  · rw [min, median]
    exact ascends _ _ (by norm_num) (by norm_num) (by norm_num)
  · rw [median, p95]
    exact ascends _ _ (by norm_num) (by norm_num) (by norm_num)
  · rw [p95, p99]
    exact ascends _ _ (by norm_num) (by norm_num) (by norm_num)
  · rw [p99, max]
    exact ascends _ _ (by norm_num) (by norm_num) (by norm_num)
  · rw [min, mean]
    exact low
  · rw [mean, max]
    exact high

/-- The order is that of exact arithmetic: in doubles the 95th percentile of 0.295 and 0.295 lies above both. -/
theorem percentiles_and_figures_ordered :
    (∀ xs : List ℚ, xs ≠ [] → xs.Pairwise (· ≤ ·) → PercentileLaws xs) ∧
      ∀ rows : List (BenchRow ℚ), rows ≠ [] →
        ∃ figures, benchFigures rows = .ok figures ∧ FiguresOrdered figures := by
  constructor
  · intro xs nonempty sorted
    exact percentileLaws sorted nonempty
  · intro rows nonempty
    obtain ⟨figures, computed, elapsed⟩ := benchFigures_elapsed nonempty
    exact ⟨figures, computed, figuresOrdered (List.pairwise_insertionSort _ _) (sortedElapsed_ne_nil nonempty) elapsed⟩

theorem position_le (below : List.Forall₂ (· ≤ ·) xs ys) (i : ℤ) : position xs i ≤ position ys i := by
  unfold position
  generalize i.toNat = n
  induction below generalizing n with
  | nil => simp
  | cons first _ ih =>
    cases n with
    | zero => exact first
    | succ n => exact ih n

theorem percentile_le (below : List.Forall₂ (· ≤ ·) xs ys) (p : ℚ) : percentile xs p ≤ percentile ys p := by
  have length : lastIndex xs = lastIndex ys := by
    unfold lastIndex
    rw [below.length_eq]
  rw [percentile_eq, percentile_eq, length]
  apply interpolate_le_interpolate
  · exact position_le below _
  · exact position_le below _

theorem mean_le (below : List.Forall₂ (· ≤ ·) xs ys) : mean xs ≤ mean ys := by
  unfold mean
  rw [below.length_eq]
  apply div_le_div_of_nonneg_right
  · exact below.sum_le_sum
  · exact Nat.cast_nonneg _

theorem elapsedFigures_le (below : List.Forall₂ (· ≤ ·) xs ys) :
    List.Forall₂ (· ≤ ·) (elapsedFigures xs) (elapsedFigures ys) :=
  .cons (mean_le below) (.cons (percentile_le below _) (.cons (percentile_le below _)
    (.cons (percentile_le below _) (.cons (percentile_le below _) (.cons (percentile_le below _) .nil)))))

theorem sortedElapsed_le {rows others matched : List (BenchRow ℚ)} (perm : matched.Perm others)
    (below : List.Forall₂ (fun a b => a.elapsedMs ≤ b.elapsedMs) rows matched) :
    List.Forall₂ (· ≤ ·) (sortedElapsed rows) (sortedElapsed others) := by
  have columns : List.Forall₂ (· ≤ ·) (rows.map (·.elapsedMs)) (matched.map (·.elapsedMs)) := by
    rw [List.forall₂_map_left_iff, List.forall₂_map_right_iff]
    exact below
  have sorted : sortedElapsed others = (matched.map (·.elapsedMs)).insertionSort (· ≤ ·) :=
    (insertionSort_perm (perm.map _)).symm
  rw [sorted]
  exact forall₂_insertionSort columns

/-- When the rows of two files can be matched so that each time of the first is at most its partner's,
every elapsed figure of the first is at most that of the second. -/
theorem matched_rows_order_figures {rows others matched : List (BenchRow ℚ)} (nonempty : rows ≠ [])
    (perm : matched.Perm others)
    (below : List.Forall₂ (fun a b => a.elapsedMs ≤ b.elapsedMs) rows matched) :
    ∃ a b, benchFigures rows = .ok a ∧ benchFigures others = .ok b ∧
      List.Forall₂ (· ≤ ·) a.elapsed b.elapsed ∧
      ∀ shuffled, shuffled.Perm rows → ∃ c, benchFigures shuffled = .ok c ∧ c.elapsed = a.elapsed := by
  have some : others ≠ [] := by
    intro empty
    apply nonempty
    rw [empty, List.perm_nil] at perm
    rw [perm] at below
    exact List.forall₂_nil_right_iff.mp below
  obtain ⟨a, computedA, elapsedA⟩ := benchFigures_elapsed nonempty
  obtain ⟨b, computedB, elapsedB⟩ := benchFigures_elapsed some
  refine ⟨a, b, computedA, computedB, ?_, ?_⟩
  · rw [elapsedA, elapsedB]
    exact elapsedFigures_le (sortedElapsed_le perm below)
  · intro shuffled same
    have rest : shuffled ≠ [] := by
      intro empty
      apply nonempty
      exact List.perm_nil.mp (empty ▸ same.symm)
    obtain ⟨c, computedC, elapsedC⟩ := benchFigures_elapsed rest
    refine ⟨c, computedC, ?_⟩
    rw [elapsedA, elapsedC, sortedElapsed, insertionSort_perm (same.map _)]
    rfl

theorem matched_rows_order_figures_swapped :
    let row (elapsedMs : ℚ) : BenchRow ℚ := ⟨1, elapsedMs, 1, 0, 9000, 700, 2, 11122⟩
    ∃ a b, benchFigures [row 3, row 1] = .ok a ∧ benchFigures [row 2, row 4] = .ok b ∧
      List.Forall₂ (· ≤ ·) a.elapsed b.elapsed := by
  intro row
  have matched : List.Forall₂ (fun a b => a.elapsedMs ≤ b.elapsedMs) [row 3, row 1] [row 4, row 2] := by
    refine .cons ?_ (.cons ?_ .nil)
    · change (3 : ℚ) ≤ 4
      norm_num
    · change (1 : ℚ) ≤ 2
      norm_num
  obtain ⟨a, b, computedA, computedB, below, -⟩ :=
    matched_rows_order_figures (by simp) (List.Perm.swap _ _ _) matched
  exact ⟨a, b, computedA, computedB, below⟩

end PqcLab
