import PqcLab.Library.Digits
import Mathlib.Order.Monotone.Basic

/-! UTC dates, counted from the first day whose year has four digits, and their compact ISO form. -/

namespace Calendar

open Digits

structure Date where
  year : Nat
  month : Nat
  day : Nat
  deriving DecidableEq, Repr

def isLeap (year : Nat) : Bool := year % 4 = 0 ∧ (year % 100 ≠ 0 ∨ year % 400 = 0)

def daysInMonth (year month : Nat) : Nat :=
  if month = 2 then if isLeap year then 29 else 28
  else if month = 4 ∨ month = 6 ∨ month = 9 ∨ month = 11 then 30
  else 31

def Date.next (d : Date) : Date :=
  if d.day < daysInMonth d.year d.month then { d with day := d.day + 1 }
  else if d.month < 12 then ⟨d.year, d.month + 1, 1⟩
  else ⟨d.year + 1, 1, 1⟩

/-- The date so many days after 1000-01-01. -/
def date : Nat → Date
  | 0 => ⟨1000, 1, 1⟩
  | n + 1 => (date n).next

/-- `date -u +"%Y%m%dT%H%M%SZ"`, so many seconds after 1000-01-01T00:00:00Z. -/
def stamp (seconds : Nat) : Text :=
  let d := date (seconds / 86400)
  let s := seconds % 86400
  padded 4 d.year ++ padded 2 d.month ++ padded 2 d.day ++ 'T' ::
    (padded 2 (s / 3600) ++ padded 2 (s / 60 % 60) ++ padded 2 (s % 60) ++ ['Z'])

def FourDigits (seconds : Nat) : Prop := (date (seconds / 86400)).year ≤ 9999

instance (seconds : Nat) : Decidable (FourDigits seconds) := inferInstanceAs (Decidable (_ ≤ _))

structure Date.Valid (d : Date) : Prop where
  month : 1 ≤ d.month ∧ d.month ≤ 12
  day : 1 ≤ d.day ∧ d.day ≤ 31

/-- A date as one number, its digits read in a row. -/
def Date.number (d : Date) : Nat := d.year * 10000 + d.month * 100 + d.day

theorem daysInMonth_le (year month : Nat) : daysInMonth year month ≤ 31 := by
  unfold daysInMonth
  split_ifs <;> omega

theorem Date.Valid.next {d : Date} (valid : d.Valid) : d.next.Valid := by
  obtain ⟨month, day⟩ := valid
  have days := daysInMonth_le d.year d.month
  unfold Date.next
  split_ifs with inside before
  · exact ⟨month, by simp; omega⟩
  · exact ⟨by simp; omega, by simp⟩
  · exact ⟨by simp, by simp⟩

theorem date_valid (n : Nat) : (date n).Valid := by
  induction n with
  | zero => exact ⟨by decide, by decide⟩
  | succ n ih => exact ih.next

theorem Date.Valid.number_lt_next {d : Date} (valid : d.Valid) : d.number < d.next.number := by
  obtain ⟨month, day⟩ := valid
  unfold Date.next Date.number
  split_ifs <;> simp only <;> omega

theorem number_strictMono : StrictMono fun n => (date n).number :=
  strictMono_nat_of_lt_succ fun n => (date_valid n).number_lt_next

theorem padded_append (a b x : Nat) {y : Nat} (low : y < 10 ^ b) :
    padded a x ++ padded b y = padded (a + b) (x * 10 ^ b + y) := by
  have positive : 0 < 10 ^ b := Nat.pow_pos (by decide)
  induction a with
  | zero =>
    rw [Nat.zero_add, padded, List.nil_append]
    have same : ∀ k ≤ b, padded k y = padded k (x * 10 ^ b + y) := by
      intro k bound
      induction k with
      | zero => rfl
      | succ k ih =>
        obtain ⟨rest, rfl⟩ := Nat.exists_eq_add_of_le bound
        have split : x * 10 ^ (k + 1 + rest) + y = 10 ^ k * (10 * (x * 10 ^ rest)) + y := by ring
        rw [padded, padded, ih (by omega), split, Nat.mul_add_div (Nat.pow_pos (by decide)),
          Nat.mul_add_mod]
    exact same b le_rfl
  | succ a ih =>
    have split : x * 10 ^ b + y = 10 ^ b * x + y := by ring
    rw [padded, List.cons_append, ih, Nat.succ_add, padded]
    congr 3
    rw [split, Nat.pow_add, Nat.mul_comm (10 ^ a), ← Nat.div_div_eq_div_mul,
      Nat.mul_add_div positive, Nat.div_eq_of_lt low, Nat.add_zero]

def timeNumber (s : Nat) : Nat := s / 3600 * 10000 + s / 60 % 60 * 100 + s % 60

theorem timeNumber_lt {s t : Nat} (less : s < t) : timeNumber s < timeNumber t := by
  have hourS : s / 3600 = s / 60 / 60 := by rw [Nat.div_div_eq_div_mul]
  have hourT : t / 3600 = t / 60 / 60 := by rw [Nat.div_div_eq_div_mul]
  unfold timeNumber
  omega

theorem timeNumber_bound {s : Nat} (h : s < 86400) : timeNumber s < 10 ^ 6 := by
  unfold timeNumber
  omega

theorem stamp_eq (seconds : Nat) :
    stamp seconds = padded 8 (date (seconds / 86400)).number ++ 'T' ::
      (padded 6 (timeNumber (seconds % 86400)) ++ ['Z']) := by
  obtain ⟨month, day⟩ := date_valid (seconds / 86400)
  unfold stamp
  dsimp only
  rw [padded_append 4 2 _ (by omega), padded_append 6 2 _ (by omega), padded_append 2 2 _ (by omega),
    padded_append 4 2 _ (by omega)]
  simp only [Date.number, timeNumber]
  congr 2
  · ring
  · congr 2
    ring

/-- The lexicographic order of stamps is the order of time, over every rollover. -/
theorem stamp_lt {s t : Nat} (less : s < t) (fits : FourDigits t) : stamp s < stamp t := by
  have bound : (date (t / 86400)).number < 10 ^ 8 := by
    obtain ⟨month, day⟩ := date_valid (t / 86400)
    unfold FourDigits at fits
    unfold Date.number
    omega
  have days : s / 86400 ≤ t / 86400 := Nat.div_le_div_right less.le
  rw [stamp_eq, stamp_eq]
  rcases Nat.lt_or_eq_of_le days with earlier | same
  · have numbers := number_strictMono earlier
    dsimp only at numbers
    refine Text.append_lt_left (by simp) (padded_lt ?_) _ _
    rw [Nat.mod_eq_of_lt bound, Nat.mod_eq_of_lt (numbers.trans bound)]
    exact numbers
  · rw [same]
    refine (Text.append_lt_append_iff _).mpr (List.cons_lt_cons_iff.mpr (.inr ⟨rfl, ?_⟩))
    have later : s % 86400 < t % 86400 := by omega
    have numbers := timeNumber_lt later
    have bound := timeNumber_bound (Nat.mod_lt t (by decide : 0 < 86400))
    refine Text.append_lt_left (by simp) (padded_lt ?_) _ _
    rw [Nat.mod_eq_of_lt bound, Nat.mod_eq_of_lt (numbers.trans bound)]
    exact numbers

theorem FourDigits.mono {s t : Nat} (before : s ≤ t) (fits : FourDigits t) : FourDigits s := by
  have days : s / 86400 ≤ t / 86400 := Nat.div_le_div_right before
  have numbers := number_strictMono.monotone days
  obtain ⟨monthS, dayS⟩ := date_valid (s / 86400)
  obtain ⟨monthT, dayT⟩ := date_valid (t / 86400)
  unfold FourDigits at fits ⊢
  simp only [Date.number] at numbers
  omega

end Calendar
