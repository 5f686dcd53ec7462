import PqcLab.Library.Text
import Mathlib.Data.Int.Basic
import Mathlib.Data.List.Lex
import Mathlib.Order.Basic
import Mathlib.Tactic.Ring

/-! Decimal numerals: how `printf` writes them, and how `int()` and `atoi` read them. -/

namespace Digits

/-- `%d` of a number that is not negative. -/
def decimal (n : Nat) : Text := Nat.toDigits 10 n

/-- `%d` and `%ld` -/
def signed : Int → Text
  | .ofNat n => decimal n
  | .negSucc n => '-' :: decimal (n + 1)

/-- `%0wd`, for numbers of at most `w` digits. -/
def padded : Nat → Nat → Text
  | 0, _ => []
  | w + 1, n => (n / 10 ^ w % 10).digitChar :: padded w n

/-- The zero of each run of ten decimal digits that Unicode knows. -/
def zeros : List Nat :=
  [0x30, 0x660, 0x6f0, 0x7c0, 0x966, 0x9e6, 0xa66, 0xae6, 0xb66, 0xbe6, 0xc66, 0xce6, 0xd66, 0xde6,
    0xe50, 0xed0, 0xf20, 0x1040, 0x1090, 0x17e0, 0x1810, 0x1946, 0x19d0, 0x1a80, 0x1a90, 0x1b50,
    0x1bb0, 0x1c40, 0x1c50, 0xa620, 0xa8d0, 0xa900, 0xa9d0, 0xa9f0, 0xaa50, 0xabf0, 0xff10, 0x104a0,
    0x10d30, 0x11066, 0x110f0, 0x11136, 0x111d0, 0x112f0, 0x11450, 0x114d0, 0x11650, 0x116c0,
    0x11730, 0x118e0, 0x11950, 0x11c50, 0x11d50, 0x11da0, 0x11f50, 0x16a60, 0x16ac0, 0x16b50,
    0x1d7ce, 0x1d7d8, 0x1d7e2, 0x1d7ec, 0x1d7f6, 0x1e140, 0x1e2f0, 0x1e4f0, 0x1e950, 0x1fbf0]

def digitValue (c : Char) : Option Nat :=
  (zeros.find? fun start => start ≤ c.toNat && c.toNat < start + 10).map (c.toNat - ·)

def ofDigits (digits : List Nat) : Nat := digits.foldl (fun n d => 10 * n + d) 0

def digitRun (afterDigit : Bool) : Text → Option (List Nat)
  | [] => if afterDigit then some [] else none
  | c :: rest =>
    if c = '_' then if afterDigit then digitRun false rest else none
    else match digitValue c with
      | none => none
      | some d => (digitRun true rest).map (d :: ·)

/-- `sys.int_info.default_max_str_digits` -/
def maxStrDigits : Nat := 4300

def pyNat (s : Text) : Option Nat :=
  match digitRun false s with
  | none => none
  | some digits => if digits.length ≤ maxStrDigits then some (ofDigits digits) else none

/-- `int(s)`; `none` is its `ValueError`. -/
def pyInt (s : Text) : Option Int :=
  match Text.stripNumber s with
  | '-' :: rest => (pyNat rest).map fun (n : Nat) => -(n : Int)
  | '+' :: rest => (pyNat rest).map fun (n : Nat) => (n : Int)
  | rest => (pyNat rest).map fun (n : Nat) => (n : Int)

example : pyInt "\x1c1".toList = none ∧ pyInt " 1\x0b".toList = some 1 := by decide

/-- `isspace` of the C locale. -/
def isCSpace (c : Char) : Bool := c == ' ' || (9 ≤ c.toNat && c.toNat ≤ 13)

def sign : Text → Bool × Text
  | '-' :: rest => (true, rest)
  | '+' :: rest => (false, rest)
  | rest => (false, rest)

/-- `strtol(s, NULL, 10)`: the longest numeral at the start, saturated to a 64-bit `long`. -/
def strtol (s : Text) : Int :=
  let (negative, unsigned) := sign (s.dropWhile isCSpace)
  let magnitude : Int := Nat.ofDigitChars 10 (unsigned.takeWhile Char.isDigit) 0
  if negative then max (-magnitude) (-2 ^ 63) else min magnitude (2 ^ 63 - 1)

/-- `atoi(s)`: `strtol` cut down to a 32-bit `int`. -/
def atoi (s : Text) : Int := (strtol s).bmod (2 ^ 32)

theorem mem_decimal {n : Nat} {c : Char} (member : c ∈ decimal n) : c.isDigit = true :=
  Nat.isDigit_of_mem_toDigits (by decide) (by decide) member

theorem isDigit_digitChar {d : Nat} (h : d < 10) : d.digitChar.isDigit = true := by
  have cases : d = 0 ∨ d = 1 ∨ d = 2 ∨ d = 3 ∨ d = 4 ∨ d = 5 ∨ d = 6 ∨ d = 7 ∨ d = 8 ∨ d = 9 := by
    omega
  rcases cases with rfl | rfl | rfl | rfl | rfl | rfl | rfl | rfl | rfl | rfl <;> decide

theorem mem_padded {w n : Nat} {c : Char} (member : c ∈ padded w n) : c.isDigit = true := by
  induction w with
  | zero => simp [padded] at member
  | succ w ih =>
    rcases List.mem_cons.mp member with rfl | member
    · exact isDigit_digitChar (Nat.mod_lt _ (by decide))
    · exact ih member

@[simp] theorem padded_length (w n : Nat) : (padded w n).length = w := by
  induction w with
  | zero => rfl
  | succ w ih => simp [padded, ih]

theorem isDigit_bounds {c : Char} (digit : c.isDigit = true) : 48 ≤ c.toNat ∧ c.toNat ≤ 57 := by
  simp only [Char.isDigit, Bool.and_eq_true, decide_eq_true_eq, ge_iff_le] at digit
  exact digit

theorem isDigit_not_space {c : Char} (digit : c.isDigit = true) : Text.isSpace c = false := by
  have bounds := isDigit_bounds digit
  simp only [Text.isSpace, Bool.or_eq_false_iff, Bool.and_eq_false_iff, decide_eq_false_iff_not,
    beq_eq_false_iff_ne]
  omega

theorem isDigit_ne {c d : Char} (digit : c.isDigit = true) (other : d.isDigit = false) : c ≠ d := by
  rintro rfl
  simp [digit] at other

theorem sign_digit {c : Char} (digit : c.isDigit = true) (rest : Text) :
    sign (c :: rest) = (false, c :: rest) := by
  have minus : c ≠ '-' := isDigit_ne digit (by decide)
  have plus : c ≠ '+' := isDigit_ne digit (by decide)
  simp [sign, minus, plus]

theorem digitValue_of_isDigit {c : Char} (digit : c.isDigit = true) :
    digitValue c = some (c.toNat - 48) := by
  have bounds := isDigit_bounds digit
  unfold digitValue zeros
  rw [List.find?_cons_of_pos]
  · simp
  · simp only [Bool.and_eq_true, decide_eq_true_eq]
    omega

theorem digitRun_of_digits {s : Text} (digits : ∀ c ∈ s, c.isDigit = true) {afterDigit : Bool}
    (nonempty : afterDigit = true ∨ s ≠ []) :
    digitRun afterDigit s = some (s.map fun c => c.toNat - 48) := by
  induction s generalizing afterDigit with
  | nil =>
    rcases nonempty with rfl | nonempty
    · rfl
    · exact absurd rfl nonempty
  | cons c s ih =>
    have digit := digits c (by simp)
    have plain : c ≠ '_' := isDigit_ne digit (by decide)
    have rest := ih (fun d member => digits d (by simp [member])) (.inl rfl)
    simp [digitRun, plain, digitValue_of_isDigit digit, rest]

theorem ofDigits_map (s : Text) (n : Nat) :
    (s.map fun c => c.toNat - 48).foldl (fun n d => 10 * n + d) n = Nat.ofDigitChars 10 s n := by
  induction s generalizing n with
  | nil => simp
  | cons c s ih =>
    rw [List.map_cons, List.foldl_cons, ih, Nat.ofDigitChars_cons]
    rfl

theorem ofDigitChars_padded (w n init : Nat) :
    Nat.ofDigitChars 10 (padded w n) init = 10 ^ w * init + n % 10 ^ w := by
  induction w generalizing init with
  | zero => simp [padded, Nat.mod_one]
  | succ w ih =>
    have digit : n / 10 ^ w % 10 < 10 := Nat.mod_lt _ (by decide)
    rw [padded, Nat.ofDigitChars_cons_digitChar_of_lt_ten digit, ih, Nat.pow_succ, Nat.mod_mul]
    ring

theorem ofDigitChars_lt {s : Text} (digits : ∀ c ∈ s, c.isDigit = true) :
    Nat.ofDigitChars 10 s 0 < 10 ^ s.length := by
  induction s with
  | nil => simp
  | cons c s ih =>
    have bounds := isDigit_bounds (digits c (by simp))
    have tail := ih fun d member => digits d (by simp [member])
    have digit : c.toNat - '0'.toNat ≤ 9 := by
      have zero : '0'.toNat = 48 := rfl
      omega
    rw [Nat.ofDigitChars_cons, Nat.mul_zero, Nat.zero_add, Nat.ofDigitChars_eq_ofDigitChars_zero,
      List.length_cons, Nat.pow_succ]
    have scaled := Nat.mul_le_mul_left (10 ^ s.length) digit
    omega

theorem pyNat_of_digits {s : Text} (digits : ∀ c ∈ s, c.isDigit = true) (nonempty : s ≠ [])
    (short : s.length ≤ maxStrDigits) : pyNat s = some (Nat.ofDigitChars 10 s 0) := by
  simp [pyNat, digitRun_of_digits digits (.inr nonempty), short, ofDigits, ofDigits_map]

theorem trimmed_of_digits {s : Text} (digits : ∀ c ∈ s, c.isDigit = true) : Text.Trimmed s :=
  ⟨fun _ member => isDigit_not_space (digits _ (List.mem_of_mem_head? member)),
    fun _ member => isDigit_not_space (digits _ (List.mem_of_mem_getLast? member))⟩

theorem pyInt_of_digits {s : Text} (digits : ∀ c ∈ s, c.isDigit = true) (nonempty : s ≠ [])
    (short : s.length ≤ maxStrDigits) : pyInt s = some (Nat.ofDigitChars 10 s 0 : Int) := by
  unfold pyInt
  rw [Text.stripNumber_of_trimmed (trimmed_of_digits digits)]
  have read := pyNat_of_digits digits nonempty short
  split
  · have := digits '-' (by simp)
    simp at this
  · have := digits '+' (by simp)
    simp at this
  · rw [read]
    rfl

theorem decimal_length_le {n k : Nat} (bound : n < 10 ^ k) (positive : 0 < k) :
    (decimal n).length ≤ k :=
  (Nat.length_toDigits_le_iff (by decide) positive).mpr bound

theorem pyInt_decimal {n : Nat} (bound : n < 10 ^ maxStrDigits) :
    pyInt (decimal n) = some (n : Int) := by
  rw [pyInt_of_digits (fun _ => mem_decimal) Nat.toDigits_ne_nil
    (decimal_length_le bound (by decide))]
  simp [decimal]

theorem pyInt_signed {n : Int} (bound : n.natAbs < 10 ^ maxStrDigits) :
    pyInt (signed n) = some n := by
  cases n with
  | ofNat n => exact pyInt_decimal bound
  | negSucc n =>
    have digits : ∀ c ∈ decimal (n + 1), c.isDigit = true := fun _ => mem_decimal
    have trimmed : Text.Trimmed ('-' :: decimal (n + 1)) := by
      refine ⟨by simp; decide, fun c member => ?_⟩
      rcases List.mem_cons.mp (List.mem_of_mem_getLast? member) with rfl | member
      · decide
      · exact isDigit_not_space (digits c member)
    have read := pyNat_of_digits digits Nat.toDigits_ne_nil
      (decimal_length_le bound (by decide))
    unfold pyInt signed
    rw [Text.stripNumber_of_trimmed trimmed]
    change (pyNat (decimal (n + 1))).map _ = _
    rw [read, decimal, Nat.ofDigitChars_ten_toDigits]
    rfl

theorem digitChar_lt {a b : Nat} (less : a < b) (bound : b < 10) : a.digitChar < b.digitChar := by
  revert less
  have cases : b = 0 ∨ b = 1 ∨ b = 2 ∨ b = 3 ∨ b = 4 ∨ b = 5 ∨ b = 6 ∨ b = 7 ∨ b = 8 ∨ b = 9 := by
    omega
  revert a
  rcases cases with rfl | rfl | rfl | rfl | rfl | rfl | rfl | rfl | rfl | rfl <;> decide

theorem padded_lt {w a b : Nat} (less : a % 10 ^ w < b % 10 ^ w) : padded w a < padded w b := by
  induction w with
  | zero => simp [Nat.mod_one] at less
  | succ w ih =>
    rw [Nat.pow_succ, Nat.mod_mul, Nat.mod_mul] at less
    have positive : 0 < 10 ^ w := Nat.pow_pos (by decide)
    have lowA := Nat.mod_lt a positive
    have lowB := Nat.mod_lt b positive
    have highA : a / 10 ^ w % 10 < 10 := Nat.mod_lt _ (by decide)
    have highB : b / 10 ^ w % 10 < 10 := Nat.mod_lt _ (by decide)
    rcases Nat.lt_trichotomy (a / 10 ^ w % 10) (b / 10 ^ w % 10) with high | high | high
    · exact List.cons_lt_cons_iff.mpr (.inl (digitChar_lt high highB))
    · refine List.cons_lt_cons_iff.mpr (.inr ⟨by rw [high], ih ?_⟩)
      rw [high] at less
      omega
    · have := Nat.mul_le_mul_left (10 ^ w) (Nat.succ_le_of_lt high)
      rw [Nat.mul_succ] at this
      omega

end Digits
