import PqcLab.Library.Binary64
import PqcLab.Library.Digits

/-! Decimal literals with a fraction and an exponent, `%.nf`, and `float()`. -/

namespace Decimal

open Digits Binary64

/-- `[+-] int [. frac] [e exponent]`, with a digit in the integer or the fractional part. -/
structure Literal where
  negative : Bool
  int : Text
  frac : Text
  exponent : ℤ
  deriving DecidableEq

def Literal.value (l : Literal) : ℚ :=
  let magnitude := (Nat.ofDigitChars 10 (l.int ++ l.frac) 0 : ℚ) * 10 ^ (l.exponent - l.frac.length)
  if l.negative then -magnitude else magnitude

def exponentPart : Text → Option ℤ
  | [] => some 0
  | mark :: rest =>
    if mark = 'e' ∨ mark = 'E' then
      let (negative, digits) := sign rest
      if digits ≠ [] ∧ digits.all Char.isDigit then
        some (if negative then -(Nat.ofDigitChars 10 digits 0 : ℤ) else Nat.ofDigitChars 10 digits 0)
      else none
    else none

def fractionPart : Text → Text × Text
  | '.' :: rest => (rest.takeWhile Char.isDigit, rest.dropWhile Char.isDigit)
  | rest => ([], rest)

def literal (s : Text) : Option Literal :=
  let (negative, unsigned) := sign s
  let int := unsigned.takeWhile Char.isDigit
  let (frac, rest) := fractionPart (unsigned.dropWhile Char.isDigit)
  if int = [] ∧ frac = [] then none
  else (exponentPart rest).map fun exponent => ⟨negative, int, frac, exponent⟩

/-- `%.nf`: the magnitude rounded to `places` decimals, ties to even. -/
def fixed (places : ℕ) (q : ℚ) : Text :=
  let scaled := (roundHalfEven (|q| * 10 ^ places)).toNat
  (if q < 0 then ['-'] else []) ++ decimal (scaled / 10 ^ places) ++ '.' ::
    padded places (scaled % 10 ^ places)

/-- Underscores may stand between two digits. -/
def dropUnderscores (afterDigit : Bool) : Text → Option Text
  | [] => some []
  | c :: rest =>
    if c = '_' then
      if afterDigit && rest.head?.any Char.isDigit then dropUnderscores false rest else none
    else (dropUnderscores c.isDigit rest).map (c :: ·)

/-- The decimal digits of any script as ASCII digits. -/
def asciiDigits (s : Text) : Text :=
  s.map fun c => match digitValue c with
    | some d => d.digitChar
    | none => c

def special (s : Text) : Option Double :=
  let (negative, word) := sign s
  let word := word.map Char.toLower
  if word = "inf".toList ∨ word = "infinity".toList then some (.infinite negative)
  else if word = "nan".toList then some .nan
  else none

/-- `float(s)`; `none` is its `ValueError`. -/
def pyFloat (s : Text) : Option Double :=
  match dropUnderscores false (asciiDigits (Text.stripNumber s)) with
  | none => none
  | some s => (special s).or ((literal s).map fun l => .ofRat l.value)

/-- `float(s)` in exact arithmetic, on the texts that denote a number. -/
def exactFloat (s : Text) : Option ℚ :=
  match dropUnderscores false (asciiDigits (Text.stripNumber s)) with
  | none => none
  | some s => (literal s).map Literal.value

theorem takeWhile_digits {digits : Text} (rest : Text) (all : ∀ c ∈ digits, c.isDigit = true)
    (stop : ∀ c ∈ rest.head?, c.isDigit = false) :
    (digits ++ rest).takeWhile Char.isDigit = digits ∧
      (digits ++ rest).dropWhile Char.isDigit = rest := by
  rw [List.takeWhile_append_of_pos all, List.dropWhile_append_of_pos all]
  cases rest with
  | nil => simp
  | cons c rest => simp [stop c (by simp)]

theorem literal_of_digits {int frac : Text} (intDigits : ∀ c ∈ int, c.isDigit = true)
    (fracDigits : ∀ c ∈ frac, c.isDigit = true) (nonempty : int ≠ []) :
    literal (int ++ '.' :: frac) = some ⟨false, int, frac, 0⟩ := by
  have unsigned : sign (int ++ '.' :: frac) = (false, int ++ '.' :: frac) := by
    cases int with
    | nil => exact absurd rfl nonempty
    | cons c int => exact sign_digit (intDigits c (by simp)) _
  obtain ⟨taken, dropped⟩ := takeWhile_digits ('.' :: frac) intDigits (by simp)
  obtain ⟨fracTaken, fracDropped⟩ := takeWhile_digits [] fracDigits (by simp)
  rw [List.append_nil] at fracTaken fracDropped
  simp [literal, unsigned, taken, dropped, fractionPart, fracTaken, fracDropped, nonempty, exponentPart]

theorem literal_decimal (n : ℕ) : literal (decimal n) = some ⟨false, decimal n, [], 0⟩ := by
  have digits : ∀ c ∈ decimal n, c.isDigit = true := fun _ => mem_decimal
  have nonempty : decimal n ≠ [] := Nat.toDigits_ne_nil
  obtain ⟨taken, dropped⟩ := takeWhile_digits [] digits (by simp)
  rw [List.append_nil] at taken dropped
  have unsigned : sign (decimal n) = (false, decimal n) := by
    cases shape : decimal n with
    | nil => exact absurd shape nonempty
    | cons c rest => exact sign_digit (digits c (by simp [shape])) rest
  simp [literal, unsigned, taken, dropped, fractionPart, nonempty, exponentPart]

theorem dropUnderscores_of_plain {s : Text} (plain : '_' ∉ s) (afterDigit : Bool) :
    dropUnderscores afterDigit s = some s := by
  induction s generalizing afterDigit with
  | nil => rfl
  | cons c s ih =>
    have head : c ≠ '_' := fun same => plain (by simp [same])
    have tail : '_' ∉ s := fun member => plain (by simp [member])
    simp [dropUnderscores, head, ih tail]

theorem asciiDigits_digit {c : Char} (digit : c.isDigit = true) : asciiDigits [c] = [c] := by
  have bounds := isDigit_bounds digit
  simp only [asciiDigits, List.map_cons, List.map_nil, digitValue_of_isDigit digit]
  have same : (c.toNat - 48).digitChar = c := by
    apply Char.toNat_inj.mp
    rw [Nat.toNat_digitChar_of_lt_ten (by omega)]
    omega
  rw [same]

theorem asciiDigits_append (s t : Text) : asciiDigits (s ++ t) = asciiDigits s ++ asciiDigits t := by
  simp [asciiDigits]

theorem asciiDigits_of_digits {s : Text} (digits : ∀ c ∈ s, c.isDigit = true) : asciiDigits s = s := by
  induction s with
  | nil => rfl
  | cons c s ih =>
    rw [← List.singleton_append, asciiDigits_append, asciiDigits_digit (digits c (by simp)),
      ih fun d member => digits d (by simp [member])]

theorem toLower_digit {c : Char} (digit : c.isDigit = true) : c.toLower = c := by
  have bounds := isDigit_bounds digit
  unfold Char.toLower
  rw [dif_neg]
  rintro ⟨upper, -⟩
  have : 65 ≤ c.toNat := upper
  omega

theorem special_of_digit {c : Char} (digit : c.isDigit = true) (rest : Text) :
    special (c :: rest) = none := by
  have unsigned := sign_digit digit rest
  have head (first : Char) (letter : first.isDigit = false) (word : Text) :
      (c :: rest).map Char.toLower ≠ first :: word := by
    rw [List.map_cons, toLower_digit digit]
    intro same
    injection same with same
    exact isDigit_ne digit letter same
  unfold special
  rw [unsigned]
  dsimp only
  rw [if_neg, if_neg]
  · exact head 'n' (by decide) ['a', 'n']
  · rintro (same | same)
    · exact head 'i' (by decide) ['n', 'f'] same
    · exact head 'i' (by decide) ['n', 'f', 'i', 'n', 'i', 't', 'y'] same

theorem read_digits {int frac : Text} (intDigits : ∀ c ∈ int, c.isDigit = true)
    (fracDigits : ∀ c ∈ frac, c.isDigit = true) (nonempty : int ≠ []) :
    dropUnderscores false (asciiDigits (Text.stripNumber (int ++ '.' :: frac))) = some (int ++ '.' :: frac) ∧
      special (int ++ '.' :: frac) = none := by
  have visible : ∀ c ∈ int ++ '.' :: frac, c.isDigit = true ∨ c = '.' := by
    intro c member
    rcases List.mem_append.mp member with member | member
    · exact .inl (intDigits c member)
    · rcases List.mem_cons.mp member with rfl | member
      · exact .inr rfl
      · exact .inl (fracDigits c member)
  have notSpace : ∀ c ∈ int ++ '.' :: frac, Text.isSpace c = false := by
    intro c member
    rcases visible c member with digit | rfl
    · exact isDigit_not_space digit
    · decide
  have trimmed : Text.Trimmed (int ++ '.' :: frac) :=
    ⟨fun _ member => notSpace _ (List.mem_of_mem_head? member),
      fun _ member => notSpace _ (List.mem_of_mem_getLast? member)⟩
  have ascii : asciiDigits (int ++ '.' :: frac) = int ++ '.' :: frac := by
    rw [asciiDigits_append, asciiDigits_of_digits intDigits, ← List.singleton_append,
      asciiDigits_append, asciiDigits_of_digits fracDigits]
    rfl
  have plain : '_' ∉ int ++ '.' :: frac := by
    intro member
    rcases visible _ member with digit | same
    · simp at digit
    · simp at same
  rw [Text.stripNumber_of_trimmed trimmed, ascii]
  refine ⟨dropUnderscores_of_plain plain false, ?_⟩
  cases int with
  | nil => exact absurd rfl nonempty
  | cons c int => exact special_of_digit (intDigits c (by simp)) _

theorem fixed_of_nonneg {q : ℚ} (nonneg : 0 ≤ q) (places : ℕ) :
    ∃ int frac : Text, fixed places q = int ++ '.' :: frac ∧ int ≠ [] ∧
      (∀ c ∈ int, c.isDigit = true) ∧ (∀ c ∈ frac, c.isDigit = true) ∧ frac.length = places ∧
      (Nat.ofDigitChars 10 (int ++ frac) 0 : ℤ) = roundHalfEven (q * 10 ^ places) := by
  let scaled := (roundHalfEven (|q| * 10 ^ places)).toNat
  refine ⟨decimal (scaled / 10 ^ places), padded places (scaled % 10 ^ places), ?_,
    Nat.toDigits_ne_nil, fun _ => mem_decimal, fun _ => mem_padded, padded_length _ _, ?_⟩
  · have unsigned : ¬ q < 0 := not_lt.mpr nonneg
    simp [fixed, unsigned, scaled]
  · rw [Nat.ofDigitChars_append, ofDigitChars_padded, decimal, Nat.ofDigitChars_ten_toDigits,
      Nat.mod_mod, Nat.div_add_mod]
    have whole : 0 ≤ roundHalfEven (|q| * 10 ^ places) := roundHalfEven_nonneg (by positivity)
    rw [Int.toNat_of_nonneg whole, abs_of_nonneg nonneg]

/-- `float()` reads `%.nf` back, up to the rounding of its decimal fraction to a double. -/
theorem pyFloat_fixed {q : ℚ} (nonneg : 0 ≤ q) (places : ℕ) :
    pyFloat (fixed places q) =
      some (.ofRat ((roundHalfEven (q * 10 ^ places) : ℚ) / 10 ^ places)) := by
  obtain ⟨int, frac, text, nonempty, intDigits, fracDigits, width, number⟩ :=
    fixed_of_nonneg nonneg places
  obtain ⟨read, ordinary⟩ := read_digits intDigits fracDigits nonempty
  have value : (Nat.ofDigitChars 10 (int ++ frac) 0 : ℚ) = roundHalfEven (q * 10 ^ places) := by
    exact_mod_cast number
  rw [text]
  unfold pyFloat
  rw [read]
  simp only [ordinary, literal_of_digits intDigits fracDigits nonempty, Literal.value, width, value,
    Option.map_some, Option.none_or]
  simp [zpow_neg, div_eq_mul_inv]

end Decimal
