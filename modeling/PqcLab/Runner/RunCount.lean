import PqcLab.Runner.Latest
import Mathlib.Algebra.Ring.Parity
import Mathlib.RingTheory.Coprime.Lemmas

/-! The number of runs as `jq` records it and as the client's `atoi` reads it. -/

namespace PqcLab.Runner

open Digits Decimal
open Bench (atoi_lt)

structure PlainCount (l : Literal) : Prop where
  positive : l.negative = false
  whole : Nat.ofDigitChars 10 l.frac 0 = 0
  unscaled : l.exponent = 0
  fits : Nat.ofDigitChars 10 l.int 0 < 2 ^ 31

theorem jsonTrim_split (s : Text) : ∃ before after : Text, s = before ++ jsonTrim s ++ after ∧
    (∀ c ∈ before, isJsonSpace c = true) ∧ ∀ c ∈ after, isJsonSpace c = true := by
  refine ⟨s.takeWhile isJsonSpace, (s.dropWhile isJsonSpace).rtakeWhile isJsonSpace, ?_, ?_, ?_⟩
  · rw [List.append_assoc, jsonTrim, List.rdropWhile_append_rtakeWhile, List.takeWhile_append_dropWhile]
  · exact fun c member => List.mem_takeWhile_imp member
  · exact fun c member => List.mem_rtakeWhile_imp member

theorem isCSpace_of_json {c : Char} (space : isJsonSpace c = true) : isCSpace c = true := by
  simp only [isJsonSpace, Bool.or_eq_true, beq_iff_eq] at space
  rcases space with ((rfl | rfl) | rfl) | rfl <;> decide

theorem isDigit_of_json {c : Char} (space : isJsonSpace c = true) : c.isDigit = false := by
  simp only [isJsonSpace, Bool.or_eq_true, beq_iff_eq] at space
  rcases space with ((rfl | rfl) | rfl) | rfl <;> decide

theorem literal_head {t : Text} {l : Literal} (read : literal t = some l) :
    ∃ c rest, t = c :: rest ∧ isCSpace c = false := by
  cases t with
  | nil => simp [literal, sign, fractionPart] at read
  | cons c rest =>
    refine ⟨c, rest, rfl, ?_⟩
    by_contra space
    have visible (d : Char) (other : isCSpace d = false) : c ≠ d := fun same => by simp [same, other] at space
    have minus := visible '-' (by decide)
    have plus := visible '+' (by decide)
    have point := visible '.' (by decide)
    have digit : c.isDigit = false := by
      by_contra digit
      have bounds := isDigit_bounds (by simpa using digit)
      simp only [isCSpace, Bool.or_eq_false_iff, beq_eq_false_iff_ne, Bool.and_eq_false_iff,
        decide_eq_false_iff_not] at space
      apply space
      refine ⟨?_, ?_⟩
      · rintro rfl
        simp at digit
      · omega
    simp [literal, sign, minus, plus, fractionPart, point, digit] at read

theorem dropWhile_space {s : Text} {l : Literal} (read : literal (jsonTrim s) = some l) :
    ∃ after : Text, s.dropWhile isCSpace = jsonTrim s ++ after ∧ ∀ c ∈ after, c.isDigit = false := by
  obtain ⟨before, after, split, spaces, trailing⟩ := jsonTrim_split s
  obtain ⟨c, rest, shape, visible⟩ := literal_head read
  refine ⟨after, ?_, fun c member => isDigit_of_json (trailing c member)⟩
  have dropped : (before ++ (jsonTrim s ++ after)).dropWhile isCSpace = jsonTrim s ++ after := by
    rw [List.dropWhile_append_of_pos fun c member => isCSpace_of_json (spaces c member), shape]
    simp [visible]
  rw [← List.append_assoc, ← split] at dropped
  exact dropped

theorem takeWhile_append_stop (unsigned : Text) {after : Text} (stop : ∀ c ∈ after, c.isDigit = false) :
    (unsigned ++ after).takeWhile Char.isDigit = unsigned.takeWhile Char.isDigit := by
  induction unsigned with
  | nil =>
    cases after with
    | nil => rfl
    | cons c after => simp [stop c (by simp)]
  | cons c unsigned ih => simp [List.takeWhile_cons, ih]

theorem sign_append (c : Char) (rest after : Text) :
    sign (c :: rest ++ after) = ((sign (c :: rest)).1, (sign (c :: rest)).2 ++ after) := by
  by_cases minus : c = '-'
  · subst minus
    rfl
  · by_cases plus : c = '+'
    · subst plus
      rfl
    · simp [sign, minus, plus]

theorem strtol_literal {s : Text} {l : Literal} (read : literal (jsonTrim s) = some l) :
    strtol s = if l.negative then max (-(Nat.ofDigitChars 10 l.int 0 : ℤ)) (-2 ^ 63)
      else min (Nat.ofDigitChars 10 l.int 0 : ℤ) (2 ^ 63 - 1) := by
  obtain ⟨after, dropped, stop⟩ := dropWhile_space read
  have parts : (sign (jsonTrim s)).1 = l.negative ∧
      (sign (jsonTrim s)).2.takeWhile Char.isDigit = l.int := by
    unfold literal at read
    dsimp only at read
    split_ifs at read with empty
    obtain ⟨exponent, -, rfl⟩ := Option.map_eq_some_iff.mp read
    exact ⟨rfl, rfl⟩
  have sameSign : sign (jsonTrim s ++ after) = ((sign (jsonTrim s)).1, (sign (jsonTrim s)).2 ++ after) := by
    obtain ⟨c, rest, shape, -⟩ := literal_head read
    rw [shape]
    exact sign_append c rest after
  unfold strtol
  rw [dropped, sameSign]
  dsimp only
  rw [takeWhile_append_stop _ stop, parts.1, parts.2]

theorem opensNumber_of_atoi {s : Text} (positive : 0 < atoi s) :
    opensNumber (s.dropWhile isCSpace) = true := by
  by_contra closed
  have none : (sign (s.dropWhile isCSpace)).2.takeWhile Char.isDigit = [] := by
    unfold opensNumber at closed
    cases shape : (sign (s.dropWhile isCSpace)).2 with
    | nil => rfl
    | cons c rest =>
      have other : ¬ c.isDigit = true := by simpa [shape] using closed
      rw [List.takeWhile_cons_of_neg other]
  have zero : strtol s = 0 := by
    unfold strtol
    dsimp only
    rw [none]
    split_ifs <;> rfl
  simp [atoi, zero] at positive

/-- The number that `%d` of 32 bits makes of a large integer is not a tenth of it, nor a hundredth. -/
theorem scaled_bmod_ne {n k : ℕ} (scale : 0 < k) {a : ℤ} (same : (n : ℤ).bmod (2 ^ 32) = a) (positive : 0 < a)
    (small : a < 2 ^ 31) : (n : ℤ) ≠ a * 10 ^ k := by
  intro scaled
  have divides : ((2 ^ 32 : ℕ) : ℤ) ∣ (n : ℤ) - a := same ▸ Int.dvd_self_sub_bmod
  have odd : Odd ((10 : ℤ) ^ k - 1) := by
    have even : Even ((10 : ℤ) ^ k) := Even.pow_of_ne_zero (by decide) (by omega)
    exact even.sub_odd odd_one
  obtain ⟨j, half⟩ := odd
  have coprime : IsCoprime ((2 : ℤ) ^ 32) (10 ^ k - 1) :=
    IsCoprime.pow_left ⟨-j, 1, by rw [half]; ring⟩
  have factored : (2 : ℤ) ^ 32 ∣ a * (10 ^ k - 1) := by
    have : a * (10 ^ k - 1) = (n : ℤ) - a := by rw [scaled]; ring
    rw [this]
    exact_mod_cast divides
  have whole := Int.le_of_dvd positive (coprime.dvd_of_dvd_mul_right factored)
  omega

/-- A numeral equals the wrapped integer part only if nothing is wrapped, scaled or left over. -/
theorem scaled_eq_iff {n : ℕ} {a e : ℤ} {fraction : ℚ} (nonneg : 0 ≤ fraction) (proper : fraction < 1)
    (wrapped : (n : ℤ).bmod (2 ^ 32) = a) (positive : 0 < a) (small : a < 2 ^ 31) :
    ((n : ℚ) + fraction) * 10 ^ e = a ↔ fraction = 0 ∧ e = 0 ∧ n < 2 ^ 31 := by
  have quotient := Int.bmod_add_bdiv (n : ℤ) (2 ^ 32)
  rw [wrapped] at quotient
  generalize (n : ℤ).bdiv (2 ^ 32) = q at quotient
  have atLeast : a ≤ n := by omega
  have above : (0 : ℚ) < a := by exact_mod_cast positive
  have below : (a : ℚ) ≤ n := by exact_mod_cast atLeast
  -- an integer that lies a fraction above another is that one
  have floor {m : ℤ} (same : (n : ℚ) + fraction = m) : (n : ℤ) = m ∧ fraction = 0 := by
    have low : (n : ℚ) ≤ m := by linarith
    have high : (m : ℚ) < n + 1 := by linarith
    have lowInt : (n : ℤ) ≤ m := by exact_mod_cast low
    have highInt : m < n + 1 := by exact_mod_cast high
    have whole : (n : ℤ) = m := by omega
    have cast : (n : ℚ) = m := by exact_mod_cast whole
    exact ⟨whole, by linarith⟩
  constructor
  · intro same
    rcases lt_trichotomy e 0 with negative | rfl | up
    · obtain ⟨k, rfl⟩ : ∃ k : ℕ, e = -(k : ℤ) := ⟨(-e).toNat, by omega⟩
      have scaled : (n : ℚ) + fraction = ((a * 10 ^ k : ℤ) : ℚ) := by
        rw [zpow_neg, zpow_natCast] at same
        push_cast
        rw [← same]
        field_simp
      exact absurd (floor scaled).1 (scaled_bmod_ne (by omega) wrapped positive small)
    · rw [zpow_zero, mul_one] at same
      obtain ⟨whole, zero⟩ := floor same
      exact ⟨zero, rfl, by omega⟩
    · have tenfold : (10 : ℚ) ≤ 10 ^ e := by
        calc (10 : ℚ) = 10 ^ (1 : ℤ) := (zpow_one 10).symm
          _ ≤ 10 ^ e := zpow_le_zpow_right₀ (by norm_num) (by omega)
      have grown : (n : ℚ) * 10 ≤ (n + fraction) * 10 ^ e := by
        gcongr
        linarith
      linarith
  · rintro ⟨zero, rfl, fits⟩
    have whole : (n : ℤ) = a := by omega
    rw [zero, zpow_zero, mul_one, add_zero]
    exact_mod_cast whole

theorem literal_frac {t : Text} {l : Literal} (read : literal t = some l) : ∀ c ∈ l.frac, c.isDigit = true := by
  unfold literal at read
  dsimp only at read
  split_ifs at read with empty
  obtain ⟨exponent, -, rfl⟩ := Option.map_eq_some_iff.mp read
  intro c member
  dsimp only [fractionPart] at member
  split at member
  · exact List.mem_takeWhile_imp member
  · cases member

theorem magnitude_split {l : Literal} (digits : ∀ c ∈ l.frac, c.isDigit = true) :
    ∃ fraction : ℚ, 0 ≤ fraction ∧ fraction < 1 ∧ (fraction = 0 ↔ Nat.ofDigitChars 10 l.frac 0 = 0) ∧
      (Nat.ofDigitChars 10 (l.int ++ l.frac) 0 : ℚ) * 10 ^ (l.exponent - l.frac.length) =
        (Nat.ofDigitChars 10 l.int 0 + fraction) * 10 ^ l.exponent := by
  have small : (Nat.ofDigitChars 10 l.frac 0 : ℚ) < 10 ^ l.frac.length := by
    exact_mod_cast ofDigitChars_lt digits
  have positive : (0 : ℚ) < 10 ^ l.frac.length := by positivity
  refine ⟨Nat.ofDigitChars 10 l.frac 0 / 10 ^ l.frac.length, by positivity, ?_, ?_, ?_⟩
  · rwa [div_lt_one positive]
  · rw [div_eq_zero_iff, Nat.cast_eq_zero]
    exact ⟨fun h => h.resolve_right positive.ne', .inl⟩
  · rw [Nat.ofDigitChars_append, Nat.ofDigitChars_eq_ofDigitChars_zero, zpow_sub₀ (by norm_num), zpow_natCast]
    push_cast
    field_simp

theorem atoi_literal {s : Text} {l : Literal} (read : literal (jsonTrim s) = some l)
    (positive : 0 < atoi s) (unsigned : l.negative = false) :
    (Nat.ofDigitChars 10 l.int 0 : ℤ).bmod (2 ^ 32) = atoi s := by
  have reading := strtol_literal read
  rw [unsigned, if_neg (by decide)] at reading
  by_cases large : (2 : ℤ) ^ 63 - 1 ≤ Nat.ofDigitChars 10 l.int 0
  · rw [min_eq_right large] at reading
    have saturated : atoi s = -1 := by
      unfold atoi
      rw [reading]
      decide
    omega
  · rw [min_eq_left (by omega)] at reading
    unfold atoi
    rw [reading]

theorem value_eq_atoi_iff {s : Text} {l : Literal} (read : literal (jsonTrim s) = some l)
    (positive : 0 < atoi s) : l.value = (atoi s : ℚ) ↔ PlainCount l := by
  obtain ⟨fraction, nonneg, proper, zero, magnitude⟩ := magnitude_split (literal_frac read)
  have power : (0 : ℚ) < 10 ^ l.exponent := by positivity
  have small := atoi_lt s
  cases unsigned : l.negative with
  | true =>
    refine ⟨fun same => ?_, fun plain => absurd plain.positive (by simp [unsigned])⟩
    have negative : l.value ≤ 0 := by
      simp only [Literal.value, unsigned, if_true, magnitude]
      have : (0 : ℚ) ≤ (Nat.ofDigitChars 10 l.int 0 + fraction) * 10 ^ l.exponent := by positivity
      linarith
    have above : (0 : ℚ) < atoi s := by exact_mod_cast positive
    linarith
  | false =>
    have value : l.value = (Nat.ofDigitChars 10 l.int 0 + fraction) * 10 ^ l.exponent := by
      simp only [Literal.value, unsigned, magnitude]
      rfl
    have wrapped := atoi_literal read positive unsigned
    rw [value, scaled_eq_iff nonneg proper wrapped positive small, zero]
    constructor
    · rintro ⟨whole, unscaled, fits⟩
      exact ⟨unsigned, whole, unscaled, fits⟩
    · intro plain
      exact ⟨plain.whole, plain.unscaled, plain.fits⟩

variable {jq : Jq} {s : Scenario} {r : Request} {time : ℕ} {setup : Bench.Setup}
  {outcome : ℕ → Bench.Outcome} {doc : Json}

/-- In a completed execution whose meta file is written, `runs_effective` is the number of rows of the
bench file exactly when it is a plain count. -/
theorem runs_effective_is_row_count
    (completed : clientStatus (Bench.main r.clientCmd setup outcome).code = "completed".toList)
    (written : s.metaDoc jq r time (Bench.main r.clientCmd setup outcome).code = some doc) :
    ∃ rows : List (BenchRow Binary64.Double),
      readBenchCsv (some (Bench.main r.clientCmd setup outcome).stdout) = .ok rows ∧
      (doc.getItem "runs_effective".toList = .ok (.num rows.length) ↔
        ∃ l, literal (jsonTrim r.runsEffective) = some l ∧ PlainCount l) := by
  obtain ⟨positive, ready⟩ := Bench.main_code_zero (clientStatus_completed.mp completed)
  refine ⟨_, Bench.readBenchCsv_main _ _ _ _ _ outcome positive ready, ?_⟩
  obtain ⟨recorded, accepted, item⟩ := metaDoc_runsEffective written
  obtain ⟨l, read, rfl⟩ := jq.numeral _ _ accepted (opensNumber_of_atoi positive)
  have rows : (((List.range' 1 (atoi r.runsEffective).toNat).map fun i => (outcome i).benchRow i).length : ℚ) =
      (atoi r.runsEffective : ℚ) := by
    rw [List.length_map, List.length_range']
    exact_mod_cast Int.toNat_of_nonneg positive.le
  rw [item, rows, Except.ok.injEq, Json.num.injEq, value_eq_atoi_iff read positive]
  exact ⟨fun plain => ⟨l, read, plain⟩, fun ⟨_, same, plain⟩ => by
    rw [read] at same
    injection same with same
    exact same ▸ plain⟩

theorem runs_effective_twoRuns :
    ∃ (doc : Json) (rows : List (BenchRow Binary64.Double)),
      doc.getItem "runs_effective".toList = .ok (.num rows.length) := by
  let s : Scenario := ⟨"quick".toList, ['A']⟩
  let outcome : ℕ → Bench.Outcome := fun _ => .connectFailed
  obtain ⟨doc, accepted⟩ := twoRuns_accepted s 0
  have zero : (Bench.main twoRuns.clientCmd ready outcome).code = 0 := by decide +kernel
  obtain ⟨rows, -, agrees⟩ := @runs_effective_is_row_count decimalJq s twoRuns 0 ready outcome doc
    (clientStatus_completed.mpr zero) (by rw [zero]; exact accepted)
  exact ⟨doc, rows, agrees.mpr ⟨⟨false, ['2'], [], 0⟩, by decide, by decide, by decide, rfl, by decide⟩⟩

/-- `RUNS_OVERRIDE=1e3` -/
def thousandRuns : Request := { twoRuns with runsOverride := some "1e3".toList }

theorem thousand_recorded_for_one_row :
    ∃ doc rows, (Bench.main thousandRuns.clientCmd ready fun _ => .connectFailed).code = 0 ∧
      Scenario.metaDoc decimalJq ⟨"quick".toList, ['A']⟩ thousandRuns 0 0 = some doc ∧
      doc.getItem "runs_effective".toList = .ok (.num 1000) ∧
      readBenchCsv (some (Bench.main thousandRuns.clientCmd ready fun _ => .connectFailed).stdout) =
        .ok (rows : List (BenchRow Binary64.Double)) ∧ rows.length = 1 := by
  have written : (Scenario.metaDoc decimalJq ⟨"quick".toList, ['A']⟩ thousandRuns 0 0).isSome = true := rfl
  obtain ⟨doc, accepted⟩ := Option.isSome_iff_exists.mp written
  obtain ⟨recorded, value, item⟩ := metaDoc_runsEffective accepted
  have one : atoi thousandRuns.runsEffective = 1 := by decide +kernel
  have read := Bench.readBenchCsv_main thousandRuns.host thousandRuns.port thousandRuns.tlsGroup
    (thousandRuns.profileOutDir ++ "/certs/root.crt".toList) thousandRuns.serverName
    (fun _ => .connectFailed) (by rw [one]; decide) (rfl : ready.succeeds = true)
  refine ⟨doc, _, by decide +kernel, accepted, ?_, read, by rw [one]; rfl⟩
  have thousand : decimalJq.argjson thousandRuns.runsEffective = some (.num 1000) := by
    have literal : literal (jsonTrim thousandRuns.runsEffective) = some ⟨false, ['1'], [], 3⟩ := by
      decide +kernel
    simp only [decimalJq, literal, Option.map_some, Option.some.injEq, Json.num.injEq]
    decide +kernel
  rw [thousand] at value
  injection value with value
  rw [item, ← value]

end PqcLab.Runner
