import PqcLab.Analysis.Bench
import PqcLab.Bench.Client

/-! The client's CSV and the summariser's reader. -/

namespace PqcLab.Bench

open Digits Decimal Binary64

structure Recorded where
  success : ℤ
  sslError : ℤ
  bytesRead : ℤ
  bytesWritten : ℤ
  chainLen : ℤ
  chainBytes : ℤ

namespace Outcome

def recorded : Outcome → Recorded
  | .connectFailed | .sslNewFailed | .sniFailed | .setFdFailed => ⟨0, -1, 0, 0, 0, 0⟩
  | .handshakeFailed a error => ⟨0, error.code, a.bytesRead, a.bytesWritten, 0, 0⟩
  | .handshakeDone a certs =>
    ⟨1, 0, a.bytesRead, a.bytesWritten, certs.derLens.length, certs.derLens.sum⟩

def attempt : Outcome → Option Attempt
  | .connectFailed | .sslNewFailed | .sniFailed | .setFdFailed => none
  | .handshakeFailed a _ | .handshakeDone a _ => some a

def elapsedText (o : Outcome) : Text :=
  match o.attempt with
  | none => "0.0".toList
  | some a => fixed 3 (elapsedMs a.start a.stop)

def fields (i : ℕ) (o : Outcome) : List Text :=
  [decimal i, o.elapsedText, signed o.recorded.success, signed o.recorded.sslError,
    signed o.recorded.bytesRead, signed o.recorded.bytesWritten, signed o.recorded.chainLen,
    signed o.recorded.chainBytes]

end Outcome

theorem foldl_derLens (derLens : List ℕ) (chainBytes : ℤ) :
    (derLens.map fun (derLen : ℕ) => some (derLen : ℤ)).foldl addDer chainBytes =
      chainBytes + derLens.sum := by
  induction derLens generalizing chainBytes with
  | nil => simp
  | cons derLen derLens ih =>
    rw [List.map_cons, List.foldl_cons, ih, List.sum_cons]
    have step : addDer chainBytes (some (derLen : ℤ)) = chainBytes + derLen := by
      simp only [addDer]
      split_ifs <;> omega
    rw [step]
    push_cast
    omega

/-- The loop counts and sums the certificates; the fallback is for an empty stack without a peer. -/
theorem measureChain_derLens (derLens : List ℕ) :
    measureChain (some (derLens.map fun (derLen : ℕ) => some (derLen : ℤ)))
      (derLens.head?.map fun (derLen : ℕ) => (derLen : ℤ)) = ((derLens.length : ℤ), (derLens.sum : ℤ)) := by
  unfold measureChain
  simp only [foldl_derLens]
  cases derLens with
  | nil => simp
  | cons derLen derLens =>
    have nonempty : ((derLen :: derLens).length : ℤ) ≠ 0 := by simp; omega
    simp at nonempty
    simp [nonempty]

theorem run_eq (i : ℕ) (o : Outcome) : run i o = Csv.row (o.fields i) := by
  have failure : printFailure i = Csv.row [decimal i, "0.0".toList, ['0'], ['-', '1'], ['0'], ['0'], ['0'], ['0']] := by
    simp [printFailure, Csv.row]
  cases o with
  | handshakeFailed a error => simp [run, printRun, Outcome.fields, Outcome.recorded,
      Outcome.elapsedText, Outcome.attempt, Csv.row]
  | handshakeDone a certs =>
    simp only [run, measureChain_derLens]
    simp [printRun, Outcome.fields, Outcome.recorded, Outcome.elapsedText, Outcome.attempt, Csv.row]
  | _ => exact failure

theorem elapsedMs_error {S N : ℚ} (sec : 0 ≤ S) (nsec : |N| ≤ 10 ^ 9) :
    |nearest (nearest (nearest S * 1000) + nearest (nearest N / 10 ^ 6)) - (S * 1000 + N / 10 ^ 6)| ≤
      (3003 * S + 3005) / 2 ^ 53 + 1004 / 2 ^ 60 := by
  have s := abs_le.mp (nearest_within (abs_of_nonneg sec).le)
  have n := abs_le.mp (nearest_within nsec)
  have nBounds := abs_le.mp nsec
  have sScaled : |nearest S * 1000| ≤ 1001 * S + 1 := by
    rw [abs_le]
    constructor <;> linarith [s.1, s.2]
  have nScaled : |nearest N / 10 ^ 6| ≤ 1001 := by
    rw [abs_le]
    constructor <;> linarith [n.1, n.2, nBounds.1, nBounds.2]
  have a := abs_le.mp (nearest_within sScaled)
  have b := abs_le.mp (nearest_within nScaled)
  have sBounds := abs_le.mp sScaled
  have mBounds := abs_le.mp nScaled
  have total : |nearest (nearest S * 1000) + nearest (nearest N / 10 ^ 6)| ≤ 1002 * S + 1003 := by
    rw [abs_le]
    constructor <;> linarith [a.1, a.2, b.1, b.2, sBounds.1, sBounds.2, mBounds.1, mBounds.2]
  have p := abs_le.mp (nearest_within total)
  rw [abs_le]
  constructor
  · linarith [s.1, n.1, a.1, b.1, p.1]
  · linarith [s.2, n.2, a.2, b.2, p.2]

/-- A whole second outweighs the nanoseconds, rounding errors included. -/
theorem outweighs {S N : ℚ} (sec : 1 ≤ S) (nsec : |N| ≤ 10 ^ 9 - 1) :
    0 ≤ nearest (nearest S * 1000) + nearest (nearest N / 10 ^ 6) := by
  have tiny := tiny_le
  have positive : 0 ≤ nearest S := nearest_nonneg (by linarith)
  have s := nearest_error_relative S
  have a := nearest_error_relative (nearest S * 1000)
  rw [abs_of_nonneg (by linarith : 0 ≤ S), abs_le] at s
  rw [abs_of_nonneg (by linarith : 0 ≤ nearest S * 1000), abs_le] at a
  have n := abs_le.mp (nearest_within nsec)
  have nBounds := abs_le.mp nsec
  have nScaled : |nearest N / 10 ^ 6| ≤ 1000 := by
    rw [abs_le]
    constructor <;> linarith [n.1, n.2, nBounds.1, nBounds.2]
  have b := abs_le.mp (nearest_within nScaled)
  generalize (2 : ℚ) ^ (-1075 : ℤ) = t at *
  linarith [s.1, a.1, n.1, b.1, nBounds.1]

namespace Attempt

def elapsed (a : Attempt) : ℚ := a.stop.milliseconds - a.start.milliseconds

theorem elapsed_eq (a : Attempt) : a.elapsed =
    ((a.stop.tvSec - a.start.tvSec : ℤ) : ℚ) * 1000 + ((a.stop.tvNsec - a.start.tvNsec : ℤ) : ℚ) / 10 ^ 6 := by
  unfold elapsed Timespec.milliseconds
  push_cast
  ring

theorem nsec_abs (a : Attempt) : |((a.stop.tvNsec - a.start.tvNsec : ℤ) : ℚ)| ≤ 10 ^ 9 := by
  have start := a.start.nsecFits
  have stop := a.stop.nsecFits
  have bound : |(a.stop.tvNsec - a.start.tvNsec : ℤ)| ≤ 10 ^ 9 := by
    rw [abs_le]
    constructor <;> omega
  exact_mod_cast bound

theorem sec_nonneg (a : Attempt) : (0 : ℤ) ≤ a.stop.tvSec - a.start.tvSec := by
  by_contra negative
  have earlier : ((a.stop.tvSec - a.start.tvSec : ℤ) : ℚ) ≤ -1 := by
    exact_mod_cast (by omega : a.stop.tvSec - a.start.tvSec ≤ -1)
  have borrow : ((a.stop.tvNsec - a.start.tvNsec : ℤ) : ℚ) < 10 ^ 9 := by
    have stop := a.stop.nsecFits
    exact_mod_cast (by omega : (a.stop.tvNsec - a.start.tvNsec : ℤ) < 10 ^ 9)
  have ordered := a.ordered
  have same := a.elapsed_eq
  unfold elapsed at same
  linarith

theorem elapsed_nonneg (a : Attempt) : 0 ≤ a.elapsed := sub_nonneg.mpr a.ordered

theorem sec_le (a : Attempt) : ((a.stop.tvSec - a.start.tvSec : ℤ) : ℚ) ≤ (a.elapsed + 1000) / 1000 := by
  have same := a.elapsed_eq
  have nsec := abs_le.mp a.nsec_abs
  linarith

theorem elapsed_lt (a : Attempt) : a.elapsed < 2 ^ 73 + 1000 := by
  have sec : ((a.stop.tvSec - a.start.tvSec : ℤ) : ℚ) < 2 ^ 63 := by exact_mod_cast a.secFits
  have same := a.elapsed_eq
  have nsec := abs_le.mp a.nsec_abs
  linarith

theorem elapsedMs_near (a : Attempt) :
    |elapsedMs a.start a.stop - a.elapsed| ≤ (4 * a.elapsed + 6100) / 2 ^ 53 := by
  have sec : (0 : ℚ) ≤ ((a.stop.tvSec - a.start.tvSec : ℤ) : ℚ) := by exact_mod_cast a.sec_nonneg
  have error := elapsedMs_error sec a.nsec_abs
  rw [← a.elapsed_eq] at error
  refine error.trans ?_
  have bound := a.sec_le
  have nonneg := a.elapsed_nonneg
  linarith

theorem elapsedMs_nonneg (a : Attempt) : 0 ≤ elapsedMs a.start a.stop := by
  apply nearest_nonneg
  by_cases zero : a.stop.tvSec - a.start.tvSec = 0
  · have nsec : (0 : ℚ) ≤ ((a.stop.tvNsec - a.start.tvNsec : ℤ) : ℚ) := by
      have same := a.elapsed_eq
      have nonneg := a.elapsed_nonneg
      rw [zero, Int.cast_zero, zero_mul, zero_add] at same
      linarith
    have first : nearest (nearest ((a.stop.tvSec - a.start.tvSec : ℤ) : ℚ) * 1000) = 0 := by
      rw [zero]
      norm_num [nearest_zero]
    rw [first, zero_add]
    exact nearest_nonneg (div_nonneg (nearest_nonneg nsec) (by norm_num))
  · have whole : (1 : ℚ) ≤ ((a.stop.tvSec - a.start.tvSec : ℤ) : ℚ) := by
      have nonneg := a.sec_nonneg
      exact_mod_cast (by omega : 1 ≤ a.stop.tvSec - a.start.tvSec)
    have borrow : |((a.stop.tvNsec - a.start.tvNsec : ℤ) : ℚ)| ≤ 10 ^ 9 - 1 := by
      have start := a.start.nsecFits
      have stop := a.stop.nsecFits
      have bound : |(a.stop.tvNsec - a.start.tvNsec : ℤ)| ≤ 10 ^ 9 - 1 := by
        rw [abs_le]
        constructor <;> omega
      exact_mod_cast bound
    exact outweighs whole borrow

def readMs (a : Attempt) : ℚ := nearest ((roundHalfEven (elapsedMs a.start a.stop * 10 ^ 3) : ℚ) / 10 ^ 3)

theorem printed_near (a : Attempt) :
    |(roundHalfEven (elapsedMs a.start a.stop * 10 ^ 3) : ℚ) / 10 ^ 3 - elapsedMs a.start a.stop| ≤
      1 / 2000 := by
  have error := abs_le.mp (roundHalfEven_error (elapsedMs a.start a.stop * 10 ^ 3))
  rw [abs_le]
  constructor <;> linarith [error.1, error.2]

theorem printed_abs (a : Attempt) :
    |(roundHalfEven (elapsedMs a.start a.stop * 10 ^ 3) : ℚ) / 10 ^ 3| ≤ 2 * a.elapsed + 10 := by
  have measured := abs_le.mp a.elapsedMs_near
  have printed := abs_le.mp a.printed_near
  have nonneg := a.elapsed_nonneg
  have positive := a.elapsedMs_nonneg
  rw [abs_le]
  constructor <;> linarith [measured.2, printed.1, printed.2]

theorem pyFloat_elapsed (a : Attempt) :
    pyFloat (fixed 3 (elapsedMs a.start a.stop)) = some (.finite a.readMs) := by
  have small : |(roundHalfEven (elapsedMs a.start a.stop * 10 ^ 3) : ℚ) / 10 ^ 3| ≤ 2 ^ 200 := by
    have bound := a.printed_abs
    have range := a.elapsed_lt
    refine bound.trans ?_
    norm_num at range ⊢
    linarith
  rw [pyFloat_fixed a.elapsedMs_nonneg, Double.ofRat_of_le small]
  rfl

/-- Half a microsecond of rounding to three decimals, and the rounding of six `double` operations. -/
theorem readMs_near (a : Attempt) :
    |a.readMs - a.elapsed| ≤ 1 / 2000 + (a.elapsed + 2000) / 2 ^ 50 := by
  have measured := abs_le.mp a.elapsedMs_near
  have printed := abs_le.mp a.printed_near
  have read := abs_le.mp (nearest_within a.printed_abs)
  have nonneg := a.elapsed_nonneg
  unfold readMs
  rw [abs_le]
  constructor
  · linarith [measured.1, printed.1, read.1]
  · linarith [measured.2, printed.2, read.2]

end Attempt

namespace Outcome

def elapsed (o : Outcome) : ℚ := (o.attempt.map Attempt.elapsed).getD 0

def readMs (o : Outcome) : ℚ := (o.attempt.map Attempt.readMs).getD 0

def benchRow (i : ℕ) (o : Outcome) : BenchRow Double where
  runId := i
  elapsedMs := .finite o.readMs
  success := o.recorded.success
  sslError := o.recorded.sslError
  bytesRead := o.recorded.bytesRead
  bytesWritten := o.recorded.bytesWritten
  chainLen := o.recorded.chainLen
  chainBytes := o.recorded.chainBytes

theorem pyFloat_elapsedText (o : Outcome) : pyFloat o.elapsedText = some (.finite o.readMs) := by
  have zero : pyFloat "0.0".toList = some (.finite 0) := by decide +kernel
  unfold elapsedText readMs
  cases o.attempt with
  | none => exact zero
  | some a => exact a.pyFloat_elapsed

end Outcome

theorem sum_lt {derLens : List ℕ} {bound : ℕ} (small : ∀ derLen ∈ derLens, derLen < bound) :
    derLens.sum ≤ derLens.length * bound := by
  induction derLens with
  | nil => simp
  | cons derLen derLens ih =>
    have head := small derLen (by simp)
    have tail := ih fun d member => small d (by simp [member])
    rw [List.sum_cons, List.length_cons, Nat.succ_mul]
    omega

structure Recorded.Fits (r : Recorded) : Prop where
  success : r.success.natAbs < 2 ^ 64
  sslError : r.sslError.natAbs < 2 ^ 64
  bytesRead : r.bytesRead.natAbs < 2 ^ 64
  bytesWritten : r.bytesWritten.natAbs < 2 ^ 64
  chainLen : r.chainLen.natAbs < 2 ^ 64
  chainBytes : r.chainBytes.natAbs < 2 ^ 64

theorem Outcome.recorded_fits (o : Outcome) : o.recorded.Fits := by
  cases o with
  | handshakeFailed a error =>
    have code := error.fits
    have read := a.readFits
    have written := a.writtenFits
    constructor <;> simp [recorded] <;> omega
  | handshakeDone a certs =>
    have read := a.readFits
    have written := a.writtenFits
    have count := certs.countFits
    have sum := sum_lt certs.sizesFit
    have product := Nat.mul_le_mul_right (2 ^ 31) count.le
    constructor <;> simp only [recorded] <;> omega
  | _ => constructor <;> simp [recorded]

def columns : List Text :=
  ["run_id".toList, "elapsed_ms".toList, "success".toList, "ssl_error".toList, "bytes_read".toList,
    "bytes_written".toList, "chain_len".toList, "chain_bytes".toList]

theorem header_eq : header = Csv.row columns := by decide +kernel

/-! The fields need no quotes. -/

theorem digit_plain {c : Char} (digit : c.isDigit = true) :
    c ≠ ',' ∧ c ≠ '"' ∧ Text.isNewline c = false := by
  have lf := isDigit_ne digit (by decide : '\n'.isDigit = false)
  have cr := isDigit_ne digit (by decide : '\r'.isDigit = false)
  exact ⟨isDigit_ne digit (by decide), isDigit_ne digit (by decide), by simp [Text.isNewline, lf, cr]⟩

theorem decimal_plain {n : ℕ} (bound : n < 10 ^ 100) : Csv.Plain (decimal n) := by
  have length := decimal_length_le bound (by decide)
  exact ⟨length.trans (by decide), fun c member => digit_plain (mem_decimal member)⟩

theorem signed_plain {z : ℤ} (bound : z.natAbs < 2 ^ 64) : Csv.Plain (signed z) := by
  have small : (2 : ℕ) ^ 64 < 10 ^ 99 := by norm_num
  cases z with
  | ofNat n =>
    have less : n < 2 ^ 64 := bound
    exact decimal_plain (by omega)
  | negSucc n =>
    have less : n + 1 < 2 ^ 64 := bound
    have length := decimal_length_le (lt_trans less small) (by decide)
    refine ⟨?_, fun c member => ?_⟩
    · have limit : Csv.fieldLimit = 131072 := rfl
      simp only [signed, List.length_cons]
      omega
    · rcases List.mem_cons.mp member with rfl | member
      · decide
      · exact digit_plain (mem_decimal member)

theorem fixed_plain {q : ℚ} (nonneg : 0 ≤ q) (bound : (roundHalfEven (q * 10 ^ 3) : ℚ) < 10 ^ 99) :
    Csv.Plain (fixed 3 q) := by
  have whole : 0 ≤ roundHalfEven (q * 10 ^ 3) := roundHalfEven_nonneg (by positivity)
  have less : (roundHalfEven (q * 10 ^ 3)).toNat < 10 ^ 99 := by
    have integer : roundHalfEven (q * 10 ^ 3) < 10 ^ 99 := by exact_mod_cast bound
    omega
  have length := decimal_length_le (lt_of_le_of_lt (Nat.div_le_self _ (10 ^ 3)) less) (by decide)
  have unsigned : ¬ q < 0 := not_lt.mpr nonneg
  unfold fixed
  rw [if_neg unsigned, abs_of_nonneg nonneg]
  dsimp only
  rw [List.nil_append]
  refine ⟨?_, fun c member => ?_⟩
  · have limit : Csv.fieldLimit = 131072 := rfl
    rw [List.length_append, List.length_cons, padded_length]
    omega
  · rcases List.mem_append.mp member with member | member
    · exact digit_plain (mem_decimal member)
    · rcases List.mem_cons.mp member with rfl | member
      · decide
      · exact digit_plain (mem_padded member)

theorem Outcome.elapsedText_plain (o : Outcome) : Csv.Plain o.elapsedText := by
  unfold elapsedText
  cases o.attempt with
  | none => exact Csv.plain_of_all (by decide) (by decide)
  | some a =>
    apply fixed_plain a.elapsedMs_nonneg
    have near := abs_le.mp a.printed_abs
    have range := a.elapsed_lt
    norm_num at near range ⊢
    linarith [near.2]

theorem Outcome.fields_plain (o : Outcome) {i : ℕ} (bound : i < 2 ^ 31) :
    ∀ field ∈ o.fields i, Csv.Plain field := by
  have fits := o.recorded_fits
  have small : (2 : ℕ) ^ 31 < 10 ^ 100 := by norm_num
  intro field member
  simp only [fields, List.mem_cons, List.not_mem_nil, or_false] at member
  rcases member with rfl | rfl | rfl | rfl | rfl | rfl | rfl | rfl
  · exact decimal_plain (by omega)
  · exact o.elapsedText_plain
  · exact signed_plain fits.success
  · exact signed_plain fits.sslError
  · exact signed_plain fits.bytesRead
  · exact signed_plain fits.bytesWritten
  · exact signed_plain fits.chainLen
  · exact signed_plain fits.chainBytes

theorem Outcome.benchRow_fields (o : Outcome) {i : ℕ} (bound : i < 2 ^ 31) :
    PqcLab.benchRow (Csv.lookup columns (o.fields i)) = .ok (o.benchRow i) := by
  have fits := o.recorded_fits
  have digits : (2 : ℕ) ^ 64 < 10 ^ maxStrDigits := by decide +kernel
  let row := Csv.lookup columns (o.fields i)
  have runId : intField row "run_id".toList = .ok ↑i :=
    field_of_some rfl (pyInt_decimal (by omega))
  have elapsed : field PyFloat.read row "elapsed_ms".toList = .ok (.finite o.readMs : Double) :=
    field_of_some rfl o.pyFloat_elapsedText
  have success : intField row "success".toList = .ok o.recorded.success :=
    field_of_some rfl (pyInt_signed (fits.success.trans digits))
  have sslError : intField row "ssl_error".toList = .ok o.recorded.sslError :=
    field_of_some rfl (pyInt_signed (fits.sslError.trans digits))
  have bytesRead : intField row "bytes_read".toList = .ok o.recorded.bytesRead :=
    field_of_some rfl (pyInt_signed (fits.bytesRead.trans digits))
  have bytesWritten : intField row "bytes_written".toList = .ok o.recorded.bytesWritten :=
    field_of_some rfl (pyInt_signed (fits.bytesWritten.trans digits))
  have chainLen : intField row "chain_len".toList = .ok o.recorded.chainLen :=
    field_of_some rfl (pyInt_signed (fits.chainLen.trans digits))
  have chainBytes : intField row "chain_bytes".toList = .ok o.recorded.chainBytes :=
    field_of_some rfl (pyInt_signed (fits.chainBytes.trans digits))
  unfold PqcLab.benchRow
  rw [runId, elapsed, success, sslError, bytesRead, bytesWritten, chainLen, chainBytes]
  rfl

theorem runs_eq (i : ℕ) (outcomes : List Outcome) :
    runs i outcomes = ((outcomes.zipIdx i).map fun (o, i) => o.fields i).flatMap Csv.row := by
  induction outcomes generalizing i with
  | nil => rfl
  | cons o outcomes ih => simp [runs, run_eq, ih]

theorem readBenchCsv_runs {outcomes : List Outcome} (count : outcomes.length < 2 ^ 31) :
    readBenchCsv (some (header ++ runs 1 outcomes)) =
      .ok ((outcomes.zipIdx 1).map fun (o, i) => o.benchRow i) := by
  have index : ∀ entry ∈ outcomes.zipIdx 1, entry.2 < 2 ^ 31 := by
    intro entry member
    have := List.snd_lt_of_mem_zipIdx member
    omega
  let rows := (outcomes.zipIdx 1).map fun (o, i) => o.fields i
  have plain : ∀ fields ∈ columns :: rows,
      (∀ field ∈ fields, Csv.Plain field) ∧ fields ≠ [] ∧ fields ≠ [[]] := by
    intro fields member
    rcases List.mem_cons.mp member with rfl | member
    · refine ⟨fun field member => ?_, by decide, by decide⟩
      simp only [columns, List.mem_cons, List.not_mem_nil, or_false] at member
      rcases member with rfl | rfl | rfl | rfl | rfl | rfl | rfl | rfl <;>
        exact Csv.plain_of_all (by decide) (by decide)
    · obtain ⟨entry, inside, rfl⟩ := List.mem_map.mp member
      exact ⟨entry.1.fields_plain (index entry inside), by simp [Outcome.fields], by simp [Outcome.fields]⟩
  have read : Csv.dictReader (header ++ runs 1 outcomes) =
      rows.map fun fields => .ok (Csv.lookup columns fields) := by
    unfold Csv.dictReader
    rw [header_eq, runs_eq, ← List.flatMap_cons, Csv.reader_rows plain, List.map_cons]
    dsimp only
    rw [List.filterMap_map, ← List.filterMap_eq_map]
    apply List.filterMap_congr
    intro fields member
    have visible := (plain fields (by simp [member])).2.1
    cases fields with
    | nil => exact absurd rfl visible
    | cons field fields => rfl
  simp only [readBenchCsv, read, rows, List.map_map]
  rw [List.mapM_map]
  apply Except.mapM_ok
  intro entry member
  exact entry.1.benchRow_fields (index entry member)

theorem main_ready (host port groups cafile sni : Text) {argument : Text} {setup : Setup}
    (outcome : ℕ → Outcome) (positive : 0 < atoi argument) (ready : setup.succeeds = true) :
    main [host, port, groups, cafile, sni, argument] setup outcome =
      ⟨header ++ runs 1 ((List.range' 1 (atoi argument).toNat).map outcome), 0⟩ := by
  have some : ¬ atoi argument ≤ 0 := by omega
  simp [main, some, ready]

theorem main_code_zero {host port groups cafile sni argument : Text} {setup : Setup}
    {outcome : ℕ → Outcome}
    (zero : (main [host, port, groups, cafile, sni, argument] setup outcome).code = 0) :
    0 < atoi argument ∧ setup.succeeds = true := by
  by_cases positive : 0 < atoi argument
  · by_cases ready : setup.succeeds = true
    · exact ⟨positive, ready⟩
    · simp [main, not_le.mpr positive, ready] at zero
  · simp [main, not_lt.mp positive] at zero

theorem atoi_lt (s : Text) : atoi s < 2 ^ 31 := by
  have := @Int.bmod_lt (strtol s) (2 ^ 32) (by decide)
  unfold atoi
  omega

theorem readBenchCsv_main (host port groups cafile sni : Text) {argument : Text} {setup : Setup}
    (outcome : ℕ → Outcome) (positive : 0 < atoi argument) (ready : setup.succeeds = true) :
    readBenchCsv (some (main [host, port, groups, cafile, sni, argument] setup outcome).stdout) =
      .ok ((List.range' 1 (atoi argument).toNat).map fun i => (outcome i).benchRow i) := by
  have bound := atoi_lt argument
  rw [main_ready host port groups cafile sni outcome positive ready, readBenchCsv_runs (by simp; omega)]
  congr 1
  apply List.ext_getElem
  · simp
  · intro i first second
    simp [Nat.add_comm]

structure ReadsBack (tolerance : ℚ) (i : ℕ) (o : Outcome) (row : BenchRow Double) : Prop where
  runId : row.runId = i
  success : row.success = o.recorded.success
  sslError : row.sslError = o.recorded.sslError
  bytesRead : row.bytesRead = o.recorded.bytesRead
  bytesWritten : row.bytesWritten = o.recorded.bytesWritten
  chainLen : row.chainLen = o.recorded.chainLen
  chainBytes : row.chainBytes = o.recorded.chainBytes
  elapsedMs : ∃ ms, row.elapsedMs = .finite ms ∧ |ms - o.elapsed| ≤ tolerance
  notAttempted : o.attempt = none → row.elapsedMs = .finite 0
  success_iff : row.success = 1 ↔ row.sslError = 0
  noChain : row.success = 0 → row.chainLen = 0 ∧ row.chainBytes = 0

theorem Outcome.readMs_near (o : Outcome) :
    |o.readMs - o.elapsed| ≤ 1 / 2000 + (o.elapsed + 2000) / 2 ^ 50 := by
  unfold readMs elapsed
  cases o.attempt with
  | none => norm_num
  | some a => exact a.readMs_near

theorem Outcome.readsBack (i : ℕ) (o : Outcome) :
    ReadsBack (1 / 2000 + (o.elapsed + 2000) / 2 ^ 50) i o (o.benchRow i) := by
  have near := o.readMs_near
  refine ⟨rfl, rfl, rfl, rfl, rfl, rfl, rfl, ⟨_, rfl, near⟩, ?_, ?_, ?_⟩
  · intro none
    simp [benchRow, readMs, none]
  · cases o with
    | handshakeFailed a error => simp [benchRow, recorded, error.nonzero]
    | _ => simp [benchRow, recorded]
  · cases o <;> simp [benchRow, recorded]

/-- Every run prints one row, and reads back as what it recorded. -/
theorem client_csv_reads_back (host port groups cafile sni argument : Text) (setup : Setup)
    (outcome : ℕ → Outcome) (positive : 0 < atoi argument) (ready : setup.succeeds = true) :
    ∃ rows, readBenchCsv (some (main [host, port, groups, cafile, sni, argument] setup outcome).stdout) =
        .ok rows ∧ (rows.length : ℤ) = atoi argument ∧
      ∀ (index : ℕ) (row : BenchRow Double), rows[index]? = some row →
        ReadsBack (1 / 2000 + ((outcome (index + 1)).elapsed + 2000) / 2 ^ 50) (index + 1)
          (outcome (index + 1)) row := by
  refine ⟨_, readBenchCsv_main host port groups cafile sni outcome positive ready, ?_, ?_⟩
  · simp; omega
  · intro index row entry
    rw [List.getElem?_map, Option.map_eq_some_iff] at entry
    obtain ⟨i, entry, rfl⟩ := entry
    obtain ⟨-, rfl⟩ := List.getElem?_eq_some_iff.mp entry
    rw [List.getElem_range', Nat.one_mul, Nat.add_comm 1 index]
    exact (outcome (index + 1)).readsBack (index + 1)

def shortHandshake : Outcome :=
  .handshakeDone
    { start := ⟨0, 0, by decide⟩
      stop := ⟨0, 500, by decide⟩
      ordered := by norm_num [Timespec.milliseconds]
      secFits := by decide
      bytesRead := 9000
      bytesWritten := 700
      readFits := by decide
      writtenFits := by decide }
    ⟨[5579, 5543], by decide, by decide⟩

def localhost : List Text :=
  ["127.0.0.1".toList, "4433".toList, "mlkem512".toList, "root.crt".toList, "localhost".toList]

theorem client_csv_reads_back_short :
    ∃ rows, readBenchCsv (some (main (localhost ++ ["2".toList]) ⟨true, true, true, true, true⟩
        fun _ => shortHandshake).stdout) = .ok rows ∧ (rows.length : ℤ) = atoi "2".toList ∧
      ∀ (index : ℕ) (row : BenchRow Double), rows[index]? = some row →
        ReadsBack (1 / 2000 + (shortHandshake.elapsed + 2000) / 2 ^ 50) (index + 1) shortHandshake row :=
  client_csv_reads_back _ _ _ _ _ "2".toList ⟨true, true, true, true, true⟩ (fun _ => shortHandshake)
    (by decide +kernel) rfl

/-- Exactly half a microsecond is printed as `0.001`, whose double lies above it. -/
theorem client_csv_short_past_half_microsecond :
    ∃ row, readBenchCsv (some (main (localhost ++ ["1".toList]) ⟨true, true, true, true, true⟩
        fun _ => shortHandshake).stdout) = .ok [row] ∧ ¬ ReadsBack (1 / 2000) 1 shortHandshake row := by
  refine ⟨shortHandshake.benchRow 1, ?_, ?_⟩
  · exact readBenchCsv_main _ _ _ _ _ (fun _ => shortHandshake) (by decide +kernel) rfl
  · rintro ⟨-, -, -, -, -, -, -, ⟨ms, same, near⟩, -, -, -⟩
    have far : 1 / 2000 < |shortHandshake.readMs - shortHandshake.elapsed| := by decide +kernel
    injection same with same
    rw [same] at far
    exact absurd near (not_le.mpr far)

end PqcLab.Bench
