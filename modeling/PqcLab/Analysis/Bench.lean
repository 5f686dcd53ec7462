import PqcLab.Analysis.Values
import PqcLab.Library.Raises
import Mathlib.Data.List.Sort
import Mathlib.Data.List.Dedup

/-! `read_bench_csv` and the statistics over its rows. -/

namespace PqcLab

structure BenchRow (α : Type) where
  runId : ℤ
  elapsedMs : α
  success : ℤ
  sslError : ℤ
  bytesRead : ℤ
  bytesWritten : ℤ
  chainLen : ℤ
  chainBytes : ℤ
  deriving DecidableEq

/-- `convert(row[key])`, where a short row holds `None`. -/
def field {β : Type} (convert : Text → Option β) (row : Text → Option (Option Text)) (key : Text) :
    Except PyError β :=
  match row key with
  | none => .error (.keyError key)
  | some none => .error .typeError
  | some (some s) => match convert s with
    | none => .error .valueError
    | some value => .ok value

def intField := field Digits.pyInt

section Read

variable {α : Type} [PyFloat α]

def benchRow (row : Text → Option (Option Text)) : Except PyError (BenchRow α) := do
  let runId ← intField row "run_id".toList
  let elapsedMs ← field PyFloat.read row "elapsed_ms".toList
  let success ← intField row "success".toList
  let sslError ← intField row "ssl_error".toList
  let bytesRead ← intField row "bytes_read".toList
  let bytesWritten ← intField row "bytes_written".toList
  let chainLen ← intField row "chain_len".toList
  let chainBytes ← intField row "chain_bytes".toList
  return { runId, elapsedMs, success, sslError, bytesRead, bytesWritten, chainLen, chainBytes }

/-- `read_bench_csv`; a file that does not exist has no rows. -/
def readBenchCsv (file : Option Text) : Except PyError (List (BenchRow α)) :=
  match file with
  | none => .ok []
  | some text => (Csv.dictReader text).mapM fun
    | .error e => .error (.csvError e)
    | .ok row => benchRow row

theorem field_of_some {β : Type} {convert : Text → Option β} {row : Text → Option (Option Text)}
    {key s : Text} {value : β} (cell : row key = some (some s)) (read : convert s = some value) :
    field convert row key = .ok value := by
  simp only [field, cell, read]

end Read

inductive PyNumber (α : Type)
  | int (value : ℤ)
  | float (value : α)
  deriving DecidableEq

structure BenchFigures (α : Type) where
  runs : ℕ
  successRate : PyNumber α
  elapsedMeanMs : α
  elapsedMedianMs : α
  elapsedP95Ms : α
  elapsedP99Ms : α
  elapsedMinMs : α
  elapsedMaxMs : α
  bytesReadMean : PyNumber α
  bytesWrittenMean : PyNumber α
  chainLenUnique : List ℤ
  chainBytesUnique : List ℤ
  deriving DecidableEq

section Statistics

variable {α : Type} [Add α] [Sub α] [Mul α] [PyFloat α]

/-- `sorted(xs)` of numbers; where a `nan` stands among them, CPython's order depends on how it sorts. -/
def sortFloats (xs : List α) : List α := xs.insertionSort fun a b => PyFloat.le a b = true

/-- `percentile(sorted_vals, p)` of a list that is not empty; an index outside it is never used. -/
def percentile (sortedVals : List α) (p : α) : α :=
  let item (i : ℤ) : α := sortedVals.getD i.toNat (PyFloat.ofInt 0)
  if sortedVals.length = 1 then item 0
  else
    let k := PyFloat.ofInt (sortedVals.length - 1) * p
    let f := PyFloat.floor k
    let c := PyFloat.ceil k
    if f = c then item f
    else
      let d0 := item f * (PyFloat.ofInt c - k)
      let d1 := item c * (k - PyFloat.ofInt f)
      d0 + d1

/-- `statistics.median` of a sorted list that is not empty -/
def median (sortedVals : List α) : α :=
  let n := sortedVals.length
  let item (i : ℕ) : α := sortedVals.getD i (PyFloat.ofInt 0)
  if n % 2 = 1 then item (n / 2) else PyFloat.half (item (n / 2 - 1) + item (n / 2))

/-- `statistics.mean` of integers: an integer when it is one. -/
def meanInts (xs : List ℤ) : Except PyError (PyNumber α) :=
  let mean : ℚ := xs.sum / xs.length
  if mean.den = 1 then .ok (.int mean.num)
  else (PyFloat.ofFraction mean).map .float

def pyMin (xs : List α) : α :=
  xs.tail.foldl (fun low x => if PyFloat.le low x then low else x) (xs.headD (PyFloat.ofInt 0))

def pyMax (xs : List α) : α :=
  xs.tail.foldl (fun high x => if PyFloat.le x high then high else x) (xs.headD (PyFloat.ofInt 0))

/-- `sorted(set(xs))` -/
def sortedSet (xs : List ℤ) : List ℤ := xs.dedup.insertionSort (· ≤ ·)

def benchFigures (bench : List (BenchRow α)) : Except PyError (BenchFigures α) := do
  let elapsed := sortFloats (bench.map (·.elapsedMs))
  let successRate ← meanInts (bench.map (·.success))
  let bytesReadMean ← meanInts (bench.map (·.bytesRead))
  let bytesWrittenMean ← meanInts (bench.map (·.bytesWritten))
  return {
    runs := bench.length
    successRate
    elapsedMeanMs := PyFloat.mean elapsed
    elapsedMedianMs := median elapsed
    elapsedP95Ms := percentile elapsed (PyFloat.ofDecimal (95 / 100))
    elapsedP99Ms := percentile elapsed (PyFloat.ofDecimal (99 / 100))
    elapsedMinMs := pyMin elapsed
    elapsedMaxMs := pyMax elapsed
    bytesReadMean
    bytesWrittenMean
    chainLenUnique := sortedSet (bench.map (·.chainLen))
    chainBytesUnique := sortedSet (bench.map (·.chainBytes)) }

end Statistics

end PqcLab
