import PqcLab.Library.Csv
import PqcLab.Library.Decimal

/-! The values the summarisers handle: exceptions, JSON documents, and floats. -/

namespace PqcLab

open Binary64 Digits

inductive PyError
  | fileNotFoundError (message : Text)
  | statisticsError (message : Text)
  | keyError (key : Text)
  | typeError
  | valueError
  | attributeError
  | overflowError
  | csvError (error : Csv.Error)
  deriving DecidableEq

inductive Json
  | null
  | bool (value : Bool)
  | num (value : ℚ)
  | str (value : Text)
  | arr (items : List Json)
  | obj (fields : List (Text × Json))

namespace Json

/-- A key given twice keeps its last value. -/
def lookup (key : Text) : List (Text × Json) → Option Json
  | [] => none
  | (name, value) :: fields => (lookup key fields).or (if name = key then some value else none)

/-- `doc.get(key, default)`, which only an object has. -/
def get (doc : Json) (key : Text) (default : Json) : Except PyError Json :=
  match doc with
  | .obj fields => .ok ((lookup key fields).getD default)
  | _ => .error .attributeError

/-- `doc[key]` -/
def getItem (doc : Json) (key : Text) : Except PyError Json :=
  match doc with
  | .obj fields => match lookup key fields with
    | some value => .ok value
    | none => .error (.keyError key)
  | _ => .error .typeError

def isStr (doc : Json) (s : Text) : Bool :=
  match doc with
  | .str value => value = s
  | _ => false

def isNull : Json → Bool
  | .null => true
  | _ => false

end Json

/-- The text of a file, as far as JSON readers tell it apart. -/
inductive JsonFile
  | empty
  | broken
  | document (doc : Json)

/-- `json.load(f)`; `none` is any of its exceptions. -/
def JsonFile.load : JsonFile → Option Json
  | .document doc => some doc
  | _ => none

/-- `$doc[0]` after `--slurpfile doc`: an empty file holds no document, and `null` stands for it. -/
def JsonFile.slurpFirst : JsonFile → Option Json
  | .empty => some .null
  | .broken => none
  | .document doc => some doc

def isJsonSpace (c : Char) : Bool := c == ' ' || c == '\t' || c == '\n' || c == '\r'

def jsonTrim (s : Text) : Text := (s.dropWhile isJsonSpace).rdropWhile isJsonSpace

def opensNumber (s : Text) : Bool := (sign s).2.head?.any Char.isDigit

/-- `jq`, as far as `--argjson` goes: what it makes of a text, when it accepts it. -/
structure Jq where
  argjson : Text → Option Json
  /-- A text that opens like a number is accepted as a decimal numeral alone, and keeps its value. -/
  numeral : ∀ s doc, argjson s = some doc → opensNumber (s.dropWhile isCSpace) = true →
    ∃ l, Decimal.literal (jsonTrim s) = some l ∧ doc = .num l.value

def decimalJq : Jq where
  argjson s := (Decimal.literal (jsonTrim s)).map fun l => .num l.value
  numeral := by
    intro s doc accepted _
    obtain ⟨l, literal, rfl⟩ := Option.map_eq_some_iff.mp accepted
    exact ⟨l, literal, rfl⟩

theorem jsonTrim_decimal (n : ℕ) : jsonTrim (decimal n) = decimal n := by
  have visible : ∀ d ∈ decimal n, isJsonSpace d = false := by
    intro d member
    have other (e : Char) (letter : e.isDigit = false) : d ≠ e := isDigit_ne (mem_decimal member) letter
    simp [isJsonSpace, other ' ' (by decide), other '\t' (by decide), other '\n' (by decide),
      other '\r' (by decide)]
  unfold jsonTrim
  rw [List.dropWhile_eq_self_iff.mpr, List.rdropWhile_eq_self_iff.mpr]
  · intro nonempty
    simp [visible _ (List.getLast_mem nonempty)]
  · intro nonempty
    simp [visible _ (List.getElem_mem nonempty)]

theorem decimalJq_decimal (n : ℕ) : decimalJq.argjson (decimal n) ≠ none := by
  simp [decimalJq, jsonTrim_decimal, Decimal.literal_decimal]

theorem Jq.argjson_decimal {jq : Jq} {n : ℕ} {doc : Json} (accepted : jq.argjson (decimal n) = some doc) :
    doc = .num n := by
  have digits : ∀ c ∈ decimal n, c.isDigit = true := fun _ => mem_decimal
  obtain ⟨c, rest, shape⟩ : ∃ c rest, decimal n = c :: rest :=
    List.exists_cons_of_ne_nil Nat.toDigits_ne_nil
  have digit := digits c (by simp [shape])
  have start : (decimal n).dropWhile isCSpace = decimal n := by
    have visible : isCSpace c = false := by
      have bounds := isDigit_bounds digit
      have blank : c ≠ ' ' := isDigit_ne digit (by decide)
      simp [isCSpace, blank]
      omega
    rw [shape]
    simp [visible]
  have opens : opensNumber (decimal n) = true := by
    rw [shape, opensNumber, sign_digit digit]
    exact digit
  obtain ⟨l, read, rfl⟩ := jq.numeral _ _ accepted (start.symm ▸ opens)
  rw [jsonTrim_decimal, Decimal.literal_decimal] at read
  injection read with read
  subst read
  simp [Decimal.Literal.value, decimal]

/-- What the statistics need of `float` beside its ring operations: doubles as Python computes with
them, or exact rationals. -/
class PyFloat (α : Type) where
  /-- `float(s)` -/
  read : Text → Option α
  ofInt : ℤ → α
  /-- `float(Fraction)` -/
  ofFraction : ℚ → Except PyError α
  ofDecimal : ℚ → α
  half : α → α
  floor : α → ℤ
  ceil : α → ℤ
  le : α → α → Bool
  /-- `statistics.mean` of floats -/
  mean : List α → α

instance : PyFloat ℚ where
  read := Decimal.exactFloat
  ofInt := fun n => n
  ofFraction := .ok
  ofDecimal := id
  half := (· / 2)
  floor := Int.floor
  ceil := Int.ceil
  le := fun a b => a ≤ b
  mean := fun xs => xs.sum / xs.length

end PqcLab

namespace Binary64.Double

def neg : Double → Double
  | .finite q => .finite (-q)
  | .infinite negative => .infinite !negative
  | .nan => .nan

def add : Double → Double → Double
  | .nan, _ | _, .nan => .nan
  | .finite a, .finite b => .ofRat (a + b)
  | .infinite n, .finite _ | .finite _, .infinite n => .infinite n
  | .infinite m, .infinite n => if m = n then .infinite m else .nan

def mul : Double → Double → Double
  | .nan, _ | _, .nan => .nan
  | .finite a, .finite b => .ofRat (a * b)
  | .infinite n, .finite a | .finite a, .infinite n =>
    if a = 0 then .nan else .infinite (n != decide (a < 0))
  | .infinite m, .infinite n => .infinite (m != n)

/-- Division by a double other than zero, for which Python raises instead. -/
def div : Double → Double → Double
  | .nan, _ | _, .nan => .nan
  | .finite a, .finite b => .ofRat (a / b)
  | .finite _, .infinite _ => .finite 0
  | .infinite n, .finite b => .infinite (n != decide (b < 0))
  | .infinite _, .infinite _ => .nan

def le : Double → Double → Bool
  | .nan, _ | _, .nan => false
  | .finite a, .finite b => a ≤ b
  | .infinite m, .infinite n => m || !n
  | .infinite n, .finite _ => n
  | .finite _, .infinite n => !n

def isFinite : Double → Bool
  | .finite _ => true
  | _ => false

def toRat : Double → ℚ
  | .finite q => q
  | _ => 0

/-- The exact mean, rounded once; a value that is not finite decides it alone. -/
def mean (xs : List Double) : Double :=
  match xs.filter fun x => !x.isFinite with
  | [] => .ofRat ((xs.map toRat).sum / xs.length)
  | special => special.foldl add (.finite 0)

instance : Add Double := ⟨add⟩
instance : Sub Double := ⟨fun a b => add a b.neg⟩
instance : Mul Double := ⟨mul⟩

instance : PqcLab.PyFloat Double where
  read := Decimal.pyFloat
  ofInt n := .ofRat n
  ofFraction q := match Double.ofRat q with
    | .finite q => .ok (.finite q)
    | _ => .error .overflowError
  ofDecimal := .ofRat
  half x := div x (.finite 2)
  floor x := ⌊x.toRat⌋
  ceil x := ⌈x.toRat⌉
  le := le
  mean := mean

end Binary64.Double

namespace PqcLab

open Binary64

theorem finite_ok {β : Type} (q : ℚ) (result : ℚ → β) :
    (∃ r, (match Double.ofRat q with
      | .finite q => (.ok (result q) : Except PyError β)
      | _ => .error .overflowError) = .ok r) ↔ (Double.ofRat q).isFinite = true := by
  cases Double.ofRat q with
  | finite q => simp [Double.isFinite]
  | infinite negative => simp [Double.isFinite]
  | nan => simp [Double.isFinite]

theorem finite_result {β : Type} {q : ℚ} {result : ℚ → β} {r : β}
    (computed : (match Double.ofRat q with
      | .finite q => (.ok (result q) : Except PyError β)
      | _ => .error .overflowError) = .ok r) : ∃ x, result x = r := by
  cases shape : Double.ofRat q with
  | finite x =>
    rw [shape] at computed
    exact ⟨x, Except.ok.inj computed⟩
  | infinite negative =>
    rw [shape] at computed
    cases computed
  | nan =>
    rw [shape] at computed
    cases computed

end PqcLab
