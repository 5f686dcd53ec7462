import PqcLab.Library.Text
import Mathlib.Data.List.Basic

/-! Shell patterns over one path component, as `fnmatch` and `Path.glob` read them. -/

namespace Glob

inductive Item
  | star
  | any
  | literal (c : Char)
  | set (negated : Bool) (ranges : List (Char × Char))

/-- The ranges of a bracket expression; a single character is a range of one. -/
def ranges : Text → List (Char × Char)
  | a :: '-' :: b :: rest => (a, b) :: ranges rest
  | a :: rest => (a, a) :: ranges rest
  | [] => []

/-- What follows `[`: the expression up to its closing bracket, and the rest of the pattern. A bracket
right after `[` or `[!` is a member. -/
def bracket (s : Text) : Option (Item × Text) :=
  let (negated, s) := match s with
    | '!' :: rest => (true, rest)
    | rest => (false, rest)
  let (first, s) := match s with
    | ']' :: rest => ([']'], rest)
    | rest => ([], rest)
  match s.dropWhile (· ≠ ']') with
  | [] => none
  | _ :: rest => some (.set negated (ranges (first ++ s.takeWhile (· ≠ ']'))), rest)

def items : Nat → Text → List Item
  | _, [] => []
  | 0, _ => []
  | fuel + 1, c :: rest =>
    if c = '*' then .star :: items fuel rest
    else if c = '?' then .any :: items fuel rest
    else if c = '[' then match bracket rest with
      | some (item, rest) => item :: items fuel rest
      | none => .literal '[' :: items fuel rest
    else .literal c :: items fuel rest

def matchItems : List Item → Text → Bool
  | [], s => s.isEmpty
  | .star :: items, s => s.tails.any (matchItems items)
  | .any :: items, _ :: s => matchItems items s
  | .literal d :: items, c :: s => c == d && matchItems items s
  | .set negated ranges :: items, c :: s =>
    (ranges.any (fun (low, high) => low ≤ c && c ≤ high) != negated) && matchItems items s
  | _ :: _, [] => false

/-- `fnmatch.fnmatchcase(name, pattern)` -/
def fnmatch (name pattern : Text) : Bool := matchItems (items pattern.length pattern) name

def Literal (pattern : Text) : Prop := ∀ c ∈ pattern, c ≠ '*' ∧ c ≠ '?' ∧ c ≠ '['

instance (pattern : Text) : Decidable (Literal pattern) := List.decidableBAll ..

theorem items_literal {pattern : Text} (plain : Literal pattern) {fuel : Nat}
    (enough : pattern.length ≤ fuel) : items fuel pattern = pattern.map .literal := by
  induction pattern generalizing fuel with
  | nil => cases fuel <;> rfl
  | cons c pattern ih =>
    cases fuel with
    | zero => simp at enough
    | succ fuel =>
      have head := plain c (by simp)
      have tail := ih (fun d member => plain d (by simp [member]))
        (Nat.le_of_succ_le_succ (by simpa using enough))
      simp [items, head, tail]

theorem matchItems_literal (pattern name : Text) :
    matchItems (pattern.map .literal) name = decide (name = pattern) := by
  induction pattern generalizing name with
  | nil => cases name <;> simp [matchItems]
  | cons d pattern ih =>
    cases name with
    | nil => simp [matchItems]
    | cons c name =>
      rw [List.map_cons, matchItems, ih]
      by_cases same : c = d <;> simp [same]

theorem fnmatch_literal {pattern : Text} (plain : Literal pattern) (name : Text) :
    fnmatch name pattern = true ↔ name = pattern := by
  rw [fnmatch, items_literal plain le_rfl, matchItems_literal, decide_eq_true_iff]

end Glob
