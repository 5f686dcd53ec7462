import Mathlib.Data.List.DropRight
import Mathlib.Data.List.Lex
import Mathlib.Data.Char

abbrev Text := List Char

instance : LawfulBEq Text := inferInstanceAs (LawfulBEq (List Char))

namespace Text

/-- `str.isspace` of one character. -/
def isSpace (c : Char) : Bool :=
  let n := c.toNat
  (9 ≤ n && n ≤ 13) || (28 ≤ n && n ≤ 32) || n == 0x85 || n == 0xA0 || n == 0x1680 ||
    (0x2000 ≤ n && n ≤ 0x200A) || n == 0x2028 || n == 0x2029 || n == 0x202F || n == 0x205F ||
    n == 0x3000

def lstrip (s : Text) : Text := s.dropWhile isSpace
def rstrip (s : Text) : Text := s.rdropWhile isSpace

/-- `str.strip()` -/
def strip (s : Text) : Text := rstrip (lstrip s)

/-- The whitespace around a number for `int` and `float`, which refuse the separators U+001C to U+001F. -/
def isNumberSpace (c : Char) : Bool := isSpace c && !(28 ≤ c.toNat && c.toNat ≤ 31)

def stripNumber (s : Text) : Text := (s.dropWhile isNumberSpace).rdropWhile isNumberSpace

def isNewline (c : Char) : Bool := c == '\n' || c == '\r'

/-- The lines a `\n` ends, and the characters after the last `\n`. -/
def terminated : Text → List Text × Text
  | [] => ([], [])
  | c :: rest =>
    let (lines, last) := terminated rest
    if c = '\n' then ([] :: lines, last)
    else match lines with
      | [] => ([], c :: last)
      | line :: lines => ((c :: line) :: lines, last)

/-- Universal newlines: text mode reads `\r\n` and `\r` as `\n`. -/
def translateNewlines : Text → Text
  | [] => []
  | '\r' :: '\n' :: rest => '\n' :: translateNewlines rest
  | '\r' :: rest => '\n' :: translateNewlines rest
  | c :: rest => c :: translateNewlines rest

/-- The lines a file opened in text mode yields, without their terminators. -/
def lines (s : Text) : List Text :=
  let (lines, last) := terminated (translateNewlines s)
  if last = [] then lines else lines ++ [last]

/-- The lines a file opened with `newline=""` yields: the terminators stay as they are. -/
def rawLines : Text → List Text
  | [] => []
  | '\r' :: '\n' :: rest => ['\r', '\n'] :: rawLines rest
  | '\r' :: rest => ['\r'] :: rawLines rest
  | '\n' :: rest => ['\n'] :: rawLines rest
  | c :: rest => match rawLines rest with
    | [] => [[c]]
    | line :: lines => (c :: line) :: lines

def removeFrom (needle : Text) : Nat → Text → Text
  | _, [] => []
  | skip + 1, _ :: rest => removeFrom needle skip rest
  | 0, c :: rest =>
    if needle.isPrefixOf (c :: rest) then removeFrom needle (needle.length - 1) rest
    else c :: removeFrom needle 0 rest

/-- `s.replace(needle, "")` of a needle that is not empty -/
def removeAll (needle s : Text) : Text := removeFrom needle 0 s

def Trimmed (s : Text) : Prop :=
  (∀ c ∈ s.head?, isSpace c = false) ∧ ∀ c ∈ s.getLast?, isSpace c = false

instance (s : Text) : Decidable (Trimmed s) := inferInstanceAs (Decidable (_ ∧ _))

theorem lstrip_suffix (s : Text) : lstrip s <:+ s := List.dropWhile_suffix _

theorem rstrip_start (s : Text) : rstrip s <+: s := List.rdropWhile_prefix _ _

theorem strip_sublist (s : Text) : List.Sublist (strip s) s :=
  (rstrip_start (lstrip s)).sublist.trans (lstrip_suffix s).sublist

theorem dropWhile_rdropWhile {space : Char → Bool} {s : Text} (head : ∀ c ∈ s.head?, space c = false)
    (last : ∀ c ∈ s.getLast?, space c = false) : (s.dropWhile space).rdropWhile space = s := by
  have left : s.dropWhile space = s := by
    cases s with
    | nil => rfl
    | cons c s =>
      have visible := head c (by simp)
      simp [visible]
  rw [left, List.rdropWhile_eq_self_iff]
  intro nonempty
  have visible := last (s.getLast nonempty) (List.getLast?_eq_getLast_of_ne_nil nonempty)
  simp [visible]

theorem strip_of_trimmed {s : Text} (h : Trimmed s) : strip s = s := dropWhile_rdropWhile h.1 h.2

theorem isNumberSpace_false {c : Char} (visible : isSpace c = false) : isNumberSpace c = false := by
  rw [isNumberSpace, visible, Bool.false_and]

theorem stripNumber_of_trimmed {s : Text} (h : Trimmed s) : stripNumber s = s :=
  dropWhile_rdropWhile (fun c member => isNumberSpace_false (h.1 c member))
    fun c member => isNumberSpace_false (h.2 c member)

theorem lstrip_head (s : Text) : ∀ c ∈ (lstrip s).head?, isSpace c = false := by
  intro c member
  have head := List.head?_dropWhile_not isSpace s
  unfold lstrip at member
  cases shape : (s.dropWhile isSpace).head? with
  | none => simp [shape] at member
  | some d =>
    simp only [shape, Option.mem_def, Option.some.injEq] at member head
    subst member
    simpa using head

theorem strip_trimmed (s : Text) : Trimmed (strip s) := by
  constructor
  · intro c member
    obtain ⟨rest, same⟩ := rstrip_start (lstrip s)
    refine lstrip_head s c ?_
    rw [← same, List.head?_append]
    unfold strip at member
    rw [Option.mem_def] at member
    rw [member]
    simp
  · intro c member
    by_cases empty : strip s = []
    · simp [empty] at member
    · rw [List.getLast?_eq_getLast_of_ne_nil empty, Option.mem_some_iff] at member
      have last := List.rdropWhile_last_not isSpace (lstrip s) empty
      subst member
      simpa [strip, rstrip] using last

theorem mem_strip {s : Text} {c : Char} (member : c ∈ s) (visible : isSpace c = false) :
    c ∈ strip s := by
  have left : c ∈ lstrip s := by
    have split := List.takeWhile_append_dropWhile (p := isSpace) (l := s)
    rw [← split] at member
    rcases List.mem_append.mp member with early | late
    · have := List.mem_takeWhile_imp early
      simp [visible] at this
    · exact late
  have split := List.rdropWhile_append_rtakeWhile (p := isSpace) (l := lstrip s)
  rw [← split] at left
  rcases List.mem_append.mp left with early | late
  · exact early
  · have := List.mem_rtakeWhile_imp late
    simp [visible] at this

theorem strip_head {s : Text} {c : Char} (head : s.head? = some c) (visible : isSpace c = false) :
    (strip s).head? = some c := by
  cases s with
  | nil => simp at head
  | cons d s =>
    injection head with same
    subst same
    have left : lstrip (d :: s) = d :: s := by simp [lstrip, visible]
    have trimmed := mem_strip (s := d :: s) (List.mem_cons_self) visible
    obtain ⟨after, split⟩ := rstrip_start (d :: s)
    unfold strip at trimmed ⊢
    rw [left] at trimmed ⊢
    cases stripped : rstrip (d :: s) with
    | nil => simp [stripped] at trimmed
    | cons e rest =>
      rw [stripped] at split
      injection split with same
      simp [same]

theorem terminated_join (s : Text) :
    s = (terminated s).1.flatMap (fun line => line ++ ['\n']) ++ (terminated s).2 ∧
      (∀ line ∈ (terminated s).1, '\n' ∉ line) ∧ '\n' ∉ (terminated s).2 := by
  induction s with
  | nil => simp [terminated]
  | cons c s ih =>
    obtain ⟨join, clean, last⟩ := ih
    by_cases newline : c = '\n'
    · subst newline
      simp only [terminated, if_true]
      refine ⟨by simpa using join, ?_, last⟩
      intro line member
      rcases List.mem_cons.mp member with rfl | member
      · simp
      · exact clean line member
    · simp only [terminated, newline, if_false]
      cases shape : (terminated s).1 with
      | nil =>
        rw [shape] at join
        refine ⟨by simpa using join, by simp, ?_⟩
        simp [last, Ne.symm newline]
      | cons line lines =>
        rw [shape] at join clean
        refine ⟨by simpa using join, ?_, last⟩
        intro l member
        rcases List.mem_cons.mp member with rfl | member
        · simp [clean line (by simp), Ne.symm newline]
        · exact clean l (by simp [member])

theorem translateNewlines_newline (rest : Text) :
    translateNewlines ('\n' :: rest) = '\n' :: translateNewlines rest := by
  rw [translateNewlines] <;> simp

theorem translateNewlines_both (rest : Text) :
    translateNewlines ('\r' :: '\n' :: rest) = '\n' :: translateNewlines rest := by
  rw [translateNewlines]

theorem translateNewlines_return {rest : Text} (alone : rest.head? ≠ some '\n') :
    translateNewlines ('\r' :: rest) = '\n' :: translateNewlines rest := by
  rw [translateNewlines]
  rintro after rfl
  simp at alone

theorem return_notMem_translateNewlines (s : Text) : '\r' ∉ translateNewlines s := by
  induction s using translateNewlines.induct with
  | case1 => simp [translateNewlines]
  | case2 rest ih | case3 rest ne ih => simp [translateNewlines, ih]
  | case4 c rest both alone ih =>
    have other : c ≠ '\r' := fun same => alone same
    simp [translateNewlines, Ne.symm other, ih]

theorem lines_clean {s line : Text} (member : line ∈ lines s) : ∀ c ∈ line, isNewline c = false := by
  obtain ⟨join, clean, last⟩ := terminated_join (translateNewlines s)
  have noReturn := return_notMem_translateNewlines s
  have parts : '\n' ∉ line ∧ ∀ c ∈ line, c ∈ translateNewlines s := by
    unfold lines at member
    dsimp only at member
    have inside : line ∈ (terminated (translateNewlines s)).1 ∨ line = (terminated (translateNewlines s)).2 := by
      split_ifs at member
      · exact .inl member
      · simpa using member
    rw [join]
    rcases inside with inside | rfl
    · refine ⟨clean line inside, fun c member => List.mem_append_left _ ?_⟩
      exact List.mem_flatMap.mpr ⟨line, inside, List.mem_append_left _ member⟩
    · exact ⟨last, fun c member => List.mem_append_right _ member⟩
  intro c inside
  have lf : c ≠ '\n' := fun same => parts.1 (same ▸ inside)
  have cr : c ≠ '\r' := fun same => noReturn (same ▸ parts.2 c inside)
  simp [isNewline, lf, cr]

theorem translateNewlines_plain {line : Text} (plain : ∀ c ∈ line, isNewline c = false) (rest : Text) :
    translateNewlines (line ++ rest) = line ++ translateNewlines rest := by
  induction line with
  | nil => rfl
  | cons c line ih =>
    have head := plain c (by simp)
    simp only [isNewline, Bool.or_eq_false_iff, beq_eq_false_iff_ne] at head
    rw [List.cons_append, translateNewlines, ih fun d member => plain d (by simp [member])]
    · rfl
    all_goals simp [head]

theorem terminated_append {line : Text} (clean : '\n' ∉ line) (rest : Text) :
    terminated (line ++ '\n' :: rest) = (line :: (terminated rest).1, (terminated rest).2) := by
  induction line with
  | nil => simp [terminated]
  | cons c line ih =>
    have head : c ≠ '\n' := fun same => clean (by simp [same])
    have tail := ih fun member => clean (by simp [member])
    rw [List.cons_append, terminated, tail]
    simp [head]

theorem terminated_plain {line : Text} (clean : '\n' ∉ line) : terminated line = ([], line) := by
  induction line with
  | nil => rfl
  | cons c line ih =>
    have head : c ≠ '\n' := fun same => clean (by simp [same])
    have tail := ih fun member => clean (by simp [member])
    rw [terminated, tail]
    simp [head]

section Lines

variable {line : Text} (plain : ∀ c ∈ line, isNewline c = false)

include plain

theorem newline_notMem : '\n' ∉ line := fun member => by simpa [isNewline] using plain _ member

theorem lines_plain (nonempty : line ≠ []) : lines line = [line] := by
  have same := translateNewlines_plain plain []
  simp only [List.append_nil] at same
  unfold lines
  rw [same, translateNewlines, List.append_nil, terminated_plain (newline_notMem plain)]
  simp [nonempty]

theorem lines_append {rest next : Text} (ends : translateNewlines rest = '\n' :: translateNewlines next) :
    lines (line ++ rest) = line :: lines next := by
  unfold lines
  rw [translateNewlines_plain plain, ends, terminated_append (newline_notMem plain)]
  dsimp only
  split_ifs <;> rfl

end Lines

theorem append_lt_append_iff (a : Text) {c d : Text} : a ++ c < a ++ d ↔ c < d := by
  induction a with
  | nil => rfl
  | cons x a ih => rw [List.cons_append, List.cons_append, List.cons_lt_cons_iff]; simp [ih]

theorem append_lt_left {a b : Text} (length : a.length = b.length) (less : a < b) (c d : Text) :
    a ++ c < b ++ d := by
  induction a generalizing b with
  | nil =>
    cases b with
    | nil => simp at less
    | cons y b => simp at length
  | cons x a ih =>
    cases b with
    | nil => simp at length
    | cons y b =>
      rw [List.cons_append, List.cons_append, List.cons_lt_cons_iff]
      rcases List.cons_lt_cons_iff.mp less with head | ⟨head, tail⟩
      · exact .inl head
      · exact .inr ⟨head, ih (by simpa using length) tail⟩

end Text
