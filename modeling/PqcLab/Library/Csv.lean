import PqcLab.Library.Text

/-! Python's `csv.reader` with the excel dialect, and `csv.DictReader` over it. -/

namespace Csv

inductive State
  | startRecord
  | startField
  | inField
  | inQuotedField
  | quoteInQuotedField
  | eatCrNl
  deriving DecidableEq

/-- `csv.Error`, with the two causes the dialect leaves. -/
inductive Error
  | fieldLimit
  | newlineInUnquotedField
  deriving DecidableEq, Repr

structure Reader where
  state : State
  field : Text
  fields : List Text

/-- `parse_reset` -/
def Reader.reset : Reader := ⟨.startRecord, [], []⟩

/-- `csv.field_size_limit()` -/
def fieldLimit : Nat := 131072

def Reader.saveField (r : Reader) : Reader := { r with field := [], fields := r.fields ++ [r.field] }

def Reader.addChar (r : Reader) (c : Char) (next : State) : Except Error Reader :=
  if r.field.length < fieldLimit then .ok { r with field := r.field ++ [c], state := next }
  else .error .fieldLimit

/-- A line end, or the end of the line that the iterator delivered. -/
def Reader.endRecord (r : Reader) (c : Option Char) : Reader :=
  { r.saveField with state := if c = none then .startRecord else .eatCrNl }

def Reader.processStartField (r : Reader) : Option Char → Except Error Reader
  | none => .ok (r.endRecord none)
  | some c =>
    if Text.isNewline c then .ok (r.endRecord (some c))
    else if c = '"' then .ok { r with state := .inQuotedField }
    else if c = ',' then .ok { r.saveField with state := .startField }
    else r.addChar c .inField

def Reader.processInField (r : Reader) : Option Char → Except Error Reader
  | none => .ok (r.endRecord none)
  | some c =>
    if Text.isNewline c then .ok (r.endRecord (some c))
    else if c = ',' then .ok { r.saveField with state := .startField }
    else r.addChar c .inField

/-- `parse_process_char`; `none` is `EOL`. -/
def Reader.process (r : Reader) (c : Option Char) : Except Error Reader :=
  match r.state with
  | .startRecord => match c with
    | none => .ok r
    | some c =>
      if Text.isNewline c then .ok { r with state := .eatCrNl } else r.processStartField (some c)
  | .startField => r.processStartField c
  | .inField => r.processInField c
  | .inQuotedField => match c with
    | none => .ok r
    | some c =>
      if c = '"' then .ok { r with state := .quoteInQuotedField } else r.addChar c .inQuotedField
  | .quoteInQuotedField =>
    -- `""` inside quotes is one quote; anything else but a separator goes on unquoted
    if c = some '"' then r.addChar '"' .inQuotedField else r.processInField c
  | .eatCrNl => match c with
    | none => .ok { r with state := .startRecord }
    | some c => if Text.isNewline c then .ok r else .error .newlineInUnquotedField

def Reader.chars (r : Reader) : Text → Except Error Reader
  | [] => .ok r
  | c :: rest => (r.process (some c)).bind fun r => r.chars rest

def Reader.line (r : Reader) (line : Text) : Except Error Reader :=
  (r.chars line).bind fun r => r.process none

def records (r : Reader) : List Text → List (Except Error (List Text))
  | [] => if r.field ≠ [] ∨ r.state = .inQuotedField then [.ok r.saveField.fields] else []
  | line :: lines => match r.line line with
    | .error e => [.error e]
    | .ok next =>
      if next.state = .startRecord then .ok next.fields :: records .reset lines
      else records next lines

/-- `csv.reader(f)` over a file opened with `newline=""` -/
def reader (text : Text) : List (Except Error (List Text)) := records .reset (Text.rawLines text)

/-- `dict(zip(fieldnames, row))[key]`: the last column of that name counts, and a row too short for it
gives `None`. No column of that name is `none` itself. -/
def lookup : List Text → List Text → Text → Option (Option Text)
  | [], _, _ => none
  | name :: names, row, key =>
    (lookup names row.tail key).or (if name = key then some row.head? else none)

/-- `csv.DictReader(f)`: the first record names the columns, and blank lines are skipped. -/
def dictReader (text : Text) : List (Except Error (Text → Option (Option Text))) :=
  match reader text with
  | [] => []
  | .error e :: _ => [.error e]
  | .ok fieldnames :: rows => rows.filterMap fun
    | .error e => some (.error e)
    | .ok [] => none
    | .ok row => some (.ok (lookup fieldnames row))

def Plain (field : Text) : Prop :=
  field.length ≤ fieldLimit ∧ ∀ c ∈ field, c ≠ ',' ∧ c ≠ '"' ∧ Text.isNewline c = false

theorem plain_of_all {field : Text} (short : field.length ≤ fieldLimit)
    (all : field.all (fun c => c != ',' && c != '"' && !Text.isNewline c) = true) : Plain field := by
  refine ⟨short, fun c member => ?_⟩
  have plain := List.all_eq_true.mp all c member
  simpa [and_assoc] using plain

def row : List Text → Text
  | [] => ['\n']
  | [field] => field ++ ['\n']
  | field :: fields => field ++ ',' :: row fields

theorem row_eq {fields : List Text} (plain : ∀ field ∈ fields, Plain field) :
    ∃ line : Text, row fields = line ++ ['\n'] ∧ ∀ c ∈ line, Text.isNewline c = false := by
  induction fields with
  | nil => exact ⟨[], rfl, by simp⟩
  | cons field fields ih =>
    have head : ∀ c ∈ field, Text.isNewline c = false := fun c member =>
      ((plain field (by simp)).2 c member).2.2
    cases fields with
    | nil => exact ⟨field, rfl, head⟩
    | cons next fields =>
      obtain ⟨line, same, tail⟩ := ih fun f member => plain f (by simp [member])
      refine ⟨field ++ ',' :: line, by simp [row, same], fun c member => ?_⟩
      rcases List.mem_append.mp member with member | member
      · exact head c member
      · rcases List.mem_cons.mp member with rfl | member
        · rfl
        · exact tail c member

theorem process_plain {r : Reader} {c : Char} (state : r.state = .inField) (comma : c ≠ ',')
    (newline : Text.isNewline c = false) (room : r.field.length < fieldLimit) :
    r.process (some c) = .ok { r with field := r.field ++ [c] } := by
  unfold Reader.process
  rw [state]
  simp [Reader.processInField, newline, comma, Reader.addChar, room]

theorem chars_plain {field rest : Text}
    (plain : ∀ c ∈ field, c ≠ ',' ∧ c ≠ '"' ∧ Text.isNewline c = false) {r : Reader}
    (state : r.state = .inField) (room : r.field.length + field.length ≤ fieldLimit) :
    r.chars (field ++ rest) = { r with field := r.field ++ field }.chars rest := by
  induction field generalizing r with
  | nil => simp
  | cons c field ih =>
    have head := plain c (by simp)
    rw [List.length_cons] at room
    rw [List.cons_append, Reader.chars, process_plain state head.1 head.2.2 (by omega)]
    have tail := @ih (fun d member => plain d (by simp [member])) { r with field := r.field ++ [c] }
      state (by simp; omega)
    simpa [Except.bind] using tail

theorem chars_field {field rest : Text} {separator : Char} (plain : Plain field) {r : Reader}
    (state : r.state = .startField) (empty : r.field = [])
    (separates : separator = ',' ∨ separator = '\n') :
    r.chars (field ++ separator :: rest) =
      (Reader.mk (if separator = ',' then .startField else .eatCrNl) [] (r.fields ++ [field])).chars
        rest := by
  obtain ⟨length, plain⟩ := plain
  cases field with
  | nil =>
    rcases separates with rfl | rfl
    · simp [Reader.chars, Reader.process, state, Reader.processStartField, Text.isNewline,
        Reader.saveField, empty, Except.bind]
    · simp [Reader.chars, Reader.process, state, Reader.processStartField, Text.isNewline,
        Reader.endRecord, Reader.saveField, empty, Except.bind]
  | cons c field =>
    have head := plain c (by simp)
    rw [List.length_cons] at length
    have first : r.process (some c) = .ok ⟨.inField, [c], r.fields⟩ := by
      have room : 0 < fieldLimit := by decide
      simp [Reader.process, state, Reader.processStartField, head, Reader.addChar, empty, room]
    have middle := @chars_plain field (separator :: rest) (fun d member => plain d (by simp [member]))
      ⟨.inField, [c], r.fields⟩ rfl (by simp; omega)
    rw [List.cons_append, Reader.chars, first]
    simp only [Except.bind, middle]
    rcases separates with rfl | rfl
    · simp [Reader.chars, Reader.process, Reader.processInField, Text.isNewline, Reader.saveField,
        Except.bind]
    · simp [Reader.chars, Reader.process, Reader.processInField, Text.isNewline, Reader.endRecord,
        Reader.saveField, Except.bind]

theorem chars_row {fields : List Text} (plain : ∀ field ∈ fields, Plain field) (nonempty : fields ≠ [])
    {r : Reader} (state : r.state = .startField) (empty : r.field = []) :
    r.chars (row fields) = .ok ⟨.eatCrNl, [], r.fields ++ fields⟩ := by
  induction fields generalizing r with
  | nil => exact absurd rfl nonempty
  | cons field fields ih =>
    have head := plain field (by simp)
    cases fields with
    | nil =>
      rw [row, chars_field head state empty (.inr rfl)]
      simp [Reader.chars]
    | cons next fields =>
      have tail := @ih (fun f member => plain f (by simp [member])) (by simp)
        ⟨.startField, [], r.fields ++ [field]⟩ rfl rfl
      rw [row, chars_field head state empty (.inl rfl)]
      · simpa using tail
      · simp

theorem process_startRecord {c : Char} (newline : Text.isNewline c = false) :
    Reader.reset.process (some c) = (Reader.mk .startField [] []).process (some c) := by
  simp only [Reader.process, Reader.reset, newline]
  rfl

theorem line_row {fields : List Text} (plain : ∀ field ∈ fields, Plain field) (nonempty : fields ≠ [])
    (visible : fields ≠ [[]]) : Reader.reset.line (row fields) = .ok ⟨.startRecord, [], fields⟩ := by
  have start : Reader.reset.chars (row fields) = (Reader.mk .startField [] []).chars (row fields) := by
    have first : ∀ c ∈ (row fields).head?, Text.isNewline c = false := by
      cases fields with
      | nil => exact absurd rfl nonempty
      | cons field fields =>
        cases field with
        | nil =>
          cases fields with
          | nil => exact absurd rfl visible
          | cons next fields => simp [row, Text.isNewline]
        | cons c field =>
          have := ((plain (c :: field) (by simp)).2 c (by simp)).2.2
          cases fields <;> simpa [row] using this
    cases shape : row fields with
    | nil =>
      obtain ⟨line, same, -⟩ := row_eq plain
      simp [same] at shape
    | cons c rest =>
      simp only [shape, List.head?_cons, Option.mem_def, Option.some.injEq, forall_eq'] at first
      simp only [Reader.chars, process_startRecord first]
  unfold Reader.line
  rw [start, chars_row plain nonempty rfl rfl]
  rfl

theorem records_rows {rows : List (List Text)}
    (plain : ∀ fields ∈ rows, (∀ field ∈ fields, Plain field) ∧ fields ≠ [] ∧ fields ≠ [[]]) :
    records .reset (rows.map row) = rows.map .ok := by
  induction rows with
  | nil => simp [records, Reader.reset]
  | cons fields rows ih =>
    obtain ⟨head, nonempty, visible⟩ := plain fields (by simp)
    simp only [List.map_cons, records, line_row head nonempty visible, ↓reduceIte,
      ih fun f member => plain f (by simp [member])]

theorem rawLines_terminated {line : Text} (plain : ∀ c ∈ line, Text.isNewline c = false) (rest : Text) :
    Text.rawLines (line ++ '\n' :: rest) = (line ++ ['\n']) :: Text.rawLines rest := by
  induction line with
  | nil => rw [List.nil_append, Text.rawLines]; rfl
  | cons c line ih =>
    have head := plain c (by simp)
    simp only [Text.isNewline, Bool.or_eq_false_iff, beq_eq_false_iff_ne] at head
    rw [List.cons_append, Text.rawLines, ih fun d member => plain d (by simp [member])]
    · rfl
    all_goals simp [head]

/-- The reader gives plain rows back as they were written. -/
theorem reader_rows {rows : List (List Text)}
    (plain : ∀ fields ∈ rows, (∀ field ∈ fields, Plain field) ∧ fields ≠ [] ∧ fields ≠ [[]]) :
    reader (rows.flatMap row) = rows.map .ok := by
  have lines : Text.rawLines (rows.flatMap row) = rows.map row := by
    induction rows with
    | nil => rfl
    | cons fields rows ih =>
      obtain ⟨line, same, clean⟩ := row_eq (plain fields (by simp)).1
      rw [List.flatMap_cons, List.map_cons, same, List.append_assoc, List.singleton_append,
        rawLines_terminated clean, ih fun f member => plain f (by simp [member])]
  unfold reader
  rw [lines, records_rows plain]

end Csv
