import PqcLab.Library.Csv

/-! Python's `csv.writer` with the excel dialect, `csv.DictWriter` over it, and reading their files back. -/

namespace Csv

/-- Whether `QUOTE_MINIMAL` puts a field in quotes. -/
def needsQuotes (field : Text) : Bool := field.any fun c => c == ',' || c == '"' || Text.isNewline c

def escape : Text → Text
  | [] => []
  | c :: rest => if c = '"' then '"' :: '"' :: escape rest else c :: escape rest

def quoted (field : Text) : Text := '"' :: (escape field ++ ['"'])

def writeField (field : Text) : Text := if needsQuotes field then quoted field else field

def joinFields : List Text → Text
  | [] => []
  | [field] => writeField field
  | field :: fields => writeField field ++ ',' :: joinFields fields

/-- `writer.writerow(fields)`; a single empty field is quoted, for its record would be empty. -/
def writeRow (fields : List Text) : Text :=
  (if fields = [[]] then quoted [] else joinFields fields) ++ ['\r', '\n']

/-- What a `csv.DictWriter` writes with `writeheader` and one `writerow` for each row. -/
def dictWriter (fieldnames : List Text) (rows : List (Text → Text)) : Text :=
  (fieldnames :: rows.map fieldnames.map).flatMap writeRow

def resume (r : Reader) (rest : Text) : List (Except Error (List Text)) :=
  match Text.rawLines rest with
  | [] => records r [[]]
  | line :: lines => records r (line :: lines)

def proceed (next : Except Error Reader) (others : Reader → List (Except Error (List Text))) :
    List (Except Error (List Text)) :=
  match next with
  | .error e => [.error e]
  | .ok r => others r

def openLine (c : Char) : List Text → List Text
  | [] => [[c]]
  | line :: lines => (c :: line) :: lines

theorem rawLines_char {c : Char} (plain : Text.isNewline c = false) (rest : Text) :
    Text.rawLines (c :: rest) = openLine c (Text.rawLines rest) := by
  simp only [Text.isNewline, Bool.or_eq_false_iff, beq_eq_false_iff_ne] at plain
  rw [Text.rawLines]
  · rfl
  all_goals simp [plain]

theorem rawLines_return {rest : Text} (alone : rest.head? ≠ some '\n') :
    Text.rawLines ('\r' :: rest) = ['\r'] :: Text.rawLines rest := by
  rw [Text.rawLines]
  rintro after rfl
  simp at alone

theorem rawLines_newline (rest : Text) : Text.rawLines ('\n' :: rest) = ['\n'] :: Text.rawLines rest := by
  rw [Text.rawLines]

theorem rawLines_ne_nil {text : Text} (nonempty : text ≠ []) : Text.rawLines text ≠ [] := by
  cases text with
  | nil => exact absurd rfl nonempty
  | cons c rest =>
    by_cases plain : Text.isNewline c = false
    · rw [rawLines_char plain]
      cases Text.rawLines rest <;> simp [openLine]
    · have newline : c = '\n' ∨ c = '\r' := by simpa [Text.isNewline, or_iff_not_imp_left] using plain
      rcases newline with rfl | rfl
      · simp [rawLines_newline]
      · by_cases both : rest.head? = some '\n'
        · obtain ⟨after, rfl⟩ := List.head?_eq_some_iff.mp both
          simp [Text.rawLines]
        · simp [rawLines_return both]

theorem resume_eq {r : Reader} {text : Text} (nonempty : text ≠ []) :
    resume r text = records r (Text.rawLines text) := by
  unfold resume
  cases shape : Text.rawLines text with
  | nil => exact absurd shape (rawLines_ne_nil nonempty)
  | cons line lines => rfl

theorem records_char (r : Reader) (c : Char) (line : Text) (lines : List Text) :
    records r ((c :: line) :: lines) = proceed (r.process (some c)) fun r => records r (line :: lines) := by
  rw [records]
  unfold Reader.line
  rw [Reader.chars]
  cases r.process (some c) with
  | error e => rfl
  | ok next =>
    simp only [proceed, Except.bind]
    rw [records]
    rfl

theorem resume_char {r : Reader} {c : Char} (plain : Text.isNewline c = false) (rest : Text) :
    resume r (c :: rest) = proceed (r.process (some c)) fun r => resume r rest := by
  rw [resume_eq (List.cons_ne_nil _ _), rawLines_char plain]
  unfold resume
  cases Text.rawLines rest with
  | nil => exact records_char r c [] []
  | cons line lines => exact records_char r c line lines

def Complete (r : Reader) : Prop :=
  r.state = .startField ∨ r.state = .inField ∨ r.state = .quoteInQuotedField

theorem Complete.comma {r : Reader} (complete : Complete r) (rest : Text) :
    resume r (',' :: rest) = resume ⟨.startField, [], r.fields ++ [r.field]⟩ rest := by
  have saved : r.process (some ',') = .ok ⟨.startField, [], r.fields ++ [r.field]⟩ := by
    rcases complete with state | state | state
    all_goals
      simp [Reader.process, state, Reader.processStartField, Reader.processInField, Text.isNewline,
        Reader.saveField]
  rw [resume_char (by decide), saved]
  rfl

theorem Complete.lineEnd {r : Reader} (complete : Complete r) (rest : Text) :
    resume r ('\r' :: '\n' :: rest) =
      .ok (r.fields ++ [r.field]) :: records .reset (Text.rawLines rest) := by
  have saved : r.process (some '\r') = .ok ⟨.eatCrNl, [], r.fields ++ [r.field]⟩ := by
    rcases complete with state | state | state
    all_goals
      simp [Reader.process, state, Reader.processStartField, Reader.processInField, Text.isNewline,
        Reader.endRecord, Reader.saveField]
  rw [resume_eq (List.cons_ne_nil _ _), Text.rawLines, records_char, saved]
  rfl

theorem resume_unquoted {field : Text} (rest : Text) (plain : needsQuotes field = false) {r : Reader}
    (state : r.state = .startField ∨ r.state = .inField)
    (room : r.field.length + field.length ≤ fieldLimit) :
    ∃ next, Complete next ∧ next.field = r.field ++ field ∧ next.fields = r.fields ∧
      resume r (field ++ rest) = resume next rest := by
  induction field generalizing r with
  | nil =>
    refine ⟨r, ?_, by simp, rfl, rfl⟩
    rcases state with state | state
    · exact .inl state
    · exact .inr (.inl state)
  | cons c field ih =>
    simp only [needsQuotes, List.any_cons, Bool.or_eq_false_iff, beq_eq_false_iff_ne] at plain
    obtain ⟨⟨⟨comma, quote⟩, newline⟩, others⟩ := plain
    rw [List.length_cons] at room
    have space : r.field.length < fieldLimit := by omega
    have taken : r.process (some c) = .ok ⟨.inField, r.field ++ [c], r.fields⟩ := by
      rcases state with state | state
      all_goals
        simp [Reader.process, state, Reader.processStartField, Reader.processInField, newline, comma,
          quote, Reader.addChar, space]
    obtain ⟨next, complete, same, fields, resumed⟩ :=
      ih others (r := ⟨.inField, r.field ++ [c], r.fields⟩) (.inr rfl) (by simp; omega)
    refine ⟨next, complete, by simp [same], fields, ?_⟩
    rw [List.cons_append, resume_char newline, taken]
    exact resumed

/-- Inside quotes every character but a quote belongs to the field, also one that ends a line. -/
theorem resume_inQuotes {r : Reader} (state : r.state = .inQuotedField) {c : Char} (other : c ≠ '"')
    (room : r.field.length < fieldLimit) {rest : Text} (nonempty : rest ≠ []) :
    resume r (c :: rest) = resume { r with field := r.field ++ [c] } rest := by
  have taken {r : Reader} (state : r.state = .inQuotedField) (room : r.field.length < fieldLimit) :
      r.process (some c) = .ok { r with field := r.field ++ [c] } := by
    simp [Reader.process, state, other, Reader.addChar, room]
  by_cases plain : Text.isNewline c = false
  · rw [resume_char plain, taken state room]
    rfl
  · have ended : records { r with field := r.field ++ [c] } ([] :: Text.rawLines rest) =
        records { r with field := r.field ++ [c] } (Text.rawLines rest) := by
      rw [records]
      simp [Reader.line, Reader.chars, Except.bind, Reader.process, state]
    rw [resume_eq (List.cons_ne_nil _ _), resume_eq nonempty]
    have newline : c = '\n' ∨ c = '\r' := by simpa [Text.isNewline, or_iff_not_imp_left] using plain
    rcases newline with rfl | rfl
    · rw [rawLines_newline, records_char, taken state room]
      exact ended
    · by_cases both : rest.head? = some '\n'
      · obtain ⟨after, rfl⟩ := List.head?_eq_some_iff.mp both
        rw [Text.rawLines, records_char, taken state room, rawLines_newline]
        rfl
      · rw [rawLines_return both, records_char, taken state room]
        exact ended

theorem resume_escaped (field rest : Text) {r : Reader} (state : r.state = .inQuotedField)
    (room : r.field.length + field.length ≤ fieldLimit) :
    resume r (escape field ++ '"' :: rest) =
      resume ⟨.quoteInQuotedField, r.field ++ field, r.fields⟩ rest := by
  have quote {r : Reader} (state : r.state = .inQuotedField) (rest : Text) :
      resume r ('"' :: rest) = resume { r with state := .quoteInQuotedField } rest := by
    rw [resume_char (by decide)]
    simp [Reader.process, state, proceed]
  induction field generalizing r with
  | nil =>
    rw [escape, List.nil_append, quote state, List.append_nil]
  | cons c field ih =>
    rw [List.length_cons] at room
    have space : r.field.length < fieldLimit := by omega
    have others := ih (r := { r with field := r.field ++ [c] }) state (by simp; omega)
    rw [List.append_assoc, List.singleton_append] at others
    by_cases same : c = '"'
    · subst same
      have again : Reader.process { r with state := .quoteInQuotedField } (some '"') =
          .ok { r with field := r.field ++ ['"'] } := by
        simp [Reader.process, Reader.addChar, space, state]
      rw [escape, if_pos rfl, List.cons_append, List.cons_append, quote state, resume_char (by decide), again]
      exact others
    · rw [escape, if_neg same, List.cons_append, resume_inQuotes state same space (by simp)]
      exact others

theorem resume_quoted (field rest : Text) {r : Reader} (state : r.state = .startField)
    (empty : r.field = []) (short : field.length ≤ fieldLimit) :
    resume r (quoted field ++ rest) = resume ⟨.quoteInQuotedField, field, r.fields⟩ rest := by
  have opened : r.process (some '"') = .ok { r with state := .inQuotedField } := by
    simp [Reader.process, state, Reader.processStartField, Text.isNewline]
  rw [quoted, List.cons_append, List.append_assoc, List.singleton_append, resume_char (by decide), opened]
  have inside := resume_escaped field rest (r := { r with state := .inQuotedField }) rfl
    (by simpa [empty] using short)
  rw [empty, List.nil_append] at inside
  rw [← inside, ← empty]
  rfl

theorem resume_field (field rest : Text) {r : Reader} (state : r.state = .startField) (empty : r.field = [])
    (short : field.length ≤ fieldLimit) :
    ∃ next, Complete next ∧ next.field = field ∧ next.fields = r.fields ∧
      resume r (writeField field ++ rest) = resume next rest := by
  unfold writeField
  by_cases quotes : needsQuotes field = true
  · rw [if_pos quotes]
    exact ⟨⟨.quoteInQuotedField, field, r.fields⟩, .inr (.inr rfl), rfl, rfl,
      resume_quoted field rest state empty short⟩
  · rw [if_neg quotes]
    obtain ⟨next, complete, same, fields, resumed⟩ :=
      resume_unquoted rest (Bool.not_eq_true _ ▸ quotes) (.inl state) (by simpa [empty] using short)
    exact ⟨next, complete, by simpa [empty] using same, fields, resumed⟩

def Fits (fields : List Text) : Prop := ∀ field ∈ fields, field.length ≤ fieldLimit

theorem resume_joined {fields : List Text} (nonempty : fields ≠ []) (fits : Fits fields) {r : Reader}
    (state : r.state = .startField) (empty : r.field = []) (rest : Text) :
    resume r (joinFields fields ++ '\r' :: '\n' :: rest) =
      .ok (r.fields ++ fields) :: records .reset (Text.rawLines rest) := by
  induction fields generalizing r with
  | nil => exact absurd rfl nonempty
  | cons field fields ih =>
    have short := fits field (by simp)
    cases fields with
    | nil =>
      obtain ⟨next, complete, same, before, resumed⟩ :=
        resume_field field ('\r' :: '\n' :: rest) state empty short
      rw [joinFields, resumed, complete.lineEnd, same, before]
    | cons other fields =>
      obtain ⟨next, complete, same, before, resumed⟩ := resume_field
        field (',' :: (joinFields (other :: fields) ++ '\r' :: '\n' :: rest)) state empty short
      rw [joinFields, List.append_assoc, List.cons_append, resumed, complete.comma, same, before,
        ih (by simp) (fun f member => fits f (by simp [member])) rfl rfl, List.append_assoc,
        List.singleton_append]
      simp

theorem writeField_ne_nil {field : Text} (nonempty : field ≠ []) : writeField field ≠ [] := by
  unfold writeField quoted
  split_ifs <;> simp [nonempty]

theorem writeField_head (field : Text) : ∀ c ∈ (writeField field).head?, Text.isNewline c = false := by
  intro c head
  by_cases quotes : needsQuotes field = true
  · simp [writeField, quotes, quoted] at head
    subst head
    decide
  · have plain := Bool.not_eq_true _ ▸ quotes
    rw [writeField, if_neg quotes] at head
    have clean := List.any_eq_false.mp plain c (List.mem_of_mem_head? head)
    simp only [Bool.or_eq_true, not_or, Bool.not_eq_true] at clean
    exact clean.2

theorem joinFields_head {fields : List Text} (visible : fields ≠ [[]]) (nonempty : fields ≠ []) :
    ∃ c rest, joinFields fields = c :: rest ∧ Text.isNewline c = false := by
  cases fields with
  | nil => exact absurd rfl nonempty
  | cons field fields =>
    cases shape : writeField field with
    | nil =>
      cases fields with
      | nil =>
        have blank : field = [] := by
          by_contra some
          exact writeField_ne_nil some shape
        exact absurd (by rw [blank]) visible
      | cons other fields => exact ⟨',', joinFields (other :: fields), by simp [joinFields, shape], by decide⟩
    | cons c rest =>
      have plain := writeField_head field c (by simp [shape])
      cases fields with
      | nil => exact ⟨c, rest, by simp [joinFields, shape], plain⟩
      | cons other fields =>
        exact ⟨c, rest ++ ',' :: joinFields (other :: fields), by simp [joinFields, shape], plain⟩

theorem resume_start {c : Char} (plain : Text.isNewline c = false) (rest : Text) :
    resume .reset (c :: rest) = resume ⟨.startField, [], []⟩ (c :: rest) := by
  rw [resume_char plain, resume_char plain, process_startRecord plain]

theorem records_writeRow {fields : List Text} (fits : Fits fields) (rest : Text) :
    records .reset (Text.rawLines (writeRow fields ++ rest)) =
      .ok fields :: records .reset (Text.rawLines rest) := by
  by_cases empty : fields = []
  · subst empty
    change records .reset (Text.rawLines ('\r' :: '\n' :: rest)) = _
    rw [Text.rawLines]
    rfl
  · by_cases blank : fields = [[]]
    · subst blank
      have inside := resume_quoted [] ('\r' :: '\n' :: rest)
        (r := ⟨.startField, [], []⟩) rfl rfl (by decide)
      rw [Complete.lineEnd (.inr (.inr rfl))] at inside
      change records .reset (Text.rawLines ('"' :: '"' :: '\r' :: '\n' :: rest)) = _
      rw [← resume_eq (List.cons_ne_nil _ _), resume_start (by decide)]
      exact inside
    · obtain ⟨c, line, shape, plain⟩ := joinFields_head blank empty
      have joined := resume_joined empty fits (r := ⟨.startField, [], []⟩) rfl rfl rest
      rw [writeRow, if_neg blank, List.append_assoc]
      change records .reset (Text.rawLines (joinFields fields ++ '\r' :: '\n' :: rest)) = _
      rw [shape, List.cons_append] at joined ⊢
      rw [← resume_eq (List.cons_ne_nil _ _), resume_start plain, joined]
      rfl

/-- `csv.reader` gives back the rows that `csv.writer` wrote, whatever their fields hold. -/
theorem reader_writeRow {rows : List (List Text)} (fits : ∀ fields ∈ rows, Fits fields) :
    reader (rows.flatMap writeRow) = rows.map .ok := by
  unfold reader
  induction rows with
  | nil => simp [records, Reader.reset, Text.rawLines]
  | cons fields rows ih =>
    rw [List.flatMap_cons, records_writeRow (fits fields (by simp)), List.map_cons,
      ih fun f member => fits f (by simp [member])]

theorem lookup_map (fieldnames : List Text) (row : Text → Text) (key : Text) :
    lookup fieldnames (fieldnames.map row) key =
      if key ∈ fieldnames then some (some (row key)) else none := by
  induction fieldnames with
  | nil => rfl
  | cons name names ih =>
    rw [List.map_cons, lookup, List.tail_cons, ih]
    by_cases later : key ∈ names
    · simp [later]
    · by_cases same : name = key
      · subst same
        simp [later]
      · simp [later, same, Ne.symm same]

/-- `csv.DictReader` gives back every column of every row that `csv.DictWriter` wrote. -/
theorem dictReader_dictWriter {fieldnames : List Text} (nonempty : fieldnames ≠ [])
    (names : Fits fieldnames) {rows : List (Text → Text)} (fits : ∀ row ∈ rows, Fits (fieldnames.map row)) :
    dictReader (dictWriter fieldnames rows) = rows.map fun row => .ok fun key =>
      if key ∈ fieldnames then some (some (row key)) else none := by
  have rowsFit : ∀ fields ∈ fieldnames :: rows.map fieldnames.map, Fits fields := by
    intro fields member
    rcases List.mem_cons.mp member with rfl | member
    · exact names
    · obtain ⟨row, inside, rfl⟩ := List.mem_map.mp member
      exact fits row inside
  unfold dictReader dictWriter
  rw [reader_writeRow rowsFit, List.map_cons]
  dsimp only
  obtain ⟨name, others, rfl⟩ := List.exists_cons_of_ne_nil nonempty
  clear fits rowsFit
  induction rows with
  | nil => rfl
  | cons row rows ih =>
    rw [List.map_cons (l := rows) (f := fun row => Except.ok fun key =>
      if key ∈ name :: others then some (some (row key)) else none), ← ih]
    have cells := funext fun key => lookup_map (name :: others) row key
    rw [← cells]
    rfl

end Csv
