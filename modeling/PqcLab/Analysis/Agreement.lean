import PqcLab.Analysis.Counters
import PqcLab.Analysis.Failures

/-! Where the three summarisers agree on a run directory. -/

namespace PqcLab

open Binary64

def taskClockLine (file : Option Text) : Option (List Text) :=
  (Text.lines (file.getD [])).findSome? fun line =>
    let parts := (Text.strip line).splitOn ','
    if "task-clock".toList <:+: line ∧ parts.length ≥ 3 ∧ parts.getD 2 [] = "task-clock".toList then some parts
    else none

def floatOrText (parts : List Text) : PerfValue :=
  match Decimal.pyFloat (part parts 0) with
  | some value => .float value
  | none => .text (part parts 0)

theorem parsePerfTaskClock_eq (file : Option Text) :
    SummarizeCampaignBCore.parsePerfTaskClock file = (taskClockLine file).elim .none floatOrText := by
  cases file with
  | none => rfl
  | some text =>
    have mapped : SummarizeCampaignBCore.parsePerfTaskClock (some text) =
        ((taskClockLine (some text)).map floatOrText).getD .none := by
      unfold taskClockLine SummarizeCampaignBCore.parsePerfTaskClock
      rw [List.map_findSome?]
      dsimp only [Option.getD_some]
      congr 2
      funext line
      dsimp only [Function.comp]
      split_ifs
      · rw [Option.map_some]
        unfold floatOrText
        cases Decimal.pyFloat (part ((Text.strip line).splitOn ',') 0) with
        | none => rfl
        | some value => rfl
      · rfl
    rw [mapped]
    cases taskClockLine (some text) with
    | none => rfl
    | some parts => rfl

def PerfValue.exact : PerfValue → PerfValue
  | .int n => .float (.finite n)
  | value => value

/-- Python's `==`, but that a `nan` equals itself. -/
def SameNumber (a b : PerfValue) : Prop := a.exact = b.exact

def numeral (raw : Text) : Option Double :=
  if '.' ∈ raw ∨ 'e' ∈ raw ∨ 'E' ∈ raw then Decimal.pyFloat raw else (Digits.pyInt raw).map fun n => .finite n

def SummarizeList.Blank (raw : Text) : Prop :=
  raw = [] ∨ raw = "<not supported>".toList ∨ raw = "<not counted>".toList

def SummarizeListPerf.Blank (raw : Text) : Prop := raw = [] ∨ raw = "<not supported>".toList

instance (raw : Text) : Decidable (SummarizeList.Blank raw) := inferInstanceAs (Decidable (_ ∨ _))

instance (raw : Text) : Decidable (SummarizeListPerf.Blank raw) := inferInstanceAs (Decidable (_ ∨ _))

/-- Two fields, one for each reader: both without a value, two numerals of one number, or one text for both. -/
def SameField (raw other : Text) : Prop :=
  SummarizeList.Blank raw ∧ SummarizeListPerf.Blank other ∨
    (∃ x, numeral raw = some x ∧ numeral other = some x) ∨ raw = other ∧ raw ≠ "<not counted>".toList

theorem SummarizeListPerf.Blank.first {raw : Text} (blank : SummarizeListPerf.Blank raw) : SummarizeList.Blank raw := by
  rcases blank with empty | unsupported
  · exact .inl empty
  · exact .inr (.inl unsupported)

theorem SummarizeList.Blank.numeral {raw : Text} (blank : SummarizeList.Blank raw) : numeral raw = none := by
  rcases blank with rfl | rfl | rfl <;> decide +kernel

theorem parseNumberWith_exact (absent : List Text) {raw : Text} (trimmed : Text.strip raw = raw) :
    (parseNumberWith absent raw).exact =
      if raw = [] ∨ raw ∈ absent then .none else (numeral raw).elim (.text raw) .float := by
  rw [parseNumberWith, trimmed, numeral]
  split_ifs with blank floating
  · rfl
  · cases Decimal.pyFloat raw with
    | none => rfl
    | some x => rfl
  · cases Digits.pyInt raw with
    | none => rfl
    | some n => rfl

section Fields

variable {raw other : Text} (trimmed : Text.strip raw = raw) (trimmedOther : Text.strip other = other)

include trimmed in
theorem SummarizeList.parseNumber_exact : (SummarizeList.parseNumber raw).exact =
    if SummarizeList.Blank raw then .none else (numeral raw).elim (.text raw) .float := by
  rw [SummarizeList.parseNumber, parseNumberWith_exact _ trimmed]
  exact if_congr (by simp [SummarizeList.Blank]) rfl rfl

include trimmedOther in
theorem SummarizeListPerf.parseNumber_exact : (SummarizeListPerf.parseNumber other).exact =
    if SummarizeListPerf.Blank other then .none else (numeral other).elim (.text other) .float := by
  rw [SummarizeListPerf.parseNumber, parseNumberWith_exact _ trimmedOther]
  exact if_congr (by simp [SummarizeListPerf.Blank]) rfl rfl

theorem elim_eq_none {value : Option Double} {text : Text} : value.elim (.text text) .float ≠ PerfValue.none := by
  cases value with
  | none => exact nofun
  | some x => exact nofun

theorem elim_eq_elim {value valueOther : Option Double} {text textOther : Text} :
    value.elim (.text text) .float = valueOther.elim (PerfValue.text textOther) .float ↔
      (∃ x, value = some x ∧ valueOther = some x) ∨ value = none ∧ valueOther = none ∧ text = textOther := by
  cases value with
  | none => cases valueOther <;> simp
  | some x => cases valueOther <;> simp [eq_comm]

theorem exact_eq_none {value : PerfValue} : value.exact = .none ↔ value = .none := by
  cases value <;> simp [PerfValue.exact]

include trimmed in
theorem SummarizeList.parseNumber_none : SummarizeList.parseNumber raw = .none ↔ SummarizeList.Blank raw := by
  rw [← exact_eq_none, SummarizeList.parseNumber_exact trimmed]
  split_ifs with blank
  · exact ⟨fun _ => blank, fun _ => rfl⟩
  · exact ⟨fun none => absurd none elim_eq_none, fun is => absurd is blank⟩

include trimmedOther in
theorem SummarizeListPerf.parseNumber_none :
    SummarizeListPerf.parseNumber other = .none ↔ SummarizeListPerf.Blank other := by
  rw [← exact_eq_none, SummarizeListPerf.parseNumber_exact trimmedOther]
  split_ifs with blank
  · exact ⟨fun _ => blank, fun _ => rfl⟩
  · exact ⟨fun none => absurd none elim_eq_none, fun is => absurd is blank⟩

include trimmed trimmedOther in
theorem sameField_iff :
    SameNumber (SummarizeList.parseNumber raw) (SummarizeListPerf.parseNumber other) ↔ SameField raw other := by
  rw [SameNumber, SummarizeList.parseNumber_exact trimmed, SummarizeListPerf.parseNumber_exact trimmedOther]
  by_cases blank : SummarizeList.Blank raw
  · have noNumber := blank.numeral
    by_cases blankOther : SummarizeListPerf.Blank other
    · simp [SameField, blank, blankOther]
    · rw [if_pos blank, if_neg blankOther]
      refine ⟨fun none => absurd none.symm elim_eq_none, ?_⟩
      rintro (⟨-, also⟩ | ⟨x, number, -⟩ | ⟨rfl, counted⟩)
      · exact absurd also blankOther
      · rw [noNumber] at number
        cases number
      · rcases blank with empty | unsupported | uncounted
        · exact absurd (.inl empty) blankOther
        · exact absurd (.inr unsupported) blankOther
        · exact absurd uncounted counted
  · rw [if_neg blank]
    by_cases blankOther : SummarizeListPerf.Blank other
    · rw [if_pos blankOther]
      refine ⟨fun none => absurd none elim_eq_none, ?_⟩
      rintro (⟨also, -⟩ | ⟨x, -, number⟩ | ⟨rfl, -⟩)
      · exact absurd also blank
      · rw [blankOther.first.numeral] at number
        cases number
      · exact absurd blankOther.first blank
    · rw [if_neg blankOther, elim_eq_elim]
      have counted : raw ≠ "<not counted>".toList := fun same => blank (.inr (.inr same))
      constructor
      · rintro (number | ⟨-, -, same⟩)
        · exact .inr (.inl number)
        · exact .inr (.inr ⟨same, counted⟩)
      · rintro (⟨also, -⟩ | number | ⟨rfl, -⟩)
        · exact absurd also blank
        · exact .inl number
        · cases numeral raw with
          | none => exact .inr ⟨rfl, rfl, rfl⟩
          | some x => exact .inl ⟨x, rfl, rfl⟩

/-- The clock for the first reader, and the line in which the third one finds it. -/
def SameClock (raw : Text) : Option (List Text) → Prop
  | none => SummarizeList.Blank raw
  | some parts => (∃ x, numeral raw = some x ∧ Decimal.pyFloat (part parts 0) = some x) ∨
      raw = part parts 0 ∧ ¬ SummarizeList.Blank raw ∧ numeral raw = none ∧ Decimal.pyFloat raw = none

theorem floatOrText_exact (parts : List Text) :
    (floatOrText parts).exact = (Decimal.pyFloat (part parts 0)).elim (.text (part parts 0)) .float := by
  rw [floatOrText]
  cases Decimal.pyFloat (part parts 0) with
  | none => rfl
  | some x => rfl

include trimmed in
theorem sameClock_iff (line : Option (List Text)) :
    SameNumber (SummarizeList.parseNumber raw) (line.elim .none floatOrText) ↔ SameClock raw line := by
  cases line with
  | none =>
    change (SummarizeList.parseNumber raw).exact = .none ↔ _
    rw [exact_eq_none, SummarizeList.parseNumber_none trimmed]
    rfl
  | some parts =>
    change (SummarizeList.parseNumber raw).exact = (floatOrText parts).exact ↔ _
    rw [SummarizeList.parseNumber_exact trimmed, floatOrText_exact, SameClock]
    by_cases blank : SummarizeList.Blank raw
    · rw [if_pos blank, blank.numeral]
      refine ⟨fun none => absurd none.symm elim_eq_none, ?_⟩
      rintro (⟨x, none, -⟩ | ⟨-, visible, -⟩)
      · cases none
      · exact absurd blank visible
    · rw [if_neg blank, elim_eq_elim]
      constructor
      · rintro (number | ⟨unread, unreadOther, same⟩)
        · exact .inl number
        · exact .inr ⟨same, blank, unread, same.symm ▸ unreadOther⟩
      · rintro (number | ⟨same, -, unread, unreadOther⟩)
        · exact .inl number
        · exact .inr ⟨unread, same ▸ unreadOther, same⟩

/-- A rate that both readers find printed, or that one or both of them compute from the counts. -/
structure SameRate (raw other : Text) (computed computedOther : Except PyError PerfValue) : Prop where
  printed : ¬ SummarizeList.Blank raw → ¬ SummarizeListPerf.Blank other → SameField raw other
  first : SummarizeList.Blank raw → ¬ SummarizeListPerf.Blank other →
    ∃ q, computed = .ok q ∧ SameNumber q (SummarizeListPerf.parseNumber other)
  second : ¬ SummarizeList.Blank raw → SummarizeListPerf.Blank other →
    ∃ q, computedOther = .ok q ∧ SameNumber (SummarizeList.parseNumber raw) q
  neither : SummarizeList.Blank raw → SummarizeListPerf.Blank other →
    ∃ q q', computed = .ok q ∧ computedOther = .ok q' ∧ SameNumber q q'

include trimmed trimmedOther in
theorem sameRate_iff {computed computedOther : Except PyError PerfValue} {r : PerfValue}
    (read : (if SummarizeList.parseNumber raw = .none then computed else .ok (SummarizeList.parseNumber raw)) =
      .ok r) :
    (∃ q, (if SummarizeListPerf.parseNumber other = .none then computedOther
        else .ok (SummarizeListPerf.parseNumber other)) = .ok q ∧ SameNumber r q) ↔
      SameRate raw other computed computedOther := by
  have field := sameField_iff trimmed trimmedOther
  simp only [SummarizeList.parseNumber_none trimmed] at read
  simp only [SummarizeListPerf.parseNumber_none trimmedOther]
  by_cases blank : SummarizeList.Blank raw
  · rw [if_pos blank] at read
    subst read
    by_cases blankOther : SummarizeListPerf.Blank other
    · simp only [if_pos blankOther]
      constructor
      · rintro ⟨q, again, same⟩
        exact ⟨fun no => absurd blank no, fun _ no => absurd blankOther no, fun no => absurd blank no,
          fun _ _ => ⟨r, q, rfl, again, same⟩⟩
      · intro rate
        obtain ⟨_, q, first, again, same⟩ := rate.neither blank blankOther
        cases first
        exact ⟨q, again, same⟩
    · simp only [if_neg blankOther, Except.ok.injEq, exists_eq_left']
      constructor
      · intro same
        exact ⟨fun no => absurd blank no, fun _ _ => ⟨r, rfl, same⟩, fun no => absurd blank no,
          fun _ is => absurd is blankOther⟩
      · intro rate
        obtain ⟨_, first, same⟩ := rate.first blank blankOther
        cases first
        exact same
  · rw [if_neg blank] at read
    cases read
    by_cases blankOther : SummarizeListPerf.Blank other
    · simp only [if_pos blankOther]
      constructor
      · intro found
        exact ⟨fun _ no => absurd blankOther no, fun is => absurd is blank, fun _ _ => found,
          fun is => absurd is blank⟩
      · exact fun rate => rate.second blank blankOther
    · simp only [if_neg blankOther, Except.ok.injEq, exists_eq_left', field]
      constructor
      · intro same
        exact ⟨fun _ _ => same, fun is => absurd is blank, fun _ is => absurd is blankOther,
          fun is => absurd is blank⟩
      · exact fun rate => rate.printed blank blankOther

end Fields

/-- A field of a line, empty where there is no such line. -/
def lineField (normalize : Text → Text) (event : PerfEvent) (i : ℕ) (file : Option Text) : Text :=
  part ((eventLine normalize event file).getD []) i

namespace SummarizeList

def field : PerfEvent → ℕ → Option Text → Text := lineField normalizePerfEvent

def quotient (a b : PerfEvent) (file : Option Text) : Except PyError PerfValue :=
  safeDiv (parseNumber (field a 0 file)) (parseNumber (field b 0 file))

end SummarizeList

namespace SummarizeListPerf

def field : PerfEvent → ℕ → Option Text → Text := lineField id

def quotient (a b : PerfEvent) (file : Option Text) : Except PyError PerfValue :=
  safeDiv (parseNumber (field a 0 file)) (parseNumber (field b 0 file))

end SummarizeListPerf

theorem strip_part (parts : List Text) (i : ℕ) : Text.strip (part parts i) = part parts i :=
  Text.strip_of_trimmed (Text.strip_trimmed _)

theorem parseNumberWith_nil (absent : List Text) : parseNumberWith absent [] = .none := by
  rw [parseNumberWith]
  exact if_pos (.inl rfl)

theorem eventEntry_fields {parse : Text → PerfValue} (empty : parse [] = .none) (normalize : Text → Text)
    (event : PerfEvent) (file : Option Text) :
    (eventEntry parse (eventLine normalize event file)).value = parse (lineField normalize event 0 file) ∧
      (eventEntry parse (eventLine normalize event file)).metric = parse (lineField normalize event 5 file) ∧
      (eventEntry parse (eventLine normalize event file)).unit = textOrNone (lineField normalize event 1 file) := by
  unfold lineField
  cases eventLine normalize event file with
  | none =>
    have missing (i : ℕ) : part (Option.getD none []) i = [] := rfl
    rw [missing, missing, missing, empty]
    exact ⟨rfl, rfl, rfl⟩
  | some parts => exact ⟨rfl, rfl, rfl⟩

theorem textOrNone_inj {raw other : Text} : textOrNone raw = textOrNone other ↔ raw = other := by
  unfold textOrNone
  by_cases empty : raw = []
  · by_cases emptyOther : other = []
    · simp [empty, emptyOther]
    · simp [empty, emptyOther, Ne.symm emptyOther]
  · by_cases emptyOther : other = []
    · simp [empty, emptyOther]
    · simp [empty, emptyOther]

/-- The fields that two readers take from a file hold the same: the first one from the last line of each
event up to a colon, the second one from the last line with just the name of the event. -/
structure SameLines (file : Option Text) : Prop where
  counts : ∀ event, SameField (SummarizeList.field event 0 file) (SummarizeListPerf.field event 0 file)
  unit : SummarizeList.field .taskClock 1 file = SummarizeListPerf.field .taskClock 1 file
  printed : ∀ event ∈ [PerfEvent.taskClock, .cycles, .branches, .cacheReferences],
    SameField (SummarizeList.field event 5 file) (SummarizeListPerf.field event 5 file)
  ipc : SameRate (SummarizeList.field .instructions 5 file) (SummarizeListPerf.field .instructions 5 file)
    (SummarizeList.quotient .instructions .cycles file) (SummarizeListPerf.quotient .instructions .cycles file)
  branchMiss : SameRate (SummarizeList.field .branchMisses 5 file) (SummarizeListPerf.field .branchMisses 5 file)
    ((SummarizeList.quotient .branchMisses .branches file).map percent)
    ((SummarizeListPerf.quotient .branchMisses .branches file).map percent)
  cacheMiss : SameRate (SummarizeList.field .cacheMisses 5 file) (SummarizeListPerf.field .cacheMisses 5 file)
    ((SummarizeList.quotient .cacheMisses .cacheReferences file).map percent)
    ((SummarizeListPerf.quotient .cacheMisses .cacheReferences file).map percent)

def SameMetrics (m other : PerfMetrics) : Prop :=
  List.Forall₂ SameNumber m.values other.values ∧ m.taskClockUnit = other.taskClockUnit

theorem rate_eq (metric a b : PerfValue) :
    rate metric a b = if metric = .none then safeDiv a b else .ok metric := rfl

theorem ratePct_eq (metric a b : PerfValue) :
    ratePct metric a b = if metric = .none then (safeDiv a b).map percent else .ok metric := rfl

section Readers

variable (file : Option Text)

theorem SummarizeList.parsePerfCsv_eq (event : PerfEvent) :
    (SummarizeList.parsePerfCsv file event).value = SummarizeList.parseNumber (SummarizeList.field event 0 file) ∧
      (SummarizeList.parsePerfCsv file event).metric =
        SummarizeList.parseNumber (SummarizeList.field event 5 file) ∧
      (SummarizeList.parsePerfCsv file event).unit = textOrNone (SummarizeList.field event 1 file) := by
  rw [SummarizeList.parsePerfCsv, parsePerfCsvWith_eq]
  exact eventEntry_fields (parseNumberWith_nil _) _ event file

theorem SummarizeListPerf.parsePerfCsv_eq (event : PerfEvent) :
    (SummarizeListPerf.parsePerfCsv file event).value =
        SummarizeListPerf.parseNumber (SummarizeListPerf.field event 0 file) ∧
      (SummarizeListPerf.parsePerfCsv file event).metric =
        SummarizeListPerf.parseNumber (SummarizeListPerf.field event 5 file) ∧
      (SummarizeListPerf.parsePerfCsv file event).unit = textOrNone (SummarizeListPerf.field event 1 file) := by
  rw [SummarizeListPerf.parsePerfCsv, parsePerfCsvWith_eq]
  exact eventEntry_fields (parseNumberWith_nil _) _ event file

variable {file} {event base : PerfEvent}

theorem sameCount_iff :
    SameNumber (SummarizeList.parsePerfCsv file event).value (SummarizeListPerf.parsePerfCsv file event).value ↔
      SameField (SummarizeList.field event 0 file) (SummarizeListPerf.field event 0 file) := by
  rw [(SummarizeList.parsePerfCsv_eq file event).1, (SummarizeListPerf.parsePerfCsv_eq file event).1]
  exact sameField_iff (strip_part _ _) (strip_part _ _)

theorem samePrinted_iff :
    SameNumber (SummarizeList.parsePerfCsv file event).metric (SummarizeListPerf.parsePerfCsv file event).metric ↔
      SameField (SummarizeList.field event 5 file) (SummarizeListPerf.field event 5 file) := by
  rw [(SummarizeList.parsePerfCsv_eq file event).2.1, (SummarizeListPerf.parsePerfCsv_eq file event).2.1]
  exact sameField_iff (strip_part _ _) (strip_part _ _)

theorem sameIpc_iff {r : PerfValue}
    (read : rate (SummarizeList.parsePerfCsv file event).metric (SummarizeList.parsePerfCsv file event).value
      (SummarizeList.parsePerfCsv file base).value = .ok r) :
    (∃ q, rate (SummarizeListPerf.parsePerfCsv file event).metric (SummarizeListPerf.parsePerfCsv file event).value
      (SummarizeListPerf.parsePerfCsv file base).value = .ok q ∧ SameNumber r q) ↔
      SameRate (SummarizeList.field event 5 file) (SummarizeListPerf.field event 5 file)
        (SummarizeList.quotient event base file) (SummarizeListPerf.quotient event base file) := by
  rw [rate_eq, (SummarizeList.parsePerfCsv_eq file event).1, (SummarizeList.parsePerfCsv_eq file event).2.1,
    (SummarizeList.parsePerfCsv_eq file base).1] at read
  simp only [rate_eq, SummarizeListPerf.parsePerfCsv_eq file]
  exact sameRate_iff (strip_part _ _) (strip_part _ _) read

theorem sameMiss_iff {r : PerfValue}
    (read : ratePct (SummarizeList.parsePerfCsv file event).metric (SummarizeList.parsePerfCsv file event).value
      (SummarizeList.parsePerfCsv file base).value = .ok r) :
    (∃ q, ratePct (SummarizeListPerf.parsePerfCsv file event).metric
      (SummarizeListPerf.parsePerfCsv file event).value (SummarizeListPerf.parsePerfCsv file base).value = .ok q ∧
        SameNumber r q) ↔
      SameRate (SummarizeList.field event 5 file) (SummarizeListPerf.field event 5 file)
        ((SummarizeList.quotient event base file).map percent)
        ((SummarizeListPerf.quotient event base file).map percent) := by
  rw [ratePct_eq, (SummarizeList.parsePerfCsv_eq file event).1, (SummarizeList.parsePerfCsv_eq file event).2.1,
    (SummarizeList.parsePerfCsv_eq file base).1] at read
  simp only [ratePct_eq, SummarizeListPerf.parsePerfCsv_eq file]
  exact sameRate_iff (strip_part _ _) (strip_part _ _) read

theorem sameMetrics_iff {metrics : PerfMetrics}
    (computed : perfMetrics (SummarizeList.parsePerfCsv file) = .ok metrics) :
    (∃ other, perfMetrics (SummarizeListPerf.parsePerfCsv file) = .ok other ∧ SameMetrics metrics other) ↔
      SameLines file := by
  obtain ⟨ipc, ipcRead, computed⟩ := Except.of_bind_ok computed
  obtain ⟨branch, branchRead, computed⟩ := Except.of_bind_ok computed
  obtain ⟨cache, cacheRead, computed⟩ := Except.of_bind_ok computed
  injection computed with same
  subst same
  have unit :
      (SummarizeList.parsePerfCsv file .taskClock).unit = (SummarizeListPerf.parsePerfCsv file .taskClock).unit ↔
      SummarizeList.field .taskClock 1 file = SummarizeListPerf.field .taskClock 1 file := by
    rw [(SummarizeList.parsePerfCsv_eq file _).2.2, (SummarizeListPerf.parsePerfCsv_eq file _).2.2, textOrNone_inj]
  constructor
  · rintro ⟨other, again, values, units⟩
    obtain ⟨ipc', ipcAgain, again⟩ := Except.of_bind_ok again
    obtain ⟨branch', branchAgain, again⟩ := Except.of_bind_ok again
    obtain ⟨cache', cacheAgain, again⟩ := Except.of_bind_ok again
    injection again with same
    subst same
    simp only [PerfMetrics.values, List.forall₂_cons, List.forall₂_nil_left_iff, and_true, sameCount_iff,
      samePrinted_iff] at values
    obtain ⟨clock, cpu, cycles, ghz, instructions, sameIpc, branches, branchesRate, misses, sameBranch, references,
      refsRate, cacheMisses, sameCache⟩ := values
    refine ⟨?_, unit.mp units, ?_, (sameIpc_iff ipcRead).mp ⟨_, ipcAgain, sameIpc⟩,
      (sameMiss_iff branchRead).mp ⟨_, branchAgain, sameBranch⟩,
      (sameMiss_iff cacheRead).mp ⟨_, cacheAgain, sameCache⟩⟩
    · intro event
      cases event with
      | taskClock => exact clock
      | cycles => exact cycles
      | instructions => exact instructions
      | branches => exact branches
      | branchMisses => exact misses
      | cacheReferences => exact references
      | cacheMisses => exact cacheMisses
    · simpa using ⟨cpu, ghz, branchesRate, refsRate⟩
  · intro lines
    obtain ⟨ipc', ipcAgain, sameIpc⟩ := (sameIpc_iff ipcRead).mpr lines.ipc
    obtain ⟨branch', branchAgain, sameBranch⟩ := (sameMiss_iff branchRead).mpr lines.branchMiss
    obtain ⟨cache', cacheAgain, sameCache⟩ := (sameMiss_iff cacheRead).mpr lines.cacheMiss
    unfold perfMetrics
    rw [ipcAgain, branchAgain, cacheAgain]
    refine ⟨_, rfl, ?_, unit.mpr lines.unit⟩
    obtain ⟨cpu, ghz, branchesRate, refsRate⟩ : _ ∧ _ ∧ _ ∧ _ := by simpa using lines.printed
    simp only [PerfMetrics.values, List.forall₂_cons, List.forall₂_nil_left_iff, and_true, sameCount_iff,
      samePrinted_iff]
    exact ⟨lines.counts _, cpu, lines.counts _, ghz, lines.counts _, sameIpc, lines.counts _, branchesRate,
      lines.counts _, sameBranch, lines.counts _, refsRate, lines.counts _, sameCache⟩

end Readers

structure SummariesAgree (list : SummarizeList.Summary) (perf : SummarizeListPerf.Summary)
    (core : SummarizeCampaignBCore.Summary) : Prop where
  scenarioId : perf.scenarioId = list.scenarioId ∧ core.scenarioId = list.scenarioId
  campaign : perf.campaign = list.campaign
  status : perf.status = list.status
  figures : perf.figures = list.figures ∧ core.figures = list.figures
  chain : perf.chain = list.chain
  served : core.servedChainDerBytes = list.chain.servedChainDerBytes
  rootAlg : core.rootAlg = list.chain.rootAlg
  intermediateAlg : core.intermediateAlg = list.chain.intermediateAlg
  leafAlg : core.leafAlg = list.chain.leafAlg
  perfClient : SameMetrics list.perfClient perf.perf
  taskClock : SameNumber list.perfClient.taskClockRaw core.perfTaskClockRaw
  runDir : perf.runDir = list.runDir ∧ core.runDir = list.runDir
  pcapFile : perf.pcapFile = list.pcapFile ∧ core.pcapFile = list.pcapFile

def HasIntermediate (files : ScenarioFiles) : Prop :=
  ∃ doc chain intermediate, loadMeta files = .ok doc ∧ doc.getItem "chain".toList = .ok chain ∧
    chain.getItem "intermediate".toList = .ok intermediate ∧ intermediate.isNull = false

structure LinesAgree (file : Option Text) : Prop where
  lines : SameLines file
  clock : SameClock (SummarizeList.field .taskClock 0 file) (taskClockLine file)

section Directory

variable {files : ScenarioFiles} {runDir : RunPath} {scenarioId : Text} {summary : SummarizeList.Summary}

open SummarizeList in
theorem listPerf_ok {rows : List (BenchRow Double)} {doc chain : Json}
    (made : MadeOf files runDir scenarioId summary rows doc chain) {other : SummarizeListPerf.Summary} :
    SummarizeListPerf.summarizeRunDir files runDir scenarioId = .ok other ↔
      perfMetrics (SummarizeListPerf.parsePerfCsv files.perfClientCsv) = .ok other.perf ∧
        other = ⟨scenarioId, summary.campaign, summary.status, summary.figures, summary.chain, other.perf,
          runDir, summary.pcapFile⟩ := by
  unfold SummarizeListPerf.summarizeRunDir
  rw [made.read, made.loaded]
  simp only [bind, Except.bind, requireRows_ok.mpr made.nonempty, made.chainDoc, made.campaign, made.status,
    made.figures, made.chain, made.pcapFile]
  cases perfMetrics (SummarizeListPerf.parsePerfCsv files.perfClientCsv) with
  | error e => simp
  | ok perf =>
    simp only [pure, Except.pure, Except.ok.injEq]
    constructor
    · rintro rfl
      exact ⟨rfl, rfl⟩
    · rintro ⟨rfl, same⟩
      exact same.symm

theorem core_ok {rows : List (BenchRow Double)} {doc chain : Json}
    (made : SummarizeList.MadeOf files runDir scenarioId summary rows doc chain)
    {other : SummarizeCampaignBCore.Summary} :
    SummarizeCampaignBCore.summarizeRunDir files runDir scenarioId = .ok other ↔
      (∃ intermediate, chain.getItem "intermediate".toList = .ok intermediate ∧ intermediate.isNull = false) ∧
        other = ⟨scenarioId, runDir, summary.figures, summary.chain.servedChainDerBytes, summary.chain.rootAlg,
          summary.chain.intermediateAlg, summary.chain.leafAlg,
          SummarizeCampaignBCore.parsePerfTaskClock files.perfClientCsv, summary.pcapFile⟩ := by
  obtain ⟨served, rootAlg, -, intermediateAlg, -, leafAlg, -⟩ := chainFields_ok made.chain
  obtain ⟨intermediate, present, read⟩ := Except.of_bind_ok intermediateAlg
  have item : chain.blockItem "intermediate".toList "algorithm".toList =
      intermediate.getItem "algorithm".toList := by
    unfold Json.blockItem
    rw [present]
    rfl
  unfold SummarizeCampaignBCore.summarizeRunDir
  rw [made.read, made.loaded]
  simp only [bind, Except.bind, requireRows_ok.mpr made.nonempty, made.chainDoc, made.figures, served, rootAlg,
    item, leafAlg, made.pcapFile]
  cases null : intermediate.isNull with
  | true =>
    have refused : intermediate.getItem "algorithm".toList = .error .typeError := by
      cases intermediate <;> first | rfl | cases null
    simp only [refused, reduceCtorEq, present, Except.ok.injEq, exists_eq_left', null, Bool.true_eq_false,
      false_and]
  | false =>
    rw [null] at read
    have alg : intermediate.getItem "algorithm".toList = .ok summary.chain.intermediateAlg := read
    simp only [alg, present, Except.ok.injEq, exists_eq_left', null, true_and, pure, Except.pure]
    exact eq_comm

/-- Where the first summariser returns a summary, the others return the same quantities exactly when the chain
has an intermediate and the lines they use of the counters hold the same. -/
theorem summaries_agree_iff
    (returned : SummarizeList.summarizeRunDir files runDir scenarioId = .ok summary) :
    (∃ perf core, SummarizeListPerf.summarizeRunDir files runDir scenarioId = .ok perf ∧
        SummarizeCampaignBCore.summarizeRunDir files runDir scenarioId = .ok core ∧
        SummariesAgree summary perf core) ↔
      HasIntermediate files ∧ LinesAgree files.perfClientCsv := by
  obtain ⟨rows, doc, chain, made⟩ := SummarizeList.summarizeRunDir_ok.mp returned
  have counters := made.perfClient
  have raw : summary.perfClient.taskClockRaw =
      SummarizeList.parseNumber (SummarizeList.field .taskClock 0 files.perfClientCsv) := by
    obtain ⟨_, -, computed⟩ := Except.of_bind_ok counters
    obtain ⟨_, -, computed⟩ := Except.of_bind_ok computed
    obtain ⟨_, -, computed⟩ := Except.of_bind_ok computed
    injection computed with same
    rw [← same]
    exact (SummarizeList.parsePerfCsv_eq _ _).1
  have clock : SameNumber summary.perfClient.taskClockRaw
      (SummarizeCampaignBCore.parsePerfTaskClock files.perfClientCsv) ↔
        SameClock (SummarizeList.field .taskClock 0 files.perfClientCsv) (taskClockLine files.perfClientCsv) := by
    rw [raw, parsePerfTaskClock_eq]
    exact sameClock_iff (strip_part _ _) _
  constructor
  · rintro ⟨perf, core, perfReturned, coreReturned, agree⟩
    obtain ⟨perfRead, -⟩ := (listPerf_ok made).mp perfReturned
    obtain ⟨⟨intermediate, present, some⟩, shape⟩ := (core_ok made).mp coreReturned
    refine ⟨⟨doc, chain, intermediate, made.loaded, made.chainDoc, present, some⟩,
      (sameMetrics_iff counters).mp ⟨_, perfRead, agree.perfClient⟩, clock.mp ?_⟩
    have same := agree.taskClock
    rw [shape] at same
    exact same
  · rintro ⟨⟨doc', chain', intermediate, loaded, chainDoc, present, some⟩, agree⟩
    obtain rfl : doc = doc' := Except.ok.inj (made.loaded.symm.trans loaded)
    obtain rfl : chain = chain' := Except.ok.inj (made.chainDoc.symm.trans chainDoc)
    obtain ⟨metrics, perfRead, sameMetrics⟩ := (sameMetrics_iff counters).mpr agree.lines
    exact ⟨⟨scenarioId, summary.campaign, summary.status, summary.figures, summary.chain, metrics, runDir,
      summary.pcapFile⟩, _, (listPerf_ok made).mpr ⟨perfRead, rfl⟩,
      (core_ok made).mpr ⟨⟨intermediate, present, some⟩, rfl⟩,
      ⟨⟨made.id.symm, made.id.symm⟩, rfl, rfl, ⟨rfl, rfl⟩, rfl, rfl, rfl, rfl, rfl, sameMetrics,
        clock.mpr agree.clock, ⟨made.dir.symm, made.dir.symm⟩, ⟨rfl, rfl⟩⟩⟩

end Directory

def clocked (perfLine : String) : ScenarioFiles :=
  { noneFailed with
    metaJson := some (.document (completedMeta (certificate 5551) 11130))
    perfClientCsv := some perfLine.toList }

def clockLines : String := "12.50,msec,task-clock,12500000,100.00,0.652,CPUs utilized\n5,,cycles\n5.0,,cycles:u\n"

/-- What `perf` prints when it may count in user mode only. -/
def userClockLine : String := "12.50,msec,task-clock:u,12500000,100.00,0.652,CPUs utilized\n"

theorem clockLines_unread {event : PerfEvent} (other : event ∉ [PerfEvent.taskClock, .cycles]) (i : ℕ) :
    SummarizeList.field event i (some clockLines.toList) = [] ∧
      SummarizeListPerf.field event i (some clockLines.toList) = [] := by
  have missing : eventLine SummarizeList.normalizePerfEvent event (some clockLines.toList) = none ∧
      eventLine id event (some clockLines.toList) = none := by
    revert other
    cases event <;> decide +kernel
  unfold SummarizeList.field SummarizeListPerf.field lineField
  rw [missing.1, missing.2]
  exact ⟨rfl, rfl⟩

theorem sameRate_unread (event base : PerfEvent) (other : event ∉ [PerfEvent.taskClock, .cycles])
    (f : PerfValue → PerfValue) (none : f .none = .none) :
    SameRate (SummarizeList.field event 5 (some clockLines.toList))
      (SummarizeListPerf.field event 5 (some clockLines.toList))
      ((SummarizeList.quotient event base (some clockLines.toList)).map f)
      ((SummarizeListPerf.quotient event base (some clockLines.toList)).map f) := by
  unfold SummarizeList.quotient SummarizeListPerf.quotient
  rw [(clockLines_unread other 5).1, (clockLines_unread other 5).2, (clockLines_unread other 0).1,
    (clockLines_unread other 0).2]
  refine ⟨fun no => absurd (.inl rfl) no, fun _ no => absurd (.inl rfl) no, fun no => absurd (.inl rfl) no,
    fun _ _ => ⟨.none, .none, ?_, ?_, rfl⟩⟩
  · exact congrArg Except.ok none
  · exact congrArg Except.ok none

/-- The cycles are 5.0 for the first reader and 5 for the second one. -/
theorem clockLines_agree : LinesAgree (some clockLines.toList) where
  lines :=
    { counts := fun event => by
        by_cases other : event ∈ [PerfEvent.taskClock, .cycles]
        · rcases List.mem_pair.mp other with rfl | rfl
          · exact .inr (.inl ⟨.finite (25 / 2), by decide +kernel, by decide +kernel⟩)
          · exact .inr (.inl ⟨.finite 5, by decide +kernel, by decide +kernel⟩)
        · rw [(clockLines_unread other 0).1, (clockLines_unread other 0).2]
          exact .inl ⟨.inl rfl, .inl rfl⟩
      unit := by decide +kernel
      printed := by
        intro event listed
        by_cases other : event ∈ [PerfEvent.taskClock, .cycles]
        · rcases List.mem_pair.mp other with rfl | rfl
          · exact .inr (.inl ⟨.ofRat (652 / 1000), by decide +kernel, by decide +kernel⟩)
          · exact .inl ⟨.inl (by decide +kernel), .inl (by decide +kernel)⟩
        · rw [(clockLines_unread other 5).1, (clockLines_unread other 5).2]
          exact .inl ⟨.inl rfl, .inl rfl⟩
      ipc := by
        have ipc := sameRate_unread .instructions .cycles (by decide) id rfl
        rwa [Except.map_id, id, id] at ipc
      branchMiss := sameRate_unread .branchMisses .branches (by decide) percent rfl
      cacheMiss := sameRate_unread .cacheMisses .cacheReferences (by decide) percent rfl }
  clock := .inl ⟨.finite (25 / 2), by decide +kernel, by decide +kernel⟩

theorem summaries_agree_clocked :
    ∃ list perf core, SummarizeList.summarizeRunDir (clocked clockLines) quickDir "quick".toList = .ok list ∧
      SummarizeListPerf.summarizeRunDir (clocked clockLines) quickDir "quick".toList = .ok perf ∧
      SummarizeCampaignBCore.summarizeRunDir (clocked clockLines) quickDir "quick".toList = .ok core ∧
      SummariesAgree list perf core := by
  obtain ⟨list, returned, -⟩ : ∃ list,
      SummarizeList.summarizeRunDir (clocked clockLines) quickDir "quick".toList = .ok list ∧
        list.perfClient.taskClockRaw = .float (.finite (25 / 2)) :=
    ok_of_toOption (fun (list : SummarizeList.Summary) => list.perfClient.taskClockRaw) (by decide +kernel)
  have intermediate : HasIntermediate (clocked clockLines) :=
    ⟨_, _, certificate 5551, rfl, rfl, rfl, rfl⟩
  obtain ⟨perf, core, perfReturned, coreReturned, agree⟩ :=
    (summaries_agree_iff returned).mpr ⟨intermediate, clockLines_agree⟩
  exact ⟨list, perf, core, returned, perfReturned, coreReturned, agree⟩

/-- The first summariser reads the clock, the second one finds none. -/
theorem user_clock_read_once :
    ∃ list perf, SummarizeList.summarizeRunDir (clocked userClockLine) quickDir "quick".toList = .ok list ∧
      SummarizeListPerf.summarizeRunDir (clocked userClockLine) quickDir "quick".toList = .ok perf ∧
      list.perfClient.taskClockRaw = .float (.finite (25 / 2)) ∧ perf.perf.taskClockRaw = .none ∧
      ∀ core, ¬ SummariesAgree list perf core := by
  obtain ⟨list, returned, clock⟩ : ∃ list,
      SummarizeList.summarizeRunDir (clocked userClockLine) quickDir "quick".toList = .ok list ∧
        list.perfClient.taskClockRaw = .float (.finite (25 / 2)) :=
    ok_of_toOption (fun (list : SummarizeList.Summary) => list.perfClient.taskClockRaw) (by decide +kernel)
  obtain ⟨perf, perfReturned, none⟩ : ∃ perf,
      SummarizeListPerf.summarizeRunDir (clocked userClockLine) quickDir "quick".toList = .ok perf ∧
        perf.perf.taskClockRaw = .none :=
    ok_of_toOption (fun (perf : SummarizeListPerf.Summary) => perf.perf.taskClockRaw) (by decide +kernel)
  refine ⟨list, perf, returned, perfReturned, clock, none, fun core agree => ?_⟩
  obtain ⟨same, -⟩ := List.forall₂_cons.mp agree.perfClient.1
  rw [clock, none] at same
  cases same

end PqcLab
