import PqcLab.Analysis.Perf
import PqcLab.Library.Raises
import PqcLab.Library.Search

/-! What the `perf` readers find in a text, and when the rates over it are computed. -/

namespace PqcLab

open Binary64

/-- The fields of the last line that a parser takes for an event. -/
def eventLine (normalize : Text → Text) (event : PerfEvent) (file : Option Text) : Option (List Text) :=
  (((Text.lines (file.getD [])).filterMap perfParts).reverse).find? fun parts =>
    normalize (part parts 2) = event.name

def eventEntry (parse : Text → PerfValue) (line : Option (List Text)) : PerfEntry :=
  line.elim {} (perfEntry parse)

theorem foldl_perfLine (normalize : Text → Text) (parse : Text → PerfValue) (lines : List Text)
    (start : Perf) (event : PerfEvent) :
    lines.foldl (perfLine normalize parse) start event =
      (lines.filterMap perfParts).foldl (fun kept parts =>
        if decide (normalize (part parts 2) = event.name) = true then perfEntry parse parts else kept)
        (start event) := by
  induction lines generalizing start with
  | nil => rfl
  | cons line lines ih =>
    rw [List.foldl_cons, ih]
    unfold perfLine
    cases fields : perfParts line with
    | none => rw [List.filterMap_cons_none fields]
    | some parts =>
      rw [List.filterMap_cons_some fields, List.foldl_cons]
      simp only [decide_eq_true_eq]

theorem parsePerfCsvWith_eq (normalize : Text → Text) (parse : Text → PerfValue) (file : Option Text)
    (event : PerfEvent) :
    parsePerfCsvWith normalize parse file event = eventEntry parse (eventLine normalize event file) := by
  cases file with
  | none => rfl
  | some text =>
    unfold parsePerfCsvWith eventEntry eventLine
    dsimp only
    rw [foldl_perfLine, Search.foldl_last]
    rfl

/-- What `a / b` takes: two numbers, whose quotient, or the integer among them, a double can hold. -/
def Divides : PerfValue → PerfValue → Prop
  | .int a, .int b => (Double.ofRat (a / b)).isFinite = true
  | .int a, .float _ => (Double.ofRat a).isFinite = true
  | .float _, .int b => (Double.ofRat b).isFinite = true
  | .float _, .float _ => True
  | _, _ => False

theorem divide_ok {a b : PerfValue} : (∃ q, divide a b = .ok q) ↔ Divides a b := by
  have refused : (∃ q : PerfValue, (.error .typeError : Except PyError PerfValue) = .ok q) ↔ False := by simp
  cases a with
  | none => exact refused
  | text raw => exact refused
  | int a =>
    cases b with
    | none => exact refused
    | text raw => exact refused
    | int b => exact finite_ok _ fun q => PerfValue.float (.finite q)
    | float b => exact finite_ok _ fun q => PerfValue.float (.div (.finite q) b)
  | float a =>
    cases b with
    | none => exact refused
    | text raw => exact refused
    | int b => exact finite_ok _ fun q => PerfValue.float (.div a (.finite q))
    | float b => exact ⟨fun _ => True.intro, fun _ => ⟨_, rfl⟩⟩

def RateDefined (metric a b : PerfValue) : Prop :=
  metric ≠ .none ∨ a = .none ∨ b = .none ∨ b.isZero = true ∨ Divides a b

theorem safeDiv_ok {a b : PerfValue} :
    (∃ q, safeDiv a b = .ok q) ↔ a = .none ∨ b = .none ∨ b.isZero = true ∨ Divides a b := by
  unfold safeDiv
  split_ifs with absent
  · simp only [Except.ok.injEq, exists_eq', true_iff]
    tauto
  · rw [divide_ok]
    tauto

theorem rate_ok {metric a b : PerfValue} : (∃ q, rate metric a b = .ok q) ↔ RateDefined metric a b := by
  unfold rate RateDefined
  split_ifs with absent
  · simp only [absent, ne_eq, not_true, false_or, safeDiv_ok]
  · simp [absent]

theorem ratePct_ok {metric a b : PerfValue} :
    (∃ q, ratePct metric a b = .ok q) ↔ RateDefined metric a b := by
  rw [← rate_ok]
  unfold rate ratePct
  split_ifs with absent
  · cases safeDiv a b with
    | error e => simp [Except.map]
    | ok q => simp [Except.map]
  · rfl

structure RatesDefined (perf : Perf) : Prop where
  ipc : RateDefined (perf .instructions).metric (perf .instructions).value (perf .cycles).value
  branchMiss : RateDefined (perf .branchMisses).metric (perf .branchMisses).value (perf .branches).value
  cacheMiss : RateDefined (perf .cacheMisses).metric (perf .cacheMisses).value (perf .cacheReferences).value

theorem perfMetrics_ok {perf : Perf} : (∃ metrics, perfMetrics perf = .ok metrics) ↔ RatesDefined perf := by
  constructor
  · rintro ⟨metrics, computed⟩
    obtain ⟨ipc, first, computed⟩ := Except.of_bind_ok computed
    obtain ⟨branch, second, computed⟩ := Except.of_bind_ok computed
    obtain ⟨cache, third, -⟩ := Except.of_bind_ok computed
    exact ⟨rate_ok.mp ⟨ipc, first⟩, ratePct_ok.mp ⟨branch, second⟩, ratePct_ok.mp ⟨cache, third⟩⟩
  · intro defined
    obtain ⟨ipc, first⟩ := rate_ok.mpr defined.ipc
    obtain ⟨branch, second⟩ := ratePct_ok.mpr defined.branchMiss
    obtain ⟨cache, third⟩ := ratePct_ok.mpr defined.cacheMiss
    unfold perfMetrics
    rw [first, second, third]
    exact ⟨_, rfl⟩

def PerfValue.isText : PerfValue → Bool
  | .text _ => true
  | _ => false

def PerfMetrics.values (m : PerfMetrics) : List PerfValue :=
  [m.taskClockRaw, m.cpuUtilized, m.cycles, m.cyclesGhz, m.instructions, m.ipc, m.branches, m.branchesRateMsec,
    m.branchMisses, m.branchMissRatePct, m.cacheReferences, m.cacheRefsRateMsec, m.cacheMisses,
    m.cacheMissRatePct]

def NumericOutputs (perf : Perf) : Prop :=
  ∃ metrics, perfMetrics perf = .ok metrics ∧ ∀ value ∈ metrics.values, value.isText = false

def Reads (absent : List Text) (raw : Text) : Prop :=
  let raw := Text.strip raw
  raw = [] ∨ raw ∈ absent ∨
    if '.' ∈ raw ∨ 'e' ∈ raw ∨ 'E' ∈ raw then (Decimal.pyFloat raw).isSome else (Digits.pyInt raw).isSome

structure LinesRead (absent : List Text) (normalize : Text → Text) (file : Option Text) : Prop where
  fields : ∀ event parts, eventLine normalize event file = some parts →
    Reads absent (part parts 0) ∧ Reads absent (part parts 5)
  rates : RatesDefined fun event => eventEntry (parseNumberWith absent) (eventLine normalize event file)

theorem parseNumberWith_isText {absent : List Text} {raw : Text} :
    (parseNumberWith absent raw).isText = false ↔ Reads absent raw := by
  unfold parseNumberWith Reads
  dsimp only
  generalize Text.strip raw = s
  by_cases none : s = [] ∨ s ∈ absent
  · rw [if_pos none]
    rcases none with empty | marked
    · simp [empty, PerfValue.isText]
    · simp [marked, PerfValue.isText]
  · obtain ⟨visible, unmarked⟩ := not_or.mp none
    rw [if_neg none, or_iff_right visible, or_iff_right unmarked]
    split_ifs with floating
    · cases Decimal.pyFloat s with
      | none => simp [PerfValue.isText]
      | some value => simp [PerfValue.isText]
    · cases Digits.pyInt s with
      | none => simp [PerfValue.isText]
      | some value => simp [PerfValue.isText]

theorem divide_float {a b q : PerfValue} (computed : divide a b = .ok q) : q.isText = false := by
  cases a with
  | none => cases computed
  | text raw => cases computed
  | int a =>
    cases b with
    | none => cases computed
    | text raw => cases computed
    | int b =>
      obtain ⟨x, rfl⟩ := @finite_result _ _ (fun x => PerfValue.float (.finite x)) _ computed
      rfl
    | float b =>
      obtain ⟨x, rfl⟩ := @finite_result _ _ (fun x => PerfValue.float (.div (.finite x) b)) _ computed
      rfl
  | float a =>
    cases b with
    | none => cases computed
    | text raw => cases computed
    | int b =>
      obtain ⟨x, rfl⟩ := @finite_result _ _ (fun x => PerfValue.float (.div a (.finite x))) _ computed
      rfl
    | float b => cases computed; rfl

theorem safeDiv_isText {a b q : PerfValue} (computed : safeDiv a b = .ok q) : q.isText = false := by
  unfold safeDiv at computed
  split_ifs at computed
  · cases computed
    rfl
  · exact divide_float computed

theorem percent_isText {v : PerfValue} (numeric : v.isText = false) : (percent v).isText = false := by
  cases v with
  | text raw => cases numeric
  | none => rfl
  | int value => rfl
  | float value => rfl

theorem rate_isText {metric a b q : PerfValue} (computed : rate metric a b = .ok q) :
    q.isText = false ↔ metric.isText = false := by
  unfold rate at computed
  split_ifs at computed with printed
  · rw [printed]
    exact ⟨fun _ => rfl, fun _ => safeDiv_isText computed⟩
  · cases computed
    rfl

theorem ratePct_isText {metric a b q : PerfValue} (computed : ratePct metric a b = .ok q) :
    q.isText = false ↔ metric.isText = false := by
  unfold ratePct at computed
  split_ifs at computed with printed
  · rw [printed]
    cases quotient : safeDiv a b with
    | error e => rw [quotient] at computed; cases computed
    | ok r =>
      rw [quotient] at computed
      cases computed
      exact ⟨fun _ => rfl, fun _ => percent_isText (safeDiv_isText quotient)⟩
  · cases computed
    rfl

theorem numericOutputs_iff {perf : Perf} :
    NumericOutputs perf ↔
      (∀ event, (perf event).value.isText = false ∧ (perf event).metric.isText = false) ∧ RatesDefined perf := by
  constructor
  · rintro ⟨metrics, computed, numeric⟩
    refine ⟨?_, perfMetrics_ok.mp ⟨metrics, computed⟩⟩
    obtain ⟨ipc, first, computed⟩ := Except.of_bind_ok computed
    obtain ⟨branch, second, computed⟩ := Except.of_bind_ok computed
    obtain ⟨cache, third, computed⟩ := Except.of_bind_ok computed
    injection computed with same
    subst same
    simp only [PerfMetrics.values, List.forall_mem_cons, List.not_mem_nil, false_imp_iff, implies_true,
      and_true] at numeric
    obtain ⟨clock, cpu, cycles, ghz, instructions, ipcRead, branches, branchesRate, misses, missRead, references,
      referencesRate, cacheMisses, cacheRead⟩ := numeric
    intro event
    cases event with
    | taskClock => exact ⟨clock, cpu⟩
    | cycles => exact ⟨cycles, ghz⟩
    | instructions => exact ⟨instructions, (rate_isText first).mp ipcRead⟩
    | branches => exact ⟨branches, branchesRate⟩
    | branchMisses => exact ⟨misses, (ratePct_isText second).mp missRead⟩
    | cacheReferences => exact ⟨references, referencesRate⟩
    | cacheMisses => exact ⟨cacheMisses, (ratePct_isText third).mp cacheRead⟩
  · rintro ⟨numeric, defined⟩
    obtain ⟨ipc, first⟩ := rate_ok.mpr defined.ipc
    obtain ⟨branch, second⟩ := ratePct_ok.mpr defined.branchMiss
    obtain ⟨cache, third⟩ := ratePct_ok.mpr defined.cacheMiss
    have ipcRead := (rate_isText first).mpr (numeric .instructions).2
    have missRead := (ratePct_isText second).mpr (numeric .branchMisses).2
    have cacheRead := (ratePct_isText third).mpr (numeric .cacheMisses).2
    unfold NumericOutputs perfMetrics
    rw [first, second, third]
    refine ⟨_, rfl, ?_⟩
    simp only [PerfMetrics.values, List.forall_mem_cons, List.not_mem_nil, false_imp_iff, implies_true, and_true]
    exact ⟨(numeric .taskClock).1, (numeric .taskClock).2, (numeric .cycles).1, (numeric .cycles).2,
      (numeric .instructions).1, ipcRead, (numeric .branches).1, (numeric .branches).2, (numeric .branchMisses).1,
      missRead, (numeric .cacheReferences).1, (numeric .cacheReferences).2, (numeric .cacheMisses).1, cacheRead⟩

theorem eventEntry_isText {absent : List Text} {line : Option (List Text)} :
    (eventEntry (parseNumberWith absent) line).value.isText = false ∧
        (eventEntry (parseNumberWith absent) line).metric.isText = false ↔
      ∀ parts, line = some parts → Reads absent (part parts 0) ∧ Reads absent (part parts 5) := by
  cases line with
  | none => simp [eventEntry, PerfValue.isText]
  | some parts =>
    simp only [Option.some.injEq, forall_eq', ← parseNumberWith_isText]
    rfl

theorem numericOutputs_lines {absent : List Text} {normalize : Text → Text} {file : Option Text} :
    NumericOutputs (parsePerfCsvWith normalize (parseNumberWith absent) file) ↔ LinesRead absent normalize file := by
  have counters := funext (parsePerfCsvWith_eq normalize (parseNumberWith absent) file)
  rw [counters, numericOutputs_iff]
  simp only [eventEntry_isText]
  constructor
  · rintro ⟨fields, rates⟩
    exact ⟨fields, rates⟩
  · rintro ⟨fields, rates⟩
    exact ⟨fields, rates⟩

/-- Both summarisers compute all metrics, none of them a text, exactly when the lines they use hold
numbers and their rates can be computed. -/
theorem perf_outputs_numeric_iff (file : Option Text) :
    NumericOutputs (SummarizeList.parsePerfCsv file) ∧ NumericOutputs (SummarizeListPerf.parsePerfCsv file) ↔
      LinesRead ["<not supported>".toList, "<not counted>".toList] SummarizeList.normalizePerfEvent file ∧
        LinesRead ["<not supported>".toList] id file :=
  and_congr numericOutputs_lines numericOutputs_lines

/-- The second summariser divides the text that stands for no count. -/
theorem uncounted_cycles_raise :
    let file := "<not counted>,,cycles,0,0.00,,\n1000,,instructions,12500000,100.00,,\n".toList
    (perfMetrics (SummarizeList.parsePerfCsv (some file))).isOk = true ∧
      perfMetrics (SummarizeListPerf.parsePerfCsv (some file)) = .error .typeError ∧
      ¬ NumericOutputs (SummarizeListPerf.parsePerfCsv (some file)) := by
  intro file
  have raised : perfMetrics (SummarizeListPerf.parsePerfCsv (some file)) = .error .typeError := by
    decide +kernel
  refine ⟨by decide +kernel, raised, ?_⟩
  rintro ⟨metrics, computed, -⟩
  rw [raised] at computed
  cases computed

end PqcLab
