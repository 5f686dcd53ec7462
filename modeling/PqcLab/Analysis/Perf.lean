import PqcLab.Analysis.Values

/-! The `perf stat -x,` readers of the summarisers, and the rates computed from their fields. -/

namespace PqcLab

open Binary64

inductive PerfValue
  | none
  | int (value : ℤ)
  | float (value : Double)
  | text (raw : Text)
  deriving DecidableEq

/-- `parse_number`, with the words that stand for no value. -/
def parseNumberWith (absent : List Text) (raw : Text) : PerfValue :=
  let raw := Text.strip raw
  if raw = [] ∨ raw ∈ absent then .none
  else if '.' ∈ raw ∨ 'e' ∈ raw ∨ 'E' ∈ raw then
    match Decimal.pyFloat raw with
    | some value => .float value
    | none => .text raw
  else match Digits.pyInt raw with
    | some value => .int value
    | none => .text raw

/-- `a / b` where neither is `None` and `b` is not zero. -/
def divide : PerfValue → PerfValue → Except PyError PerfValue
  | .int a, .int b => match Double.ofRat (a / b) with
    | .finite q => .ok (.float (.finite q))
    | _ => .error .overflowError
  | .int a, .float b => match Double.ofRat a with
    | .finite q => .ok (.float (.div (.finite q) b))
    | _ => .error .overflowError
  | .float a, .int b => match Double.ofRat b with
    | .finite q => .ok (.float (.div a (.finite q)))
    | _ => .error .overflowError
  | .float a, .float b => .ok (.float (.div a b))
  | _, _ => .error .typeError

/-- `b == 0` -/
def PerfValue.isZero : PerfValue → Bool
  | .int value => value = 0
  | .float value => value = .finite 0
  | _ => false

def safeDiv (a b : PerfValue) : Except PyError PerfValue :=
  if a = .none ∨ b = .none ∨ b.isZero then .ok .none else divide a b

/-- `None if tmp is None else tmp * 100` of a quotient -/
def percent : PerfValue → PerfValue
  | .float tmp => .float (tmp.mul (.finite 100))
  | tmp => tmp

/-- The counters of `CPU_EVENTS`, the keys of `empty_perf_dict`. -/
inductive PerfEvent
  | taskClock
  | cycles
  | instructions
  | branches
  | branchMisses
  | cacheReferences
  | cacheMisses
  deriving DecidableEq, Repr

def PerfEvent.all : List PerfEvent :=
  [.taskClock, .cycles, .instructions, .branches, .branchMisses, .cacheReferences, .cacheMisses]

def PerfEvent.name : PerfEvent → Text
  | .taskClock => "task-clock".toList
  | .cycles => "cycles".toList
  | .instructions => "instructions".toList
  | .branches => "branches".toList
  | .branchMisses => "branch-misses".toList
  | .cacheReferences => "cache-references".toList
  | .cacheMisses => "cache-misses".toList

structure PerfEntry where
  value : PerfValue := .none
  unit : Option Text := none
  runtime : PerfValue := .none
  pct : PerfValue := .none
  metric : PerfValue := .none
  metricUnit : Option Text := none
  deriving DecidableEq

/-- The dictionary of the parser: each counter keeps its last line. -/
abbrev Perf := PerfEvent → PerfEntry

def emptyPerf : Perf := fun _ => {}

/-- `parts[i].strip() if len(parts) > i else ""` -/
def part (parts : List Text) (i : ℕ) : Text := Text.strip (parts.getD i [])

def textOrNone (raw : Text) : Option Text := if raw = [] then none else some raw

def perfEntry (parse : Text → PerfValue) (parts : List Text) : PerfEntry where
  value := parse (part parts 0)
  unit := textOrNone (part parts 1)
  runtime := parse (part parts 3)
  pct := parse (part parts 4)
  metric := parse (part parts 5)
  metricUnit := textOrNone (part parts 6)

def perfParts (line : Text) : Option (List Text) :=
  let line := Text.strip line
  if line = [] ∨ line.head? = some '#' then none
  else
    let parts := line.splitOn ','
    if parts.length < 3 then none else some parts

/-- The loop body of `parse_perf_csv`. -/
def perfLine (normalize : Text → Text) (parse : Text → PerfValue) (perf : Perf) (line : Text) : Perf :=
  match perfParts line with
  | none => perf
  | some parts => fun event =>
    if normalize (part parts 2) = event.name then perfEntry parse parts else perf event

def parsePerfCsvWith (normalize : Text → Text) (parse : Text → PerfValue) (file : Option Text) : Perf :=
  match file with
  | none => emptyPerf
  | some text => (Text.lines text).foldl (perfLine normalize parse) emptyPerf

structure PerfMetrics where
  taskClockRaw : PerfValue
  taskClockUnit : Option Text
  cpuUtilized : PerfValue
  cycles : PerfValue
  cyclesGhz : PerfValue
  instructions : PerfValue
  ipc : PerfValue
  branches : PerfValue
  branchesRateMsec : PerfValue
  branchMisses : PerfValue
  branchMissRatePct : PerfValue
  cacheReferences : PerfValue
  cacheRefsRateMsec : PerfValue
  cacheMisses : PerfValue
  cacheMissRatePct : PerfValue
  deriving DecidableEq

def rate (metric a b : PerfValue) : Except PyError PerfValue :=
  if metric = .none then safeDiv a b else .ok metric

def ratePct (metric a b : PerfValue) : Except PyError PerfValue :=
  if metric = .none then (safeDiv a b).map percent else .ok metric

/-- `perf_metrics_with_prefix` -/
def perfMetrics (perf : Perf) : Except PyError PerfMetrics := do
  let ipc ← rate (perf .instructions).metric (perf .instructions).value (perf .cycles).value
  let branchMissRatePct ←
    ratePct (perf .branchMisses).metric (perf .branchMisses).value (perf .branches).value
  let cacheMissRatePct ←
    ratePct (perf .cacheMisses).metric (perf .cacheMisses).value (perf .cacheReferences).value
  return {
    taskClockRaw := (perf .taskClock).value
    taskClockUnit := (perf .taskClock).unit
    cpuUtilized := (perf .taskClock).metric
    cycles := (perf .cycles).value
    cyclesGhz := (perf .cycles).metric
    instructions := (perf .instructions).value
    ipc
    branches := (perf .branches).value
    branchesRateMsec := (perf .branches).metric
    branchMisses := (perf .branchMisses).value
    branchMissRatePct
    cacheReferences := (perf .cacheReferences).value
    cacheRefsRateMsec := (perf .cacheReferences).metric
    cacheMisses := (perf .cacheMisses).value
    cacheMissRatePct }

namespace SummarizeList

def parseNumber : Text → PerfValue :=
  parseNumberWith ["<not supported>".toList, "<not counted>".toList]

/-- `normalize_perf_event`: `cycles:u` counts as `cycles`. -/
def normalizePerfEvent (event : Text) : Text := (Text.strip event).takeWhile (· ≠ ':')

def parsePerfCsv : Option Text → Perf := parsePerfCsvWith normalizePerfEvent parseNumber

end SummarizeList

namespace SummarizeListPerf

def parseNumber : Text → PerfValue := parseNumberWith ["<not supported>".toList]

def parsePerfCsv : Option Text → Perf := parsePerfCsvWith id parseNumber

end SummarizeListPerf

namespace SummarizeCampaignBCore

/-- `parse_perf_task_clock`: the first line whose third field is exactly `task-clock`. -/
def parsePerfTaskClock (file : Option Text) : PerfValue :=
  match file with
  | none => .none
  | some text => ((Text.lines text).findSome? fun line =>
      let parts := (Text.strip line).splitOn ','
      if "task-clock".toList <:+: line ∧ parts.length ≥ 3 ∧ parts.getD 2 [] = "task-clock".toList then
        let raw := part parts 0
        some (match Decimal.pyFloat raw with
          | some value => PerfValue.float value
          | none => .text raw)
      else none).getD .none

end SummarizeCampaignBCore

end PqcLab
