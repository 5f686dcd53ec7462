import PqcLab.Analysis.Failures
import PqcLab.Library.CsvWriter
import PqcLab.Runner.ListFile

/-! `main` of the summarisers, the files it writes, and the report of `inspect_ab.py` on them. -/

namespace PqcLab

open Binary64 Digits

inductive Cell
  | none
  | int (n : ℤ)
  | float (x : Double)
  | text (s : Text)
  | ints (xs : List ℤ)
  | json (doc : Json)

/-- `str` of a float, and of a JSON value other than `null` and a text. -/
structure PyStr where
  float : Double → Text
  json : Json → Text

/-- The field that `csv.writer` makes of a value: `None` leaves it empty. -/
def PyStr.cell (py : PyStr) : Cell → Text
  | .none | .json .null => []
  | .int n => signed n
  | .float x => py.float x
  | .text s | .json (.str s) => s
  | .ints xs => '[' :: (", ".toList.intercalate (xs.map signed) ++ [']'])
  | .json doc => py.json doc

def PyNumber.cell : PyNumber Double → Cell
  | .int n => .int n
  | .float x => .float x

def PerfValue.cell : PerfValue → Cell
  | .none => .none
  | .int n => .int n
  | .float x => .float x
  | .text s => .text s

def optionCell : Option Text → Cell
  | none => .none
  | some s => .text s

abbrev Dict := List (Text × Cell)

/-- `row.get(key, "")`, as the writer prints it. -/
def PyStr.column (py : PyStr) (row : Dict) (key : Text) : Text :=
  match row.find? fun entry => entry.1 = key with
  | none => []
  | some entry => py.cell entry.2

/-- `";".join(map(str, xs))` -/
def Cell.joined : Cell → Cell
  | .ints xs => .text ([';'].intercalate (xs.map signed))
  | cell => cell

def joinUnique (row : Dict) : Dict :=
  row.map fun entry =>
    (entry.1, if entry.1 = "chain_len_unique".toList ∨ entry.1 = "chain_bytes_unique".toList then entry.2.joined
      else entry.2)

def RunPath.text (repo : Text) (p : RunPath) : Text :=
  repo ++ "/results/campaign_".toList ++ p.campaign ++ '/' :: (p.scenario ++ '/' :: p.name)

def figureCells (f : BenchFigures Double) : Dict :=
  [("runs".toList, .int f.runs), ("success_rate".toList, f.successRate.cell),
    ("elapsed_mean_ms".toList, .float f.elapsedMeanMs), ("elapsed_median_ms".toList, .float f.elapsedMedianMs),
    ("elapsed_p95_ms".toList, .float f.elapsedP95Ms), ("elapsed_p99_ms".toList, .float f.elapsedP99Ms),
    ("elapsed_min_ms".toList, .float f.elapsedMinMs), ("elapsed_max_ms".toList, .float f.elapsedMaxMs),
    ("bytes_read_mean".toList, f.bytesReadMean.cell), ("bytes_written_mean".toList, f.bytesWrittenMean.cell),
    ("chain_len_unique".toList, .ints f.chainLenUnique), ("chain_bytes_unique".toList, .ints f.chainBytesUnique)]

def chainCells (c : ChainFields) : Dict :=
  [("served_chain_der_bytes".toList, .json c.servedChainDerBytes), ("root_alg".toList, .json c.rootAlg),
    ("root_der_bytes".toList, .json c.rootDerBytes), ("intermediate_alg".toList, .json c.intermediateAlg),
    ("intermediate_der_bytes".toList, .json c.intermediateDerBytes), ("leaf_alg".toList, .json c.leafAlg),
    ("leaf_der_bytes".toList, .json c.leafDerBytes)]

/-- `perf_metrics_with_prefix` -/
def metricCells (name : Text) (m : PerfMetrics) : Dict :=
  [("_task_clock_raw".toList, m.taskClockRaw.cell), ("_task_clock_unit".toList, optionCell m.taskClockUnit),
    ("_cpu_utilized".toList, m.cpuUtilized.cell), ("_cycles".toList, m.cycles.cell),
    ("_cycles_ghz".toList, m.cyclesGhz.cell), ("_instructions".toList, m.instructions.cell),
    ("_ipc".toList, m.ipc.cell), ("_branches".toList, m.branches.cell),
    ("_branches_rate_msec".toList, m.branchesRateMsec.cell), ("_branch_misses".toList, m.branchMisses.cell),
    ("_branch_miss_rate_pct".toList, m.branchMissRatePct.cell),
    ("_cache_references".toList, m.cacheReferences.cell),
    ("_cache_refs_rate_msec".toList, m.cacheRefsRateMsec.cell), ("_cache_misses".toList, m.cacheMisses.cell),
    ("_cache_miss_rate_pct".toList, m.cacheMissRatePct.cell)].map fun entry => (name ++ entry.1, entry.2)

def metricNames (name : Text) : List Text :=
  ["_task_clock_raw", "_task_clock_unit", "_cpu_utilized", "_cycles", "_cycles_ghz", "_instructions", "_ipc",
    "_branches", "_branches_rate_msec", "_branch_misses", "_branch_miss_rate_pct", "_cache_references",
    "_cache_refs_rate_msec", "_cache_misses", "_cache_miss_rate_pct"].map fun metric => name ++ metric.toList

def listColumns : List Text :=
  ["scenario_id", "campaign", "status", "runs", "success_rate", "elapsed_mean_ms", "elapsed_median_ms",
    "elapsed_p95_ms", "elapsed_p99_ms", "elapsed_min_ms", "elapsed_max_ms", "bytes_read_mean",
    "bytes_written_mean", "chain_len_unique", "chain_bytes_unique", "served_chain_der_bytes", "root_alg",
    "root_der_bytes", "intermediate_alg", "intermediate_der_bytes", "leaf_alg", "leaf_der_bytes"].map
    String.toList

inductive OutputFile
  /-- What `json.dump` made of a list of summaries. -/
  | json (summaries : List Dict)
  | csv (text : Text)

abbrev Outputs := Text → Option OutputFile

inductive Ended
  | ok
  | exit (code : ℕ)
  | raised (e : PyError)
  deriving DecidableEq

/-- `DictWriter.writerow`: a key that is no column raises. -/
def rowFields (py : PyStr) (fieldnames : List Text) (row : Dict) : Except PyError (List Text) :=
  if row.all fun entry => fieldnames.contains entry.1 then .ok (fieldnames.map (py.column row))
  else .error .valueError

/-- The rows of the CSV file, up to the first that raises. -/
def writeRows (py : PyStr) (fieldnames : List Text) : List Dict → Text × Ended
  | [] => ([], .ok)
  | row :: rows => match rowFields py fieldnames (joinUnique row) with
    | .error e => ([], .raised e)
    | .ok fields =>
      let (text, ended) := writeRows py fieldnames rows
      (Csv.writeRow fields ++ text, ended)

/-- `OUTPUT_DIR / f"{output_name}_summary.{extension}"` of a name that has no slash, and so stays in that
directory. -/
def outputPath (repo outputName extension : Text) : Text :=
  repo ++ "/analysis/outputs/".toList ++ outputName ++ "_summary.".toList ++ extension

/-- The end of `main`: the JSON file first, then the CSV file. -/
def writeOutputs (py : PyStr) (repo : Text) (fieldnames : List Text) (outputName : Text) (summaries : List Dict)
    (outputs : Outputs) : Ended × Outputs :=
  let (rows, ended) := writeRows py fieldnames summaries
  (ended, Function.update
    (Function.update outputs (outputPath repo outputName "json".toList) (some (.json summaries)))
    (outputPath repo outputName "csv".toList) (some (.csv (Csv.writeRow fieldnames ++ rows))))

/-- `Path(path).name` -/
def fileName (path : Text) : Text :=
  (((path.splitOn '/').filter fun part => part ≠ [] ∧ part ≠ ['.']).getLast?).getD []

/-- `Path(path).stem`: a dot at either end of the name does not start a suffix. -/
def stem (path : Text) : Text :=
  let name := fileName path
  let suffix := name.rtakeWhile (· ≠ '.')
  if suffix ≠ [] ∧ suffix.length + 1 < name.length then name.take (name.length - (suffix.length + 1)) else name

def scenarioIdFromListEntry (entry : Text) : Text := stem entry

/-- `listfile if listfile.is_absolute() else REPO / listfile` -/
def listfilePath (repo listfile : Text) : Text :=
  if listfile.head? = some '/' then listfile else repo ++ '/' :: listfile

/-- `main` of a summariser that takes a list, by its `REPO`, its columns and its `scenario_summary`. -/
def summarizeListMain (py : PyStr) (repo : Text) (fieldnames : List Text)
    (summary : Text → Option Text → Except PyError Dict) (listfiles : Text → Option Text) (args : List Text)
    (outputs : Outputs) : Ended × Outputs :=
  let summarize (listfile outputName : Text) : Ended × Outputs :=
    match listfiles (listfilePath repo listfile) with
    | none => (.exit 1, outputs)
    | some file =>
      let scenarioIds := (ListFile.loadListfile file).map scenarioIdFromListEntry
      match scenarioIds.mapM fun s => summary s (campaignHint (stem listfile)) with
      | .error e => (.raised e, outputs)
      | .ok summaries => writeOutputs py repo fieldnames outputName summaries outputs
  match args with
  | [listfile] => summarize listfile (stem listfile)
  | [listfile, outputName] => summarize listfile outputName
  | _ => (.exit 1, outputs)

namespace SummarizeList

def repo (home : Text) : Text := home ++ "/tls-pqc-lab".toList

def fieldnames : List Text :=
  listColumns ++ metricNames "perf_client".toList ++ metricNames "perf_server".toList ++
    ["run_dir".toList, "pcap_file".toList]

def Summary.dict (repo : Text) (s : Summary) : Dict :=
  [("scenario_id".toList, .text s.scenarioId), ("campaign".toList, .json s.campaign),
    ("status".toList, .json s.status)] ++ figureCells s.figures ++ chainCells s.chain ++
    [("run_dir".toList, .text (s.runDir.text repo)), ("pcap_file".toList, .json s.pcapFile)] ++
    metricCells "perf_client".toList s.perfClient ++ metricCells "perf_server".toList s.perfServer

def main (py : PyStr) (home : Text) (tree : ResultsTree) : (Text → Option Text) → List Text → Outputs →
    Ended × Outputs :=
  summarizeListMain py (repo home) fieldnames fun scenarioId campaignHint =>
    (scenarioSummary tree scenarioId campaignHint).map (Summary.dict (repo home))

end SummarizeList

namespace SummarizeListPerf

def repo (home : Text) : Text := home ++ "/pki-pqc-lab".toList

def fieldnames : List Text :=
  listColumns ++ metricNames "perf".toList ++ ["run_dir".toList, "pcap_file".toList]

def Summary.dict (repo : Text) (s : Summary) : Dict :=
  [("scenario_id".toList, .text s.scenarioId), ("campaign".toList, .json s.campaign),
    ("status".toList, .json s.status)] ++ figureCells s.figures ++ chainCells s.chain ++
    metricCells "perf".toList s.perf ++
    [("run_dir".toList, .text (s.runDir.text repo)), ("pcap_file".toList, .json s.pcapFile)]

def scenarioSummary (tree : ResultsTree) (scenarioId : Text) (campaignHint : Option Text) :
    Except PyError Summary := do
  let runDir ← latestValidRunDir tree scenarioId campaignHint
  summarizeRunDir (tree.dir runDir scenarioId) runDir scenarioId

def main (py : PyStr) (home : Text) (tree : ResultsTree) : (Text → Option Text) → List Text → Outputs →
    Ended × Outputs :=
  summarizeListMain py (repo home) fieldnames fun scenarioId campaignHint =>
    (scenarioSummary tree scenarioId campaignHint).map (Summary.dict (repo home))

end SummarizeListPerf

namespace SummarizeCampaignBCore

def repo (home : Text) : Text := home ++ "/pki-pqc-lab".toList

def scenarios : List Text :=
  ["x25519mlkem768__ml_root__ml_int__ml_leaf", "x25519mlkem768__slh_root__ml_int__ml_leaf",
    "x25519mlkem768__slh_root__slh_int__slh_leaf"].map String.toList

def fieldnames : List Text :=
  ["scenario_id", "runs", "success_rate", "elapsed_mean_ms", "elapsed_median_ms", "elapsed_p95_ms",
    "elapsed_p99_ms", "elapsed_min_ms", "elapsed_max_ms", "bytes_read_mean", "bytes_written_mean",
    "chain_len_unique", "chain_bytes_unique", "served_chain_der_bytes", "root_alg", "intermediate_alg", "leaf_alg",
    "perf_task_clock_raw", "run_dir", "pcap_file"].map String.toList

def Summary.dict (repo : Text) (s : Summary) : Dict :=
  [("scenario_id".toList, .text s.scenarioId), ("run_dir".toList, .text (s.runDir.text repo))] ++
    figureCells s.figures ++ [("served_chain_der_bytes".toList, .json s.servedChainDerBytes),
      ("root_alg".toList, .json s.rootAlg), ("intermediate_alg".toList, .json s.intermediateAlg),
      ("leaf_alg".toList, .json s.leafAlg), ("perf_task_clock_raw".toList, s.perfTaskClockRaw.cell),
      ("pcap_file".toList, .json s.pcapFile)]

/-- `latest_valid_run_dir`: here only one campaign counts, and its directory of the scenario must exist. -/
def latestValidRunDir (tree : ResultsTree) (baseExists : Text → Bool) (scenarioId : Text) :
    Except PyError RunPath := do
  if !baseExists scenarioId then .error (.fileNotFoundError ("No directory for ".toList ++ scenarioId))
  let runs := tree.keys.filter fun p => p.campaign = ['B'] ∧ p.scenario = scenarioId
  let found ← (Search.descending runs).findM? (tree.isValid scenarioId)
  match found with
  | some p => return p
  | none => .error (.fileNotFoundError ("No valid completed runs found for ".toList ++ scenarioId))

def scenarioSummary (tree : ResultsTree) (baseExists : Text → Bool) (scenarioId : Text) :
    Except PyError Summary := do
  let runDir ← latestValidRunDir tree baseExists scenarioId
  summarizeRunDir (tree.dir runDir scenarioId) runDir scenarioId

def main (py : PyStr) (home : Text) (tree : ResultsTree) (baseExists : Text → Bool) (outputs : Outputs) :
    Ended × Outputs :=
  match scenarios.mapM (scenarioSummary tree baseExists) with
  | .error e => (.raised e, outputs)
  | .ok summaries => writeOutputs py (repo home) fieldnames "campaign_B_core".toList
      (summaries.map (Summary.dict (repo home))) outputs

end SummarizeCampaignBCore

structure Tabular (fieldnames : List Text) (row : Dict) : Prop where
  keys : (row.map Prod.fst).Nodup
  columns : ∀ key, key ∈ fieldnames ↔ key ∈ row.map Prod.fst

section Table

variable {py : PyStr} {fieldnames : List Text}

theorem column_of_mem {row : Dict} (keys : (row.map Prod.fst).Nodup) {entry : Text × Cell} (member : entry ∈ row) :
    py.column row entry.1 = py.cell entry.2 := by
  unfold PyStr.column
  induction row with
  | nil => cases member
  | cons first row ih =>
    rw [List.map_cons, List.nodup_cons] at keys
    rcases List.mem_cons.mp member with rfl | inside
    · simp
    · have other : first.1 ≠ entry.1 := fun same =>
        keys.1 (same ▸ List.mem_map_of_mem inside)
      rw [List.find?_cons_of_neg (by simpa using other)]
      exact ih keys.2 inside

theorem joinUnique_keys (row : Dict) : (joinUnique row).map Prod.fst = row.map Prod.fst := by
  unfold joinUnique
  rw [List.map_map]
  exact List.map_congr_left fun _ _ => rfl

theorem Tabular.joinUnique {row : Dict} (tabular : Tabular fieldnames row) : Tabular fieldnames (joinUnique row) :=
  ⟨joinUnique_keys row ▸ tabular.keys, fun key => joinUnique_keys row ▸ tabular.columns key⟩

theorem Tabular.rowFields {row : Dict} (tabular : Tabular fieldnames row) :
    rowFields py fieldnames row = .ok (fieldnames.map (py.column row)) := by
  have all : row.all (fun entry => fieldnames.contains entry.1) = true := by
    refine List.all_eq_true.mpr fun entry member => List.contains_iff_mem.mpr ?_
    exact (tabular.columns entry.1).mpr (List.mem_map_of_mem member)
  rw [PqcLab.rowFields, if_pos all]

theorem writeRows_ok {rows : List Dict} (tabular : ∀ row ∈ rows, Tabular fieldnames row) :
    writeRows py fieldnames rows =
      ((rows.map fun row => fieldnames.map (py.column (joinUnique row))).flatMap Csv.writeRow, .ok) := by
  induction rows with
  | nil => rfl
  | cons row rows ih =>
    have first : rowFields py fieldnames (joinUnique row) = _ := (tabular row (by simp)).joinUnique.rowFields
    rw [writeRows, first, ih fun other member => tabular other (by simp [member])]
    rfl

structure Holds (py : PyStr) (summary : Dict) (row : Text → Option (Option Text)) : Prop where
  values : ∀ entry ∈ joinUnique summary, row entry.1 = some (some (py.cell entry.2))
  others : ∀ key ∉ summary.map Prod.fst, row key = none

/-- No text is too long for the reader. -/
def Readable (py : PyStr) (summary : Dict) : Prop :=
  ∀ entry ∈ joinUnique summary, (py.cell entry.2).length ≤ Csv.fieldLimit

theorem Tabular.fits {row : Dict} (tabular : Tabular fieldnames row) (readable : Readable py row) :
    Csv.Fits (fieldnames.map (py.column (PqcLab.joinUnique row))) := by
  intro field member
  obtain ⟨key, column, rfl⟩ := List.mem_map.mp member
  obtain ⟨entry, inside, rfl⟩ := List.mem_map.mp ((tabular.joinUnique.columns key).mp column)
  rw [column_of_mem tabular.joinUnique.keys inside]
  exact readable entry inside

theorem Tabular.holds {summary : Dict} (tabular : Tabular fieldnames summary) :
    Holds py summary fun key =>
      if key ∈ fieldnames then some (some (py.column (PqcLab.joinUnique summary) key)) else none := by
  constructor
  · intro entry member
    have column := (tabular.joinUnique.columns entry.1).mpr (List.mem_map_of_mem member)
    rw [if_pos column, column_of_mem tabular.joinUnique.keys member]
  · intro key absent
    rw [if_neg fun column => absent ((tabular.columns key).mp column)]

theorem dictReader_writeRows {summaries : List Dict} (nonempty : fieldnames ≠ []) (names : Csv.Fits fieldnames)
    (tabular : ∀ row ∈ summaries, Tabular fieldnames row) (readable : ∀ row ∈ summaries, Readable py row) :
    ∃ rows, Csv.dictReader (Csv.writeRow fieldnames ++ (writeRows py fieldnames summaries).1) = rows.map .ok ∧
      List.Forall₂ (Holds py) summaries rows := by
  refine ⟨summaries.map fun summary key =>
    if key ∈ fieldnames then some (some (py.column (joinUnique summary) key)) else none, ?_, ?_⟩
  · have written := @Csv.dictReader_dictWriter _ nonempty names (summaries.map fun row => py.column (joinUnique row))
      (by
        intro row member
        obtain ⟨summary, inside, rfl⟩ := List.mem_map.mp member
        exact (tabular summary inside).fits (readable summary inside))
    rw [writeRows_ok tabular, List.map_map]
    rw [List.map_map] at written
    rw [Csv.dictWriter, List.flatMap_cons, List.map_map] at written
    exact written
  · rw [List.forall₂_map_right_iff]
    exact List.forall₂_same.mpr fun summary member => (tabular summary member).holds

theorem tabular_of_keys (keys : List Text) {row : Dict} (same : row.map Prod.fst = keys) (nodup : keys.Nodup)
    (perm : fieldnames.Perm keys) : Tabular fieldnames row :=
  ⟨same ▸ nodup, fun _ => same ▸ perm.mem_iff⟩

end Table

theorem SummarizeList.tabular (repo : Text) (s : SummarizeList.Summary) :
    Tabular SummarizeList.fieldnames (s.dict repo) :=
  tabular_of_keys (listColumns ++ ["run_dir".toList, "pcap_file".toList] ++
    metricNames "perf_client".toList ++ metricNames "perf_server".toList) rfl (by decide +kernel) (by decide +kernel)

theorem SummarizeListPerf.tabular (repo : Text) (s : SummarizeListPerf.Summary) :
    Tabular SummarizeListPerf.fieldnames (s.dict repo) :=
  tabular_of_keys (listColumns ++ metricNames "perf".toList ++ ["run_dir".toList, "pcap_file".toList]) rfl
    (by decide +kernel) (List.Perm.refl _)

inductive ListProgram
  | summarizeList
  | summarizeListPerf

namespace ListProgram

def repo : ListProgram → Text → Text
  | .summarizeList => SummarizeList.repo
  | .summarizeListPerf => SummarizeListPerf.repo

def fieldnames : ListProgram → List Text
  | .summarizeList => SummarizeList.fieldnames
  | .summarizeListPerf => SummarizeListPerf.fieldnames

def summary (home : Text) (tree : ResultsTree) : ListProgram → Text → Option Text → Except PyError Dict
  | .summarizeList => fun scenarioId campaignHint =>
    (SummarizeList.scenarioSummary tree scenarioId campaignHint).map
      (SummarizeList.Summary.dict (SummarizeList.repo home))
  | .summarizeListPerf => fun scenarioId campaignHint =>
    (SummarizeListPerf.scenarioSummary tree scenarioId campaignHint).map
      (SummarizeListPerf.Summary.dict (SummarizeListPerf.repo home))

def main (py : PyStr) (home : Text) (tree : ResultsTree) : ListProgram → (Text → Option Text) → List Text →
    Outputs → Ended × Outputs
  | .summarizeList => SummarizeList.main py home tree
  | .summarizeListPerf => SummarizeListPerf.main py home tree

variable {py : PyStr} (program : ListProgram) (home : Text) (tree : ResultsTree)

theorem main_eq : program.main py home tree =
    summarizeListMain py (program.repo home) program.fieldnames (program.summary home tree) := by
  cases program <;> rfl

theorem fieldnames_ne_nil : program.fieldnames ≠ [] := by
  cases program <;> exact List.cons_ne_nil _ _

theorem fieldnames_fit : Csv.Fits program.fieldnames := by
  have short : program.fieldnames.all (fun name => name.length ≤ 100) = true := by
    cases program <;> decide +kernel
  intro name member
  have length := List.all_eq_true.mp short name member
  exact (of_decide_eq_true length).trans (by decide)

theorem summary_tabular {scenarioId : Text} {hint : Option Text} {row : Dict}
    (returned : program.summary home tree scenarioId hint = .ok row) : Tabular program.fieldnames row := by
  cases program with
  | summarizeList =>
    change Except.map _ (SummarizeList.scenarioSummary tree scenarioId hint) = .ok row at returned
    cases computed : SummarizeList.scenarioSummary tree scenarioId hint with
    | error e =>
      rw [computed] at returned
      cases returned
    | ok s =>
      rw [computed] at returned
      cases returned
      exact SummarizeList.tabular _ s
  | summarizeListPerf =>
    change Except.map _ (SummarizeListPerf.scenarioSummary tree scenarioId hint) = .ok row at returned
    cases computed : SummarizeListPerf.scenarioSummary tree scenarioId hint with
    | error e =>
      rw [computed] at returned
      cases returned
    | ok s =>
      rw [computed] at returned
      cases returned
      exact SummarizeListPerf.tabular _ s

def entrySummary (program : ListProgram) (home : Text) (tree : ResultsTree) (listfile entry : Text) :
    Except PyError Dict :=
  program.summary home tree (scenarioIdFromListEntry entry) (campaignHint (stem listfile))

theorem main_listfile {listfiles : Text → Option Text} {listfile outputName file : Text} {outputs : Outputs}
    (present : listfiles (listfilePath (program.repo home) listfile) = some file) :
    program.main py home tree listfiles [listfile, outputName] outputs =
      match (ListFile.loadListfile file).mapM (program.entrySummary home tree listfile) with
      | .error e => (.raised e, outputs)
      | .ok summaries => writeOutputs py (program.repo home) program.fieldnames outputName summaries outputs := by
  rw [main_eq, summarizeListMain]
  simp only [present, List.mapM_map]
  rfl

def Summarized (listfiles : Text → Option Text) (args : List Text) (outputName : Text) (summaries : List Dict) :
    Prop :=
  ∃ listfile file, (args = [listfile, outputName] ∨ args = [listfile] ∧ stem listfile = outputName) ∧
    listfiles (listfilePath (program.repo home) listfile) = some file ∧
    List.Forall₂ (fun entry summary => program.entrySummary home tree listfile entry = .ok summary)
      (ListFile.loadListfile file) summaries

theorem main_summarized {listfiles : Text → Option Text} {args : List Text} {outputName : Text}
    {summaries : List Dict} (given : program.Summarized home tree listfiles args outputName summaries)
    (outputs : Outputs) :
    program.main py home tree listfiles args outputs =
      writeOutputs py (program.repo home) program.fieldnames outputName summaries outputs := by
  obtain ⟨listfile, file, named, present, returned⟩ := given
  have written : program.main py home tree listfiles [listfile, outputName] outputs =
      writeOutputs py (program.repo home) program.fieldnames outputName summaries outputs := by
    rw [main_listfile program home tree present, Except.mapM_ok_iff.mpr returned]
  rcases named with rfl | ⟨rfl, rfl⟩
  · exact written
  · rw [← written, main_eq]
    rfl

theorem main_stem (listfiles : Text → Option Text) (listfile : Text) (outputs : Outputs) :
    program.main py home tree listfiles [listfile] outputs =
      program.main py home tree listfiles [listfile, stem listfile] outputs := by
  rw [main_eq]
  rfl

theorem main_named (listfiles : Text → Option Text) (listfile outputName : Text) (outputs : Outputs) :
    (program.main py home tree listfiles [listfile, outputName] outputs).2 = outputs ∨
      ∃ file summaries, listfiles (listfilePath (program.repo home) listfile) = some file ∧
        List.Forall₂ (fun entry summary => program.entrySummary home tree listfile entry = .ok summary)
          (ListFile.loadListfile file) summaries := by
  cases present : listfiles (listfilePath (program.repo home) listfile) with
  | none =>
    left
    rw [main_eq, summarizeListMain]
    simp only [present]
  | some file =>
    cases computed : (ListFile.loadListfile file).mapM (program.entrySummary home tree listfile) with
    | error e =>
      left
      rw [main_listfile program home tree present, computed]
    | ok summaries => exact .inr ⟨file, summaries, rfl, Except.mapM_ok_iff.mp computed⟩

theorem main_cases (py : PyStr) (listfiles : Text → Option Text) (args : List Text) (outputs : Outputs) :
    (program.main py home tree listfiles args outputs).2 = outputs ∨
      ∃ outputName summaries, program.Summarized home tree listfiles args outputName summaries := by
  rcases args with _ | ⟨listfile, _ | ⟨outputName, _ | ⟨third, rest⟩⟩⟩
  · left
    rw [main_eq]
    rfl
  · rw [main_stem]
    refine (main_named program home tree listfiles listfile (stem listfile) outputs).imp_right ?_
    rintro ⟨file, summaries, present, returned⟩
    exact ⟨_, summaries, listfile, file, .inr ⟨rfl, rfl⟩, present, returned⟩
  · refine (main_named program home tree listfiles listfile outputName outputs).imp_right ?_
    rintro ⟨file, summaries, present, returned⟩
    exact ⟨outputName, summaries, listfile, file, .inl rfl, present, returned⟩
  · left
    rw [main_eq]
    rfl

end ListProgram

theorem fileName_last {start last : Text} (noSlash : '/' ∉ last) (nonempty : last ≠ []) (noDot : last ≠ ['.']) :
    fileName (start ++ '/' :: last) = last := by
  unfold fileName
  rw [List.splitOn_append_cons_self, List.splitOn_eq_singleton noSlash, List.filter_append]
  simp [nonempty, noDot]

structure OutputName where
  text : Text
  noSlash : '/' ∉ text

theorem OutputName.fileName (name : OutputName) (repo : Text) {extension : Text} (plain : '/' ∉ extension) :
    PqcLab.fileName (outputPath repo name.text extension) = name.text ++ ("_summary.".toList ++ extension) := by
  have path : outputPath repo name.text extension =
      repo ++ "/analysis/outputs".toList ++ '/' :: (name.text ++ ("_summary.".toList ++ extension)) := by
    simp only [outputPath, List.append_assoc]
    rfl
  rw [path]
  apply fileName_last
  · simp [name.noSlash, plain]
  · simp
  · intro same
    have length := congrArg List.length same
    simp at length
    omega

theorem outputPath_ne (repo outputName : Text) :
    outputPath repo outputName "json".toList ≠ outputPath repo outputName "csv".toList := by
  unfold outputPath
  rw [Ne, List.append_cancel_left_eq]
  decide

theorem writeOutputs_ok {py : PyStr} {fieldnames : List Text} (repo outputName : Text) (outputs : Outputs)
    {summaries : List Dict} (tabular : ∀ row ∈ summaries, Tabular fieldnames row) :
    writeOutputs py repo fieldnames outputName summaries outputs =
      (.ok, Function.update
        (Function.update outputs (outputPath repo outputName "json".toList) (some (.json summaries)))
        (outputPath repo outputName "csv".toList)
        (some (.csv (Csv.writeRow fieldnames ++ (writeRows py fieldnames summaries).1)))) := by
  simp only [writeOutputs, writeRows_ok tabular]

/-- The summaries of a list go to both files in the order of the list, and the CSV file is read back value
for value, if its reader takes texts of that length. An entry without a summary leaves all files as they
were. -/
theorem list_outputs_read_back (program : ListProgram) (py : PyStr) (home : Text) (tree : ResultsTree)
    (listfiles : Text → Option Text) (listfile file : Text) (outputName : OutputName) (outputs : Outputs)
    (present : listfiles (listfilePath (program.repo home) listfile) = some file) :
    (∀ summaries,
      List.Forall₂ (fun entry summary => program.entrySummary home tree listfile entry = .ok summary)
        (ListFile.loadListfile file) summaries →
      (∀ summary ∈ summaries, Readable py summary) →
      ∃ after text rows, program.main py home tree listfiles [listfile, outputName.text] outputs = (.ok, after) ∧
        after (outputPath (program.repo home) outputName.text "json".toList) = some (.json summaries) ∧
        after (outputPath (program.repo home) outputName.text "csv".toList) = some (.csv text) ∧
        (∀ path, path ≠ outputPath (program.repo home) outputName.text "json".toList →
          path ≠ outputPath (program.repo home) outputName.text "csv".toList → after path = outputs path) ∧
        Csv.dictReader text = rows.map .ok ∧ List.Forall₂ (Holds py) summaries rows) ∧
    (∀ before entry later e, ListFile.loadListfile file = before ++ entry :: later →
      (∀ earlier ∈ before, ∃ summary, program.entrySummary home tree listfile earlier = .ok summary) →
      program.entrySummary home tree listfile entry = .error e →
      program.main py home tree listfiles [listfile, outputName.text] outputs = (.raised e, outputs)) := by
  constructor
  · intro summaries returned readable
    have tabular : ∀ row ∈ summaries, Tabular program.fieldnames row := by
      intro row member
      obtain ⟨entry, -, made⟩ := Except.of_mem_mapM returned member
      exact program.summary_tabular home tree made
    obtain ⟨rows, read, holds⟩ :=
      dictReader_writeRows program.fieldnames_ne_nil program.fieldnames_fit tabular readable
    rw [program.main_summarized home tree ⟨listfile, file, .inl rfl, present, returned⟩]
    have written := @writeOutputs_ok py _ (program.repo home) outputName.text outputs _ tabular
    refine ⟨_, _, rows, written, ?_, ?_, ?_, read, holds⟩
    · rw [Function.update_of_ne (outputPath_ne _ _), Function.update_self]
    · rw [Function.update_self]
    · intro path json csv
      rw [Function.update_of_ne csv, Function.update_of_ne json]
  · intro before entry later e split earlier fails
    rw [program.main_listfile home tree present, split, Except.mapM_error earlier fails]

/-- `str` of the numbers in the sample below. -/
def samplePy : PyStr where
  float _ := "1.5".toList
  json doc := match doc with
    | .num value => signed value.num
    | _ => []

def quickTree : ResultsTree := (∅ : ResultsTree).insert quickDir fun _ => noneFailed

theorem quick_summary : ∃ summary,
    ListProgram.summarizeListPerf.entrySummary "/home/lab".toList quickTree "one.list".toList
      "profiles/scenarios/quick.json".toList = .ok summary ∧
    Readable samplePy summary ∧
    ∃ entry ∈ joinUnique summary, entry.1 = "elapsed_mean_ms".toList ∧ samplePy.cell entry.2 = "1.5".toList := by
  have computed : ((ListProgram.summarizeListPerf.entrySummary "/home/lab".toList quickTree "one.list".toList
      "profiles/scenarios/quick.json".toList).toOption.map fun summary =>
        ((joinUnique summary).all fun entry => (samplePy.cell entry.2).length ≤ 100,
          (joinUnique summary).any fun entry =>
            entry.1 = "elapsed_mean_ms".toList ∧ samplePy.cell entry.2 = "1.5".toList)) = some (true, true) := by
    decide +kernel
  obtain ⟨summary, returned, checked⟩ := ok_of_toOption _ computed
  obtain ⟨short, mean⟩ := Prod.mk.inj checked
  refine ⟨summary, returned, fun entry member => ?_, ?_⟩
  · have bound := List.all_eq_true.mp short entry member
    exact (of_decide_eq_true bound).trans (by decide)
  · obtain ⟨entry, member, same⟩ := List.any_eq_true.mp mean
    exact ⟨entry, member, of_decide_eq_true same⟩

theorem list_outputs_read_back_quick :
    ∃ after text row, SummarizeListPerf.main samplePy "/home/lab".toList quickTree
        (fun _ => some "profiles/scenarios/quick.json\n".toList) ["one.list".toList, "one".toList]
        (fun _ => none) = (.ok, after) ∧
      after "/home/lab/pki-pqc-lab/analysis/outputs/one_summary.csv".toList = some (.csv text) ∧
      Csv.dictReader text = [.ok row] ∧ row "elapsed_mean_ms".toList = some (some "1.5".toList) := by
  obtain ⟨summary, returned, readable, entry, member, name, mean⟩ := quick_summary
  have listed : ListFile.loadListfile "profiles/scenarios/quick.json\n".toList =
      ["profiles/scenarios/quick.json".toList] := by decide +kernel
  obtain ⟨back, -⟩ := list_outputs_read_back .summarizeListPerf samplePy "/home/lab".toList quickTree
    (fun _ => some "profiles/scenarios/quick.json\n".toList) "one.list".toList
    "profiles/scenarios/quick.json\n".toList ⟨"one".toList, by decide⟩ (fun _ => none) rfl
  obtain ⟨after, text, rows, ended, -, csv, -, read, holds⟩ := back [summary]
    (by rw [listed]; exact .cons returned .nil) (by simpa using readable)
  obtain ⟨row, rest, held, none, rfl⟩ := List.forall₂_cons_left_iff.mp holds
  obtain rfl := List.forall₂_nil_left_iff.mp none
  exact ⟨after, text, row, ended, csv, read, by rw [← name, held.values entry member, mean]⟩

end PqcLab
