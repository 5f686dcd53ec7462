import PqcLab.Analysis.Bench
import PqcLab.Library.Glob
import PqcLab.Library.Search
import Mathlib.Data.List.AList
import Mathlib.Data.List.Lex

/-! The results tree, `is_valid_run_dir` and `latest_valid_run_dir`. -/

namespace PqcLab

open Binary64

structure ScenarioFiles where
  metaJson : Option JsonFile := none
  benchCsv : Option Text := none
  perfClientCsv : Option Text := none
  perfServerCsv : Option Text := none

/-- The files of a run directory, by the scenario they are named after. -/
abbrev RunDir := Text → ScenarioFiles

/-- `results/campaign_<campaign>/<scenario>/<name>` -/
structure RunPath where
  campaign : Text
  scenario : Text
  name : Text
  deriving DecidableEq

namespace RunPath

def parts (p : RunPath) : List Text := ["campaign_".toList ++ p.campaign, p.scenario, p.name]

theorem parts_injective : Function.Injective parts := by
  rintro ⟨a, b, c⟩ ⟨d, e, f⟩ same
  simpa [parts] using same

instance : LinearOrder RunPath := LinearOrder.lift' parts parts_injective

theorem lt_iff (p q : RunPath) :
    p < q ↔ p.campaign < q.campaign ∨ p.campaign = q.campaign ∧
      (p.scenario < q.scenario ∨ p.scenario = q.scenario ∧ p.name < q.name) := by
  change p.parts < q.parts ↔ _
  simp only [parts, List.cons_lt_cons_iff, Text.append_lt_append_iff, List.append_cancel_left_eq,
    List.not_lt_nil, and_false, or_false]

end RunPath

abbrev ResultsTree := AList fun _ : RunPath => RunDir

def ResultsTree.dir (tree : ResultsTree) (p : RunPath) : RunDir := (tree.lookup p).getD fun _ => {}

def ResultsTree.edit (tree : ResultsTree) (p : RunPath) (scenarioId : Text)
    (change : ScenarioFiles → ScenarioFiles) : ResultsTree :=
  tree.insert p (Function.update (tree.dir p) scenarioId (change (tree.dir p scenarioId)))

/-- `mkdir -p` -/
def ResultsTree.makeDir (tree : ResultsTree) (p : RunPath) : ResultsTree :=
  if p ∈ tree then tree else tree.insert p fun _ => {}

def isValidRunDir (dir : RunDir) (scenarioId : Text) : Except PyError Bool :=
  match (dir scenarioId).metaJson, (dir scenarioId).benchCsv with
  | some metaJson, some bench => match metaJson.load with
    | none => .ok false
    | some doc => do
      let status ← doc.get "status".toList (.str "completed".toList)
      if status.isStr "completed".toList then
        let rows : List (BenchRow Double) ← readBenchCsv (some bench)
        return decide (rows ≠ [])
      else return false
  | _, _ => .ok false

def ResultsTree.isValid (tree : ResultsTree) (scenarioId : Text) (p : RunPath) : Except PyError Bool :=
  isValidRunDir (tree.dir p) scenarioId

def hintedDirs (tree : ResultsTree) (scenarioId : Text) : Option Text → List RunPath
  | none => []
  | some hint =>
    -- the empty text is false in Python
    if hint = [] then []
    else tree.keys.filter fun p => p.campaign = hint ∧ p.scenario = scenarioId

def candidates (tree : ResultsTree) (scenarioId : Text) (campaignHint : Option Text) : List RunPath :=
  if hintedDirs tree scenarioId campaignHint ≠ [] then hintedDirs tree scenarioId campaignHint
  else tree.keys.filter fun p => Glob.fnmatch p.scenario scenarioId

def latestValidRunDir (tree : ResultsTree) (scenarioId : Text) (campaignHint : Option Text) :
    Except PyError RunPath := do
  let found ← (Search.descending (candidates tree scenarioId campaignHint)).findM? (tree.isValid scenarioId)
  match found with
  | some p => return p
  | none => .error (.fileNotFoundError ("No valid completed runs found for ".toList ++ scenarioId))

/-- `stem.replace("campaign_", "")`, and the labels that `main` takes for a hint. -/
def campaignHint (stem : Text) : Option Text :=
  if "campaign_".toList.isPrefixOf stem then
    let suffix := Text.removeAll "campaign_".toList stem
    if suffix ∈ [['A'], ['B'], ['C'], ['D']] then some suffix else none
  else none

namespace ResultsTree

variable (tree : ResultsTree) (p : RunPath) (scenarioId : Text) (change : ScenarioFiles → ScenarioFiles)

@[simp] theorem dir_edit : (tree.edit p scenarioId change).dir p scenarioId = change (tree.dir p scenarioId) := by
  simp [edit, dir]

theorem dir_edit_ne {q : RunPath} (other : q ≠ p) : (tree.edit p scenarioId change).dir q = tree.dir q := by
  simp [edit, dir, AList.lookup_insert_ne other]

@[simp] theorem mem_edit {q : RunPath} : q ∈ tree.edit p scenarioId change ↔ q = p ∨ q ∈ tree := by
  simp [edit]

@[simp] theorem dir_makeDir (q : RunPath) : (tree.makeDir p).dir q = tree.dir q := by
  unfold makeDir
  split_ifs with present
  · rfl
  · by_cases same : q = p
    · subst same
      simp [dir, AList.lookup_eq_none.mpr present]
    · simp [dir, AList.lookup_insert_ne same]

@[simp] theorem mem_makeDir {q : RunPath} : q ∈ tree.makeDir p ↔ q = p ∨ q ∈ tree := by
  unfold makeDir
  split_ifs with present
  · exact ⟨.inr, fun member => member.elim (fun same => same ▸ present) id⟩
  · simp

end ResultsTree

theorem isValidRunDir_congr {dir other : RunDir} {scenarioId : Text}
    (metaJson : (dir scenarioId).metaJson = (other scenarioId).metaJson)
    (benchCsv : (dir scenarioId).benchCsv = (other scenarioId).benchCsv) :
    isValidRunDir dir scenarioId = isValidRunDir other scenarioId := by
  unfold isValidRunDir
  rw [metaJson, benchCsv]

theorem isValidRunDir_noMeta {dir : RunDir} {scenarioId : Text}
    (none : (dir scenarioId).metaJson = none) : isValidRunDir dir scenarioId = .ok false := by
  unfold isValidRunDir
  rw [none]

theorem isValidRunDir_unreadable {dir : RunDir} {scenarioId : Text} {file : JsonFile}
    (present : (dir scenarioId).metaJson = some file) (unreadable : file.load = none) :
    isValidRunDir dir scenarioId = .ok false := by
  unfold isValidRunDir
  rw [present]
  cases (dir scenarioId).benchCsv with
  | none => rfl
  | some bench => simp only [unreadable]

section Document

variable {dir : RunDir} {scenarioId status : Text} {doc : Json}
  (present : (dir scenarioId).metaJson = some (.document doc))
  (read : doc.get "status".toList (.str "completed".toList) = .ok (.str status))

include present read

theorem isValidRunDir_otherStatus (other : status ≠ "completed".toList) :
    isValidRunDir dir scenarioId = .ok false := by
  unfold isValidRunDir
  rw [present]
  cases (dir scenarioId).benchCsv with
  | none => rfl
  | some bench =>
    simp only [JsonFile.load, read, bind, Except.bind, Json.isStr, decide_eq_true_eq, other, if_false]
    rfl

theorem isValidRunDir_completed (completed : status = "completed".toList) {bench : Text}
    {rows : List (BenchRow Double)} (file : (dir scenarioId).benchCsv = some bench)
    (rowsRead : readBenchCsv (some bench) = .ok rows) (nonempty : rows ≠ []) :
    isValidRunDir dir scenarioId = .ok true := by
  unfold isValidRunDir
  rw [present, file]
  simp only [JsonFile.load, read, bind, Except.bind, Json.isStr, decide_eq_true_eq, completed, if_true,
    rowsRead]
  simp [nonempty, pure, Except.pure]

end Document

theorem isValidRunDir_document {dir : RunDir} {scenarioId bench : Text} {doc : Json}
    (present : (dir scenarioId).metaJson = some (.document doc))
    (file : (dir scenarioId).benchCsv = some bench) :
    isValidRunDir dir scenarioId = (doc.get "status".toList (.str "completed".toList)).bind fun status =>
      if status.isStr "completed".toList then
        (readBenchCsv (some bench)).bind fun (rows : List (BenchRow Double)) => .ok (decide (rows ≠ []))
      else .ok false := by
  unfold isValidRunDir
  rw [present, file]
  rfl

theorem hintedDirs_sublist (tree : ResultsTree) (scenarioId : Text) (hint : Option Text) :
    (hintedDirs tree scenarioId hint).Sublist tree.keys := by
  unfold hintedDirs
  split
  · exact List.nil_sublist _
  · split_ifs
    · exact List.nil_sublist _
    · exact List.filter_sublist

theorem candidates_sublist (tree : ResultsTree) (scenarioId : Text) (hint : Option Text) :
    (candidates tree scenarioId hint).Sublist tree.keys := by
  unfold candidates
  split_ifs
  · exact hintedDirs_sublist tree scenarioId hint
  · exact List.filter_sublist

theorem candidates_nodup (tree : ResultsTree) (scenarioId : Text) (hint : Option Text) :
    (candidates tree scenarioId hint).Nodup :=
  (candidates_sublist tree scenarioId hint).nodup tree.keys_nodup

theorem mem_of_mem_candidates {tree : ResultsTree} {scenarioId : Text} {hint : Option Text} {p : RunPath}
    (member : p ∈ candidates tree scenarioId hint) : p ∈ tree :=
  AList.mem_keys.mpr ((candidates_sublist tree scenarioId hint).subset member)

variable {tree : ResultsTree} {scenarioId : Text} {hint : Option Text}

theorem hintedDirs_some {label : Text} (nonempty : label ≠ []) :
    hintedDirs tree scenarioId (some label) =
      tree.keys.filter fun p => p.campaign = label ∧ p.scenario = scenarioId := by
  unfold hintedDirs
  dsimp only
  rw [if_neg nonempty]

theorem candidates_hinted (applies : hintedDirs tree scenarioId hint ≠ []) :
    candidates tree scenarioId hint = hintedDirs tree scenarioId hint := by
  unfold candidates
  rw [if_pos applies]

theorem candidates_unhinted (empty : hintedDirs tree scenarioId hint = []) :
    candidates tree scenarioId hint = tree.keys.filter fun p => Glob.fnmatch p.scenario scenarioId := by
  unfold candidates
  rw [if_neg (not_not.mpr empty)]

theorem latestValidRunDir_ok {p : RunPath} :
    latestValidRunDir tree scenarioId hint = .ok p ↔
      p ∈ candidates tree scenarioId hint ∧ tree.isValid scenarioId p = .ok true ∧
        ∀ q ∈ candidates tree scenarioId hint, p < q → tree.isValid scenarioId q = .ok false := by
  rw [← Search.findM?_descending_some (candidates_nodup tree scenarioId hint)]
  unfold latestValidRunDir
  generalize (Search.descending (candidates tree scenarioId hint)).findM? (tree.isValid scenarioId) = search
  cases search with
  | error e => simp [bind, Except.bind]
  | ok found => cases found <;> simp [bind, Except.bind, pure, Except.pure]

end PqcLab
