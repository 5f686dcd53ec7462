import PqcLab.Analysis.Outputs

/-! `inspect_ab.py`, after any sequence of runs of the summarisers. -/

namespace PqcLab

/-- One run of a summariser; a name that it is given for its output has no slash. -/
inductive Invocation
  | list (program : ListProgram) (tree : ResultsTree) (listfiles : Text → Option Text) (args : List Text)
    (noSlash : ∀ name ∈ args.tail, '/' ∉ name)
  | campaignBCore (tree : ResultsTree) (baseExists : Text → Bool)

def Invocation.run (py : PyStr) (home : Text) : Invocation → Outputs → Ended × Outputs
  | .list program tree listfiles args _ => program.main py home tree listfiles args
  | .campaignBCore tree baseExists => SummarizeCampaignBCore.main py home tree baseExists

def outputsAfter (py : PyStr) (home : Text) (runs : List Invocation) (start : Outputs) : Outputs :=
  runs.foldl (fun outputs run => (run.run py home outputs).2) start

namespace InspectAb

def repo (home : Text) : Text := home ++ "/pki-pqc-lab".toList

/-- The text of `{r[key]}` in an f-string. -/
def shown (row : Text → Option (Option Text)) (key : Text) : Except PyError Text :=
  match row key with
  | none => .error (.keyError key)
  | some none => .ok "None".toList
  | some (some s) => .ok s

def pieces : List (Text × Text) :=
  [("scenario_id", "\n  campaign="), ("campaign", " runs="), ("runs", " success="),
    ("success_rate", "\n  elapsed_mean_ms="), ("elapsed_mean_ms", " p95="), ("elapsed_p95_ms", "\n  bytes_read_mean="),
    ("bytes_read_mean", " bytes_written_mean="), ("bytes_written_mean", "\n  chain_len_unique="),
    ("chain_len_unique", " chain_bytes_unique="), ("chain_bytes_unique", "\n  served_chain_der_bytes="),
    ("served_chain_der_bytes", "\n  root="), ("root_alg", "("), ("root_der_bytes", ") intermediate="),
    ("intermediate_alg", "("), ("intermediate_der_bytes", ") leaf="), ("leaf_alg", "("),
    ("leaf_der_bytes", ")\n")].map fun piece => (piece.1.toList, piece.2.toList)

def block (row : Text → Option (Option Text)) : Except PyError Text := do
  let texts ← pieces.mapM fun piece => (shown row piece.1).map (· ++ piece.2)
  return texts.flatten ++ ['\n']

def csvRow : Except Csv.Error (Text → Option (Option Text)) → Except PyError (Text → Option (Option Text))
  | .error e => .error (.csvError e)
  | .ok row => .ok row

def readCsv (outputs : Outputs) (path : Text) : Except PyError (List (Text → Option (Option Text))) :=
  match outputs path with
  | some (.csv text) => (Csv.dictReader text).mapM csvRow
  | _ => .error (.fileNotFoundError path)

def rule : Text := List.replicate 100 '=' ++ ['\n']

def report (outputs : Outputs) (home outputName : Text) : Except PyError Text := do
  let path := outputPath (repo home) outputName "csv".toList
  let rows ← readCsv outputs path
  let blocks ← rows.mapM block
  return rule ++ fileName path ++ '\n' :: (rule ++ blocks.flatten)

def main (home : Text) (outputs : Outputs) : Except PyError Text := do
  let campaignA ← report outputs home "campaign_A".toList
  let campaignB ← report outputs home "campaign_B_full".toList
  return campaignA ++ campaignB

def csvPath (home outputName : Text) : Text := outputPath (repo home) outputName "csv".toList

theorem csvPath_ne_json (home outputName other : Text) :
    csvPath home outputName ≠ outputPath (repo home) other "json".toList := by
  intro same
  have last := congrArg List.getLast? same
  have csv : "csv".toList.getLast? = some 'v' := by decide
  have json : "json".toList.getLast? = some 'n' := by decide
  simp only [csvPath, outputPath, List.getLast?_append, csv, json, Option.some_or] at last
  exact absurd last (by decide)

theorem csvPath_ne_csv {outputName other : Text} (different : outputName ≠ other) (home : Text) :
    csvPath home outputName ≠ outputPath (repo home) other "csv".toList := by
  intro same
  simp only [csvPath, outputPath, List.append_assoc, List.append_cancel_left_eq] at same
  exact different (List.append_cancel_right same)

/-- The other `REPO` is another directory of the same home. -/
theorem csvPath_ne_list (home outputName other extension : Text) :
    csvPath home outputName ≠ outputPath (SummarizeList.repo home) other extension := by
  intro same
  simp only [csvPath, outputPath, repo, SummarizeList.repo, List.append_assoc, List.append_cancel_left_eq] at same
  have second := congrArg (fun path => path[1]?) same
  exact absurd second (by simp)

variable {py : PyStr} {home : Text}

theorem writeOutputs_frame {repo : Text} {fieldnames : List Text} {outputName : Text} {summaries : List Dict}
    {outputs : Outputs} {path : Text} (json : path ≠ outputPath repo outputName "json".toList)
    (csv : path ≠ outputPath repo outputName "csv".toList) :
    (writeOutputs py repo fieldnames outputName summaries outputs).2 path = outputs path := by
  unfold writeOutputs
  dsimp only
  rw [Function.update_of_ne csv, Function.update_of_ne json]

def Writes (home : Text) (run : Invocation) (outputName : Text) (summaries : List Dict) : Prop :=
  ∃ tree listfiles args noSlash, run = .list .summarizeListPerf tree listfiles args noSlash ∧
    ListProgram.summarizeListPerf.Summarized home tree listfiles args outputName summaries

def LastWrite (home : Text) (runs : List Invocation) (outputName : Text) (summaries : List Dict) : Prop :=
  ∃ before run after, runs = before ++ run :: after ∧ Writes home run outputName summaries ∧
    ∀ later ∈ after, ¬ ∃ others, Writes home later outputName others

theorem run_frame {run : Invocation} {outputName : Text} (silent : ¬ ∃ summaries, Writes home run outputName summaries)
    (core : outputName ≠ "campaign_B_core".toList) (outputs : Outputs) :
    (run.run py home outputs).2 (csvPath home outputName) = outputs (csvPath home outputName) := by
  cases run with
  | campaignBCore tree baseExists =>
    change (SummarizeCampaignBCore.main py home tree baseExists outputs).2 _ = _
    unfold SummarizeCampaignBCore.main
    cases SummarizeCampaignBCore.scenarios.mapM (SummarizeCampaignBCore.scenarioSummary tree baseExists) with
    | error e => rfl
    | ok summaries => exact writeOutputs_frame (csvPath_ne_json _ _ _) (csvPath_ne_csv core home)
  | list program tree listfiles args noSlash =>
    change (program.main py home tree listfiles args outputs).2 _ = _
    rcases program.main_cases home tree py listfiles args outputs with same | ⟨other, summaries, given⟩
    · rw [same]
    · rw [program.main_summarized home tree given]
      cases program with
      | summarizeList => exact writeOutputs_frame (csvPath_ne_list _ _ _ _) (csvPath_ne_list _ _ _ _)
      | summarizeListPerf =>
        refine writeOutputs_frame (csvPath_ne_json _ _ _) (csvPath_ne_csv ?_ home)
        rintro rfl
        exact silent ⟨summaries, tree, listfiles, args, noSlash, rfl, given⟩

theorem outputsAfter_frame {runs : List Invocation} {outputName : Text}
    (silent : ∀ run ∈ runs, ¬ ∃ summaries, Writes home run outputName summaries)
    (core : outputName ≠ "campaign_B_core".toList) (start : Outputs) :
    outputsAfter py home runs start (csvPath home outputName) = start (csvPath home outputName) := by
  induction runs generalizing start with
  | nil => rfl
  | cons run runs ih =>
    rw [outputsAfter, List.foldl_cons]
    exact (ih (fun later member => silent later (by simp [member])) _).trans
      (run_frame (silent run (by simp)) core start)

def csvOf (py : PyStr) (summaries : List Dict) : Text :=
  Csv.writeRow SummarizeListPerf.fieldnames ++ (writeRows py SummarizeListPerf.fieldnames summaries).1

theorem Writes.tabular {run : Invocation} {outputName : Text} {summaries : List Dict}
    (writes : Writes home run outputName summaries) :
    ∀ summary ∈ summaries, Tabular SummarizeListPerf.fieldnames summary := by
  intro summary member
  obtain ⟨tree, listfiles, args, -, -, listfile, file, -, -, returned⟩ := writes
  obtain ⟨entry, -, made⟩ := Except.of_mem_mapM returned member
  exact ListProgram.summarizeListPerf.summary_tabular home tree made

theorem LastWrite.tabular {runs : List Invocation} {outputName : Text} {summaries : List Dict}
    (last : LastWrite home runs outputName summaries) :
    ∀ summary ∈ summaries, Tabular SummarizeListPerf.fieldnames summary := by
  obtain ⟨_, _, _, _, writes, _⟩ := last
  exact writes.tabular

theorem LastWrite.csv {runs : List Invocation} {outputName : Text} {summaries : List Dict}
    (last : LastWrite home runs outputName summaries) (core : outputName ≠ "campaign_B_core".toList)
    (start : Outputs) :
    outputsAfter py home runs start (csvPath home outputName) = some (.csv (csvOf py summaries)) := by
  obtain ⟨before, run, after, rfl, writes, silent⟩ := last
  have tabular : ∀ summary ∈ summaries, Tabular ListProgram.summarizeListPerf.fieldnames summary := writes.tabular
  obtain ⟨tree, listfiles, args, noSlash, rfl, given⟩ := writes
  have split : outputsAfter py home (before ++ .list .summarizeListPerf tree listfiles args noSlash :: after) start =
      outputsAfter py home after (ListProgram.summarizeListPerf.main py home tree listfiles args
        (outputsAfter py home before start)).2 := by
    unfold outputsAfter
    rw [List.foldl_append]
    rfl
  rw [split, outputsAfter_frame silent core, ListProgram.summarizeListPerf.main_summarized home tree given,
    writeOutputs_ok _ _ _ tabular]
  exact Function.update_self _ _ _

def summaryBlock (py : PyStr) (summary : Dict) : Text :=
  (pieces.map fun piece => py.column (joinUnique summary) piece.1 ++ piece.2).flatten ++ ['\n']

def page (py : PyStr) (name : Text) (summaries : List Dict) : Text :=
  rule ++ name ++ '\n' :: (rule ++ (summaries.map (summaryBlock py)).flatten)

theorem pieces_columns : ∀ piece ∈ pieces, piece.1 ∈ SummarizeListPerf.fieldnames := by
  have all : pieces.all (fun piece => SummarizeListPerf.fieldnames.contains piece.1) = true := by decide +kernel
  exact fun piece member => List.contains_iff_mem.mp (List.all_eq_true.mp all piece member)

theorem block_holds {summary : Dict} {row : Text → Option (Option Text)}
    (tabular : Tabular SummarizeListPerf.fieldnames summary) (holds : Holds py summary row) :
    block row = .ok (summaryBlock py summary) := by
  have each : pieces.mapM (fun piece => (shown row piece.1).map (· ++ piece.2)) =
      .ok (pieces.map fun piece => py.column (joinUnique summary) piece.1 ++ piece.2) := by
    apply Except.mapM_ok
    intro piece member
    obtain ⟨entry, inside, same⟩ :=
      List.mem_map.mp ((tabular.joinUnique.columns piece.1).mp (pieces_columns piece member))
    have value := holds.values entry inside
    rw [← same, column_of_mem tabular.joinUnique.keys inside, shown, value]
    rfl
  unfold block
  rw [each]
  rfl

theorem report_last {runs : List Invocation} {outputName : Text} {summaries : List Dict}
    (last : LastWrite home runs outputName summaries) (core : outputName ≠ "campaign_B_core".toList)
    (noSlash : '/' ∉ outputName) (readable : ∀ summary ∈ summaries, Readable py summary) (start : Outputs) :
    report (outputsAfter py home runs start) home outputName =
      .ok (page py (outputName ++ "_summary.csv".toList) summaries) := by
  have tabular := last.tabular
  obtain ⟨rows, read, holds⟩ := dictReader_writeRows ListProgram.summarizeListPerf.fieldnames_ne_nil
    ListProgram.summarizeListPerf.fieldnames_fit tabular readable
  have rowsRead : readCsv (outputsAfter py home runs start) (csvPath home outputName) = .ok rows := by
    have each : (rows.map Except.ok).mapM csvRow = .ok rows := by
      rw [List.mapM_map]
      exact (Except.mapM_ok fun row _ => rfl).trans (congrArg Except.ok (List.map_id rows))
    rw [readCsv, last.csv core]
    exact (congrArg (fun records => records.mapM csvRow) read).trans each
  have blocks : rows.mapM block = .ok (summaries.map (summaryBlock py)) := by
    apply Except.mapM_ok_iff.mpr
    rw [List.forall₂_map_right_iff]
    clear read rowsRead readable last
    induction holds with
    | nil => exact .nil
    | cons first others ih =>
      exact .cons (block_holds (tabular _ (by simp)) first) (ih fun s member => tabular s (by simp [member]))
  have name : fileName (csvPath home outputName) = outputName ++ "_summary.csv".toList :=
    OutputName.fileName ⟨outputName, noSlash⟩ (repo home) (by decide)
  unfold report
  dsimp only
  change (do
    let rows ← readCsv (outputsAfter py home runs start) (csvPath home outputName)
    let blocks ← rows.mapM block
    return rule ++ fileName (csvPath home outputName) ++ '\n' :: (rule ++ blocks.flatten)) = _
  rw [rowsRead, name]
  change (do
    let blocks ← rows.mapM block
    return rule ++ (outputName ++ "_summary.csv".toList) ++ '\n' :: (rule ++ blocks.flatten)) = _
  rw [blocks]
  rfl

/-- Whatever the summarisers did before and in between, the report shows the summaries of the last run that
wrote each of its files, in the order of that run's list. -/
theorem report_shows_last_writes (py : PyStr) (home : Text) (start : Outputs) {runs : List Invocation}
    {campaignA campaignB : List Dict} (lastA : LastWrite home runs "campaign_A".toList campaignA)
    (lastB : LastWrite home runs "campaign_B_full".toList campaignB)
    (readable : ∀ summary ∈ campaignA ++ campaignB, Readable py summary) :
    main home (outputsAfter py home runs start) =
      .ok (page py "campaign_A_summary.csv".toList campaignA ++
        page py "campaign_B_full_summary.csv".toList campaignB) := by
  have first := report_last lastA (by decide) (by decide)
    (fun summary member => readable summary (by simp [member])) start
  have second := report_last lastB (by decide) (by decide)
    (fun summary member => readable summary (by simp [member])) start
  unfold main
  rw [first, second]
  rfl

/-- Both files are written from one list; between them the other summariser writes under the same name. -/
theorem report_shows_last_writes_quick : ∃ runs summary,
    LastWrite "/home/lab".toList runs "campaign_A".toList [summary] ∧
      main "/home/lab".toList (outputsAfter samplePy "/home/lab".toList runs fun _ => none) =
        .ok (page samplePy "campaign_A_summary.csv".toList [summary] ++
          page samplePy "campaign_B_full_summary.csv".toList [summary]) := by
  obtain ⟨summary, returned, readable, -⟩ := quick_summary
  let listfiles : Text → Option Text := fun _ => some "profiles/scenarios/quick.json\n".toList
  have listed : ListFile.loadListfile "profiles/scenarios/quick.json\n".toList =
      ["profiles/scenarios/quick.json".toList] := by decide +kernel
  have given (outputName : Text) : ListProgram.summarizeListPerf.Summarized "/home/lab".toList quickTree listfiles
      ["one.list".toList, outputName] outputName [summary] :=
    ⟨"one.list".toList, _, .inl rfl, rfl, by rw [listed]; exact .cons returned .nil⟩
  let campaignA : Invocation :=
    .list .summarizeListPerf quickTree listfiles ["one.list".toList, "campaign_A".toList] (by decide)
  let other : Invocation :=
    .list .summarizeList quickTree listfiles ["one.list".toList, "campaign_A".toList] (by decide)
  let campaignB : Invocation :=
    .list .summarizeListPerf quickTree listfiles ["one.list".toList, "campaign_B_full".toList] (by decide)
  have otherSilent (outputName : Text) : ¬ ∃ summaries, Writes "/home/lab".toList other outputName summaries := by
    rintro ⟨summaries, tree, files, args, _, same, -⟩
    obtain ⟨program, -⟩ := Invocation.list.inj same
    cases program
  have silent : ¬ ∃ summaries, Writes "/home/lab".toList campaignB "campaign_A".toList summaries := by
    rintro ⟨summaries, tree, files, args, _, same, listfile, file, named, -⟩
    obtain ⟨-, -, -, rfl⟩ := Invocation.list.inj same
    rcases named with named | ⟨named, -⟩
    · simp at named
    · simp at named
  have lastA : LastWrite "/home/lab".toList [campaignA, other, campaignB] "campaign_A".toList [summary] := by
    refine ⟨[], campaignA, [other, campaignB], rfl, ⟨_, _, _, _, rfl, given _⟩, ?_⟩
    simpa using And.intro (not_exists.mp (otherSilent _)) (not_exists.mp silent)
  have lastB : LastWrite "/home/lab".toList [campaignA, other, campaignB] "campaign_B_full".toList [summary] :=
    ⟨[campaignA, other], campaignB, [], rfl, ⟨_, _, _, _, rfl, given _⟩, by simp⟩
  exact ⟨_, summary, lastA, report_shows_last_writes samplePy _ _ lastA lastB (by simpa using readable)⟩

end InspectAb

end PqcLab
