import PqcLab.Analysis.Outputs
import PqcLab.Runner.Lab

/-! `run_scenario_list.sh` in the lab, and what the summarisers make of its results. -/

namespace PqcLab.Runner

open Relation (ReflTransGen)

variable {jq : Jq} {s : Scenario}

theorem LabReachable.trans {x y : Lab} (reachable : LabReachable jq x) (steps : ReflTransGen (LabStep jq) x y) :
    LabReachable jq y := by
  obtain ⟨now, year, before⟩ := reachable
  exact ⟨now, year, before.trans steps⟩

/-- The loop of `run_scenario_list.sh` over its entries; the second list is of those that exited with
code 0. -/
inductive ListRun (jq : Jq) (scenarioOf : Text → Scenario) : List Text → List Text → Lab → Lab → Prop
  | done (lab : Lab) : ListRun jq scenarioOf [] [] lab lab
  | next (entry : Text) (rest completed : List Text) (before mid after : Lab)
      (succeeds : Succeeds jq (scenarioOf entry) before mid) (others : ListRun jq scenarioOf rest completed mid after) :
      ListRun jq scenarioOf (entry :: rest) (entry :: completed) before after
  /-- `set -e` -/
  | stops (entry : Text) (rest : List Text) (before after : Lab) (steps : ReflTransGen (LabStep jq) before after) :
      ListRun jq scenarioOf (entry :: rest) [] before after

section ListRun

variable {scenarioOf : Text → Scenario} {entries done : List Text} {before after : Lab}

theorem ListRun.steps (run : ListRun jq scenarioOf entries done before after) :
    ReflTransGen (LabStep jq) before after := by
  induction run with
  | done => exact .refl
  | next entry rest completed before mid after succeeds others ih => exact succeeds.steps.trans ih
  | stops entry rest before after steps => exact steps

theorem ListRun.fresh (run : ListRun jq scenarioOf entries done before after) :
    ∀ entry ∈ done, ∃ c ∈ (after.process (scenarioOf entry)).completed, before.shared.now ≤ c.time := by
  induction run with
  | done => simp
  | stops => simp
  | next entry rest completed before mid after succeeds others ih =>
    intro other member
    rcases List.mem_cons.mp member with rfl | member
    · obtain ⟨c, inside, fresh⟩ := succeeds.fresh
      exact ⟨c, (lab_grows others.steps _).2.subset inside, fresh⟩
    · obtain ⟨c, inside, fresh⟩ := ih other member
      exact ⟨c, inside, (lab_grows succeeds.steps (scenarioOf entry)).1.trans fresh⟩

end ListRun

def OneCampaign (tree : ResultsTree) (s : Scenario) : Prop :=
  ∀ p ∈ tree, p.scenario = s.scenarioId → p.campaign = s.campaign

theorem mem_hintedDirs {tree : ResultsTree} {scenarioId : Text} {hint : Option Text} {p : RunPath} :
    p ∈ hintedDirs tree scenarioId hint ↔
      p ∈ tree ∧ p.scenario = scenarioId ∧ p.campaign ≠ [] ∧ hint = some p.campaign := by
  cases hint with
  | none => simp [hintedDirs]
  | some label =>
    by_cases empty : label = []
    · subst empty
      simp [hintedDirs, eq_comm]
    · rw [hintedDirs_some empty, List.mem_filter, AList.mem_keys, decide_eq_true_iff, Option.some.injEq]
      constructor
      · rintro ⟨member, rfl, own⟩
        exact ⟨member, own, empty, rfl⟩
      · rintro ⟨member, own, -, rfl⟩
        exact ⟨member, rfl, own⟩

theorem LabReachable.newest_selected {lab : Lab} (reachable : LabReachable jq lab) {last : Completion}
    {rest : List Completion} (completed : (lab.process s).completed = last :: rest)
    (itself : Glob.fnmatch s.scenarioId s.scenarioId = true) (one : OneCampaign lab.shared.tree s)
    (hint : Option Text) :
    latestValidRunDir lab.shared.tree s.scenarioId hint = .ok (s.path last.time) := by
  obtain ⟨present, -, newest⟩ := reachable.newest completed
  have candidate : s.path last.time ∈ candidates lab.shared.tree s.scenarioId hint := by
    by_cases unhinted : hintedDirs lab.shared.tree s.scenarioId hint = []
    · rw [candidates_unhinted unhinted, List.mem_filter]
      exact ⟨AList.mem_keys.mp present, itself⟩
    · rw [candidates_hinted unhinted]
      obtain ⟨p, member⟩ := List.exists_mem_of_ne_nil _ unhinted
      obtain ⟨inside, own, labelled, hinted⟩ := mem_hintedDirs.mp member
      have label := one p inside own
      exact mem_hintedDirs.mpr ⟨present, rfl, ne_of_eq_of_ne label.symm labelled,
        hinted.trans (congrArg some label)⟩
  apply (reachable.selected_iff _ _ _).mpr
  refine ⟨⟨candidate, rfl, .of_mem (by rw [completed]; simp)⟩, ?_⟩
  rintro p ⟨member, own, done⟩
  obtain ⟨c, inside, rfl⟩ := done.owned (s := s) ⟨one p (mem_of_mem_candidates member) own, own⟩
  exact (newest c inside).2

structure Reports (repo : Text) (s : Scenario) (c : Completion) (summary : Dict) : Prop where
  scenarioId : ("scenario_id".toList, .text s.scenarioId) ∈ summary
  runDir : ("run_dir".toList, .text ((s.path c.time).text repo)) ∈ summary
  figures : ∃ rows figures, readBenchCsv (some c.bench) = .ok rows ∧ benchFigures rows = .ok figures ∧
    figureCells figures ⊆ summary

theorem summary_reports (program : ListProgram) {home : Text} {tree : ResultsTree} {scenarioId : Text}
    {hint : Option Text} {p : RunPath} (selected : latestValidRunDir tree scenarioId hint = .ok p) {row : Dict}
    (returned : program.summary home tree scenarioId hint = .ok row) :
    ("scenario_id".toList, .text scenarioId) ∈ row ∧
      ("run_dir".toList, .text (p.text (program.repo home))) ∈ row ∧
      ∃ rows figures, readBenchCsv (tree.dir p scenarioId).benchCsv = .ok rows ∧
        benchFigures rows = .ok figures ∧ figureCells figures ⊆ row := by
  cases program with
  | summarizeList =>
    obtain ⟨summary, computed, rfl⟩ := Except.of_map_ok returned
    unfold SummarizeList.scenarioSummary at computed
    rw [selected] at computed
    obtain ⟨rows, doc, chain, made⟩ := SummarizeList.summarizeRunDir_ok.mp computed
    refine ⟨?_, ?_, rows, summary.figures, made.read, made.figures, ?_⟩
    · rw [← made.id]
      simp [SummarizeList.Summary.dict]
    · rw [← made.dir]
      simp [SummarizeList.Summary.dict, ListProgram.repo]
    · intro cell member
      simp [SummarizeList.Summary.dict, member]
  | summarizeListPerf =>
    obtain ⟨summary, computed, rfl⟩ := Except.of_map_ok returned
    unfold SummarizeListPerf.scenarioSummary at computed
    rw [selected] at computed
    change SummarizeListPerf.summarizeRunDir (tree.dir p scenarioId) p scenarioId = .ok summary at computed
    obtain ⟨rows, read, computed⟩ := Except.of_bind_ok computed
    obtain ⟨doc, _, computed⟩ := Except.of_bind_ok computed
    obtain ⟨_, _, computed⟩ := Except.of_bind_ok computed
    obtain ⟨chain, _, computed⟩ := Except.of_bind_ok computed
    obtain ⟨perf, _, computed⟩ := Except.of_bind_ok computed
    obtain ⟨campaign, _, computed⟩ := Except.of_bind_ok computed
    obtain ⟨status, _, computed⟩ := Except.of_bind_ok computed
    obtain ⟨figures, made, computed⟩ := Except.of_bind_ok computed
    obtain ⟨fields, _, computed⟩ := Except.of_bind_ok computed
    obtain ⟨pcapFile, _, computed⟩ := Except.of_bind_ok computed
    injection computed with same
    subst same
    refine ⟨?_, ?_, rows, figures, read, made, ?_⟩
    · simp [SummarizeListPerf.Summary.dict]
    · simp [SummarizeListPerf.Summary.dict, ListProgram.repo]
    · intro cell member
      simp [SummarizeListPerf.Summary.dict, member]

/-- After a run of a list, each entry that ended with code 0 is summarised, in its place in the list, from an
execution stamped since the run began, unless the summariser raises. -/
theorem list_run_is_summarised (program : ListProgram) (py : PyStr) (home : Text) {scenarioOf : Text → Scenario}
    {before after : Lab} (reachable : LabReachable jq before) {file : Text} {done : List Text}
    (ran : ListRun jq scenarioOf (ListFile.runScenarioList file) done before after)
    (named : ∀ entry ∈ done,
      (scenarioOf entry).scenarioId = scenarioIdFromListEntry entry ∧
        Glob.fnmatch (scenarioOf entry).scenarioId (scenarioOf entry).scenarioId = true ∧
        OneCampaign after.shared.tree (scenarioOf entry))
    {listfiles : Text → Option Text} {listfile : Text}
    (present : listfiles (listfilePath (program.repo home) listfile) = some file) (outputName : OutputName)
    (outputs : Outputs) :
    (∃ e, program.main py home after.shared.tree listfiles [listfile, outputName.text] outputs = (.raised e, outputs)) ∨
      ∃ summaries written,
        program.main py home after.shared.tree listfiles [listfile, outputName.text] outputs = (.ok, written) ∧
        written (outputPath (program.repo home) outputName.text "json".toList) = some (.json summaries) ∧
        List.Forall₂ (fun entry summary => entry ∈ done →
            ∃ c ∈ (after.process (scenarioOf entry)).completed, before.shared.now ≤ c.time ∧
              Reports (program.repo home) (scenarioOf entry) c summary)
          (ListFile.loadListfile file) summaries := by
  have reached := reachable.trans ran.steps
  rw [program.main_listfile home _ present]
  cases computed : (ListFile.loadListfile file).mapM (program.entrySummary home after.shared.tree listfile) with
  | error e => exact .inl ⟨e, rfl⟩
  | ok summaries =>
    have returned := Except.mapM_ok_iff.mp computed
    have tabular : ∀ row ∈ summaries, Tabular program.fieldnames row := by
      intro row member
      obtain ⟨entry, -, made⟩ := Except.of_mem_mapM returned member
      exact program.summary_tabular home after.shared.tree made
    refine .inr ⟨summaries, _, writeOutputs_ok _ _ _ tabular, ?_, ?_⟩
    · rw [Function.update_of_ne (outputPath_ne _ _), Function.update_self]
    · apply returned.imp
      intro entry summary made ended
      obtain ⟨own, itself, one⟩ := named entry ended
      obtain ⟨c, member, since⟩ := ran.fresh entry ended
      obtain ⟨last, rest, completed⟩ := List.exists_cons_of_ne_nil (List.ne_nil_of_mem member)
      obtain ⟨_, bench, newest⟩ := reached.newest completed
      have selected := reached.newest_selected completed itself one (campaignHint (stem listfile))
      unfold ListProgram.entrySummary at made
      rw [← own] at made
      obtain ⟨scenarioId, runDir, rows, figures, read, figuresMade, cells⟩ := summary_reports program selected made
      refine ⟨last, by rw [completed]; simp, since.trans (newest c member).1, scenarioId, runDir, rows, figures,
        ?_, figuresMade, cells⟩
      rw [← bench]
      exact read

def chained : Request :=
  { twoRuns with
    chainDoc := .document (.obj [("root".toList, certificate 5543), ("intermediate".toList, .null),
      ("leaf".toList, certificate 5579), ("served_chain".toList, .obj [("der_bytes".toList, .num 5579)])]) }

theorem chained_succeeds : ∃ after, Succeeds decimalJq quick (.empty 0) after ∧
    (∀ p ∈ after.shared.tree, p = quick.path 0) ∧
    ∃ summary, SummarizeListPerf.summarizeRunDir (quick.files after.shared.tree 0) (quick.path 0) "quick".toList =
      .ok summary := by
  let stdout := (Bench.main chained.clientCmd Runner.ready fun _ => .connectFailed).stdout
  have computed : ((quick.metaDoc decimalJq chained 0 0).map fun doc =>
      (SummarizeListPerf.summarizeRunDir { benchCsv := some stdout, metaJson := some (.document doc) }
        (quick.path 0) "quick".toList).toOption.map fun _ => ()) = some (some ()) := by
    decide +kernel
  obtain ⟨doc, accepted, returned⟩ := Option.map_eq_some_iff.mp computed
  obtain ⟨after, succeeds, -, -, members, files⟩ := execution_succeeds chained Runner.ready
    (fun _ => .connectFailed) (by decide +kernel) rfl (Lab.empty 0) rfl accepted (by decide)
  refine ⟨after, succeeds, fun p member => ?_, ?_⟩
  · rcases members p member with same | old
    · exact same
    · cases old
  · obtain ⟨summary, made, -⟩ := ok_of_toOption _ returned
    change quick.files after.shared.tree 0 = _ at files
    rw [files]
    exact ⟨summary, made⟩

theorem chained_summary : ∃ after, Succeeds decimalJq quick (.empty 0) after ∧
    OneCampaign after.shared.tree quick ∧
    ∃ summary, ListProgram.summarizeListPerf.entrySummary "/home/lab".toList after.shared.tree "one.list".toList
      "profiles/scenarios/quick.json".toList = .ok summary := by
  obtain ⟨after, succeeds, members, summary, returned⟩ := chained_succeeds
  have reachable : LabReachable decimalJq after := ⟨0, by decide, succeeds.steps⟩
  have one : OneCampaign after.shared.tree quick := by
    intro p member _
    rw [members p member]
    rfl
  obtain ⟨c, member, -⟩ := succeeds.fresh
  obtain ⟨last, rest, completed⟩ := List.exists_cons_of_ne_nil (List.ne_nil_of_mem member)
  have selected := reachable.newest_selected completed (by decide) one (campaignHint (stem "one.list".toList))
  rw [members _ (reachable.newest completed).1] at selected
  have entry : scenarioIdFromListEntry "profiles/scenarios/quick.json".toList = quick.scenarioId := by
    decide +kernel
  refine ⟨after, succeeds, one, summary.dict (SummarizeListPerf.repo "/home/lab".toList), ?_⟩
  unfold ListProgram.entrySummary ListProgram.summary SummarizeListPerf.scenarioSummary
  dsimp only
  rw [entry, selected]
  exact congrArg (Except.map _) returned

def oneList : Text → Option Text := fun _ => some "profiles/scenarios/quick.json\n".toList

theorem list_run_is_summarised_quick : ∃ after c summary written, Succeeds decimalJq quick (.empty 0) after ∧
    c ∈ (after.process quick).completed ∧
    SummarizeListPerf.main samplePy "/home/lab".toList after.shared.tree
      oneList ["one.list".toList, "one".toList]
      (fun _ => none) = (.ok, written) ∧
    written "/home/lab/pki-pqc-lab/analysis/outputs/one_summary.json".toList = some (.json [summary]) ∧
    Reports "/home/lab/pki-pqc-lab".toList quick c summary := by
  obtain ⟨after, succeeds, one, made, returned⟩ := chained_summary
  have reachable : LabReachable decimalJq (.empty 0) := ⟨0, by decide, .refl⟩
  have listed : ListFile.loadListfile "profiles/scenarios/quick.json\n".toList =
      ["profiles/scenarios/quick.json".toList] := by decide +kernel
  have ran : ListRun decimalJq (fun _ => quick) ["profiles/scenarios/quick.json".toList]
      ["profiles/scenarios/quick.json".toList] (.empty 0) after := .next _ _ _ _ _ _ succeeds (.done _)
  have summarised := @list_run_is_summarised _ .summarizeListPerf samplePy "/home/lab".toList (fun _ => quick)
    _ _ reachable "profiles/scenarios/quick.json\n".toList _ ran
    (by
      intro entry member
      rw [List.mem_singleton.mp member]
      exact ⟨by decide +kernel, by decide, one⟩)
    oneList "one.list".toList rfl ⟨"one".toList, by decide⟩ (fun _ => none)
  rcases summarised with ⟨e, raised⟩ | ⟨summaries, written, ended, json, reported⟩
  · have given : ListProgram.summarizeListPerf.Summarized "/home/lab".toList after.shared.tree oneList
        ["one.list".toList, "one".toList] "one".toList [made] :=
      ⟨_, _, .inl rfl, rfl, by rw [listed]; exact .cons returned .nil⟩
    have tabular : ∀ row ∈ [made], Tabular ListProgram.summarizeListPerf.fieldnames row := by
      intro row member
      rw [List.mem_singleton.mp member]
      exact ListProgram.summarizeListPerf.summary_tabular _ _ returned
    rw [ListProgram.main_summarized _ _ _ given, writeOutputs_ok _ _ _ tabular] at raised
    cases raised
  · rw [listed] at reported
    obtain ⟨summary, rest, reports, none, rfl⟩ := List.forall₂_cons_left_iff.mp reported
    obtain rfl := List.forall₂_nil_left_iff.mp none
    obtain ⟨c, member, -, reports⟩ := reports (by simp)
    exact ⟨after, c, summary, written, succeeds, member, ended, json, reports⟩

end PqcLab.Runner
