import PqcLab.Analysis.Perf
import PqcLab.Analysis.Results

/-! `scenario_summary` of the three summarisers. -/

namespace PqcLab

open Binary64

/-- `doc[block][key]` -/
def Json.blockItem (doc : Json) (block key : Text) : Except PyError Json := do
  (← doc.getItem block).getItem key

/-- `None if chain["intermediate"] is None else chain["intermediate"][key]` -/
def intermediateItem (chain : Json) (key : Text) : Except PyError Json := do
  let intermediate ← chain.getItem "intermediate".toList
  if intermediate.isNull then return .null else intermediate.getItem key

/-- `open(meta_path)` and `json.load` -/
def loadMeta (files : ScenarioFiles) : Except PyError Json :=
  match files.metaJson with
  | none => .error (.fileNotFoundError "No such file or directory".toList)
  | some file => match file.load with
    | none => .error .valueError
    | some doc => .ok doc

def readRows (files : ScenarioFiles) : Except PyError (List (BenchRow Double)) :=
  readBenchCsv files.benchCsv

/-- `if not bench: raise` -/
def requireRows (scenarioId : Text) (bench : List (BenchRow Double)) : Except PyError Unit :=
  if bench = [] then .error (.statisticsError ("No bench rows for ".toList ++ scenarioId)) else .ok ()

structure ChainFields where
  servedChainDerBytes : Json
  rootAlg : Json
  rootDerBytes : Json
  intermediateAlg : Json
  intermediateDerBytes : Json
  leafAlg : Json
  leafDerBytes : Json

def chainFields (chain : Json) : Except PyError ChainFields := do
  let servedChainDerBytes ← chain.blockItem "served_chain".toList "der_bytes".toList
  let rootAlg ← chain.blockItem "root".toList "algorithm".toList
  let rootDerBytes ← chain.blockItem "root".toList "der_bytes".toList
  let intermediateAlg ← intermediateItem chain "algorithm".toList
  let intermediateDerBytes ← intermediateItem chain "der_bytes".toList
  let leafAlg ← chain.blockItem "leaf".toList "algorithm".toList
  let leafDerBytes ← chain.blockItem "leaf".toList "der_bytes".toList
  return { servedChainDerBytes, rootAlg, rootDerBytes, intermediateAlg, intermediateDerBytes, leafAlg,
           leafDerBytes }

namespace SummarizeList

structure Summary where
  scenarioId : Text
  campaign : Json
  status : Json
  figures : BenchFigures Double
  chain : ChainFields
  runDir : RunPath
  pcapFile : Json
  perfClient : PerfMetrics
  perfServer : PerfMetrics

/-- `scenario_summary`, once a run directory is selected. -/
def summarizeRunDir (files : ScenarioFiles) (runDir : RunPath) (scenarioId : Text) :
    Except PyError Summary := do
  let bench ← readRows files
  let doc ← loadMeta files
  requireRows scenarioId bench
  let chainDoc ← doc.getItem "chain".toList
  let perfClient := parsePerfCsv files.perfClientCsv
  let perfServer := parsePerfCsv files.perfServerCsv
  let campaign ← doc.get "campaign".toList .null
  let status ← doc.get "status".toList .null
  let figures ← benchFigures bench
  let chain ← chainFields chainDoc
  let pcapFile ← doc.blockItem "outputs".toList "pcap_file".toList
  let perfClient ← perfMetrics perfClient
  let perfServer ← perfMetrics perfServer
  return { scenarioId, campaign, status, figures, chain, runDir, pcapFile, perfClient, perfServer }

def scenarioSummary (tree : ResultsTree) (scenarioId : Text) (campaignHint : Option Text) :
    Except PyError Summary := do
  let runDir ← latestValidRunDir tree scenarioId campaignHint
  summarizeRunDir (tree.dir runDir scenarioId) runDir scenarioId

end SummarizeList

namespace SummarizeListPerf

structure Summary where
  scenarioId : Text
  campaign : Json
  status : Json
  figures : BenchFigures Double
  chain : ChainFields
  perf : PerfMetrics
  runDir : RunPath
  pcapFile : Json

/-- Here the rates are computed before the figures and the chain fields. -/
def summarizeRunDir (files : ScenarioFiles) (runDir : RunPath) (scenarioId : Text) :
    Except PyError Summary := do
  let bench ← readRows files
  let doc ← loadMeta files
  requireRows scenarioId bench
  let chainDoc ← doc.getItem "chain".toList
  let perf ← perfMetrics (parsePerfCsv files.perfClientCsv)
  let campaign ← doc.get "campaign".toList .null
  let status ← doc.get "status".toList .null
  let figures ← benchFigures bench
  let chain ← chainFields chainDoc
  let pcapFile ← doc.blockItem "outputs".toList "pcap_file".toList
  return { scenarioId, campaign, status, figures, chain, perf, runDir, pcapFile }

end SummarizeListPerf

namespace SummarizeCampaignBCore

structure Summary where
  scenarioId : Text
  runDir : RunPath
  figures : BenchFigures Double
  servedChainDerBytes : Json
  rootAlg : Json
  intermediateAlg : Json
  leafAlg : Json
  perfTaskClockRaw : PerfValue
  pcapFile : Json

/-- Here `chain["intermediate"]` is not tested for `None`. -/
def summarizeRunDir (files : ScenarioFiles) (runDir : RunPath) (scenarioId : Text) :
    Except PyError Summary := do
  let bench ← readRows files
  let doc ← loadMeta files
  requireRows scenarioId bench
  let perfTaskClockRaw := parsePerfTaskClock files.perfClientCsv
  let figures ← benchFigures bench
  let chain ← doc.getItem "chain".toList
  let servedChainDerBytes ← chain.blockItem "served_chain".toList "der_bytes".toList
  let rootAlg ← chain.blockItem "root".toList "algorithm".toList
  let intermediateAlg ← chain.blockItem "intermediate".toList "algorithm".toList
  let leafAlg ← chain.blockItem "leaf".toList "algorithm".toList
  let pcapFile ← doc.blockItem "outputs".toList "pcap_file".toList
  return { scenarioId, runDir, figures, servedChainDerBytes, rootAlg, intermediateAlg, leafAlg,
           perfTaskClockRaw, pcapFile }

end SummarizeCampaignBCore

theorem requireRows_ok {scenarioId : Text} {bench : List (BenchRow Double)} :
    requireRows scenarioId bench = .ok () ↔ bench ≠ [] := by
  unfold requireRows
  split_ifs with empty <;> simp [empty]

variable {files : ScenarioFiles} {runDir : RunPath} {scenarioId : Text} {rows : List (BenchRow Double)}
  {doc chain : Json}

theorem chainFields_ok {fields : ChainFields} (read : chainFields chain = .ok fields) :
    chain.blockItem "served_chain".toList "der_bytes".toList = .ok fields.servedChainDerBytes ∧
      chain.blockItem "root".toList "algorithm".toList = .ok fields.rootAlg ∧
      chain.blockItem "root".toList "der_bytes".toList = .ok fields.rootDerBytes ∧
      intermediateItem chain "algorithm".toList = .ok fields.intermediateAlg ∧
      intermediateItem chain "der_bytes".toList = .ok fields.intermediateDerBytes ∧
      chain.blockItem "leaf".toList "algorithm".toList = .ok fields.leafAlg ∧
      chain.blockItem "leaf".toList "der_bytes".toList = .ok fields.leafDerBytes := by
  obtain ⟨_, served, read⟩ := Except.of_bind_ok read
  obtain ⟨_, rootAlg, read⟩ := Except.of_bind_ok read
  obtain ⟨_, rootDerBytes, read⟩ := Except.of_bind_ok read
  obtain ⟨_, intermediateAlg, read⟩ := Except.of_bind_ok read
  obtain ⟨_, intermediateDerBytes, read⟩ := Except.of_bind_ok read
  obtain ⟨_, leafAlg, read⟩ := Except.of_bind_ok read
  obtain ⟨_, leafDerBytes, read⟩ := Except.of_bind_ok read
  injection read with same
  subst same
  exact ⟨served, rootAlg, rootDerBytes, intermediateAlg, intermediateDerBytes, leafAlg, leafDerBytes⟩

namespace SummarizeList

structure MadeOf (files : ScenarioFiles) (runDir : RunPath) (scenarioId : Text) (summary : Summary)
    (rows : List (BenchRow Double)) (doc chain : Json) : Prop where
  read : readRows files = .ok rows
  loaded : loadMeta files = .ok doc
  nonempty : rows ≠ []
  chainDoc : doc.getItem "chain".toList = .ok chain
  campaign : doc.get "campaign".toList .null = .ok summary.campaign
  status : doc.get "status".toList .null = .ok summary.status
  figures : benchFigures rows = .ok summary.figures
  chain : chainFields chain = .ok summary.chain
  pcapFile : doc.blockItem "outputs".toList "pcap_file".toList = .ok summary.pcapFile
  perfClient : perfMetrics (parsePerfCsv files.perfClientCsv) = .ok summary.perfClient
  perfServer : perfMetrics (parsePerfCsv files.perfServerCsv) = .ok summary.perfServer
  id : summary.scenarioId = scenarioId
  dir : summary.runDir = runDir

theorem summarizeRunDir_ok {summary : Summary} :
    summarizeRunDir files runDir scenarioId = .ok summary ↔
      ∃ rows doc chain, MadeOf files runDir scenarioId summary rows doc chain := by
  constructor
  · intro returned
    obtain ⟨rows, read, returned⟩ := Except.of_bind_ok returned
    obtain ⟨doc, loaded, returned⟩ := Except.of_bind_ok returned
    obtain ⟨_, required, returned⟩ := Except.of_bind_ok returned
    obtain ⟨chain, chainDoc, returned⟩ := Except.of_bind_ok returned
    obtain ⟨campaign, campaignRead, returned⟩ := Except.of_bind_ok returned
    obtain ⟨status, statusRead, returned⟩ := Except.of_bind_ok returned
    obtain ⟨figures, computed, returned⟩ := Except.of_bind_ok returned
    obtain ⟨fields, chainRead, returned⟩ := Except.of_bind_ok returned
    obtain ⟨pcapFile, pcapRead, returned⟩ := Except.of_bind_ok returned
    obtain ⟨perfClient, client, returned⟩ := Except.of_bind_ok returned
    obtain ⟨perfServer, server, returned⟩ := Except.of_bind_ok returned
    injection returned with same
    subst same
    exact ⟨rows, doc, chain, read, loaded, requireRows_ok.mp required, chainDoc, campaignRead, statusRead,
      computed, chainRead, pcapRead, client, server, rfl, rfl⟩
  · rintro ⟨rows, doc, chain, made⟩
    unfold summarizeRunDir
    rw [made.read, made.loaded]
    simp only [bind, Except.bind, requireRows_ok.mpr made.nonempty, made.chainDoc, made.campaign, made.status,
      made.figures, made.chain, made.pcapFile, made.perfClient, made.perfServer]
    rw [← made.id, ← made.dir]
    rfl

end SummarizeList

end PqcLab
