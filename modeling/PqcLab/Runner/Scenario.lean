import PqcLab.Analysis.Results
import PqcLab.Bench.Client
import PqcLab.Library.Calendar

/-! `runner/run_scenario.sh`: the commands of one execution. -/

namespace PqcLab.Runner

open Digits

/-- `${name:-default}` -/
def orDefault (setting : Option Text) (default : Text) : Text :=
  match setting with
  | some value => if value = [] then default else value
  | none => default

/-- What the script reads beside the identity of its scenario: the other fields of the scenario's
file, the environment, and the documents it copies. -/
structure Request where
  repoRoot : Text
  scenarioPath : Text
  tlsGroup : Text
  chainProfile : Text
  host : Text
  port : Text
  serverName : Text
  runsJson : Text
  runsOverride : Option Text
  capturePerfClientJson : Text
  capturePerfClientOverride : Option Text
  capturePerfServerJson : Text
  capturePerfServerOverride : Option Text
  capturePcapJson : Text
  capturePcapOverride : Option Text
  generatedAt : Text
  scenarioDoc : JsonFile
  chainDoc : JsonFile

namespace Request

def runsEffective (r : Request) : Text := orDefault r.runsOverride r.runsJson

def capturePerfClient (r : Request) : Text := orDefault r.capturePerfClientOverride r.capturePerfClientJson

def capturePerfServer (r : Request) : Text := orDefault r.capturePerfServerOverride r.capturePerfServerJson

def capturePcap (r : Request) : Text := orDefault r.capturePcapOverride r.capturePcapJson

def profileOutDir (r : Request) : Text :=
  r.repoRoot ++ "/pki_factory/output/".toList ++ r.chainProfile

/-- `CLIENT_CMD`, without the program's own name. -/
def clientCmd (r : Request) : List Text :=
  [r.host, r.port, r.tlsGroup, r.profileOutDir ++ "/certs/root.crt".toList, r.serverName,
    r.runsEffective]

end Request

/-- `STATUS`, from `CLIENT_EXIT_CODE`. -/
def clientStatus (clientExitCode : ℕ) : Text :=
  if clientExitCode = 0 then "completed".toList
  else if clientExitCode = 130 then "interrupted".toList
  else "failed".toList

structure Scenario where
  scenarioId : Text
  campaign : Text

namespace Scenario

/-- `RESULT_DIR` below `results/`, of an execution whose `STAMP` was taken at that second. -/
def path (s : Scenario) (time : ℕ) : RunPath := ⟨s.campaign, s.scenarioId, Calendar.stamp time⟩

def resultDir (s : Scenario) (r : Request) (time : ℕ) : Text :=
  r.repoRoot ++ "/results/campaign_".toList ++ s.campaign ++ '/' :: (s.scenarioId ++ '/' ::
    Calendar.stamp time)

def outputs (s : Scenario) (resultDir : Text) : Json :=
  let file (kind extension : Text) : Json :=
    .str (resultDir ++ '/' :: (kind ++ '_' :: (s.scenarioId ++ '.' :: extension)))
  .obj [("bench_csv".toList, file "bench".toList "csv".toList),
    ("perf_client_csv".toList, file "perf_client".toList "csv".toList),
    ("perf_server_csv".toList, file "perf_server".toList "csv".toList),
    ("server_log".toList, file "server".toList "log".toList),
    ("pcap_file".toList, file "pcap".toList "pcap".toList)]

/-- The document that the script has `jq` write to `META_JSON`; `none` when `jq` fails. -/
def metaDoc (jq : Jq) (s : Scenario) (r : Request) (time clientExitCode : ℕ) : Option Json := do
  let runsRequested ← jq.argjson r.runsJson
  let runsEffective ← jq.argjson r.runsEffective
  let clientExitCodeDoc ← jq.argjson (decimal clientExitCode)
  let scenarioDoc ← r.scenarioDoc.slurpFirst
  let chainDoc ← r.chainDoc.slurpFirst
  return .obj [("scenario_id".toList, .str s.scenarioId),
    ("campaign".toList, .str s.campaign),
    ("executed_at_utc".toList, .str r.generatedAt),
    ("result_dir".toList, .str (s.resultDir r time)),
    ("chain_profile".toList, .str r.chainProfile),
    ("status".toList, .str (clientStatus clientExitCode)),
    ("runs_requested".toList, runsRequested),
    ("runs_effective".toList, runsEffective),
    ("client_exit_code".toList, clientExitCodeDoc),
    ("capture_perf_client_effective".toList, .str r.capturePerfClient),
    ("capture_perf_server_effective".toList, .str r.capturePerfServer),
    ("capture_pcap_effective".toList, .str r.capturePcap),
    ("scenario".toList, scenarioDoc),
    ("chain".toList, chainDoc),
    ("outputs".toList, s.outputs (s.resultDir r time))]

end Scenario

section Meta

variable {jq : Jq} {s : Scenario} {r : Request} {time clientExitCode : ℕ} {doc : Json}

theorem metaDoc_status (written : s.metaDoc jq r time clientExitCode = some doc) (default : Json) :
    doc.get "status".toList default = .ok (.str (clientStatus clientExitCode)) := by
  simp only [Scenario.metaDoc, Option.bind_eq_bind, Option.bind_eq_some_iff] at written
  obtain ⟨_, _, _, _, _, _, _, _, _, _, same⟩ := written
  injection same with same
  subst same
  rfl

theorem metaDoc_runsEffective (written : s.metaDoc jq r time clientExitCode = some doc) :
    ∃ recorded, jq.argjson r.runsEffective = some recorded ∧
      doc.getItem "runs_effective".toList = .ok recorded := by
  simp only [Scenario.metaDoc, Option.bind_eq_bind, Option.bind_eq_some_iff] at written
  obtain ⟨_, _, recorded, accepted, _, _, _, _, _, _, same⟩ := written
  injection same with same
  subst same
  exact ⟨recorded, accepted, rfl⟩

theorem clientStatus_completed : clientStatus clientExitCode = "completed".toList ↔ clientExitCode = 0 := by
  unfold clientStatus
  split_ifs with zero interrupted
  · simp [zero]
  · simp [zero]
  · simp [zero]

end Meta

end PqcLab.Runner
