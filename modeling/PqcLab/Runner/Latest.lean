import PqcLab.Runner.History

/-! What `latest_valid_run_dir` selects after a history of executions. -/

namespace PqcLab.Runner

open Binary64

variable {jq : Jq} {s : Scenario}

theorem Invariant.candidates {w : World} (h : Invariant s w)
    (addressed : s.campaign ≠ [] ∨ Glob.fnmatch s.scenarioId s.scenarioId = true) :
    candidates w.tree s.scenarioId (some s.campaign) = w.tree.keys := by
  have same : ∀ p ∈ w.tree.keys, p.campaign = s.campaign ∧ p.scenario = s.scenarioId := by
    intro p member
    obtain ⟨t, -, rfl⟩ := h.consistent.stamped p (AList.mem_keys.mp member)
    exact ⟨rfl, rfl⟩
  by_cases label : s.campaign = []
  · have itself := addressed.resolve_left (not_not.mpr label)
    have unhinted : hintedDirs w.tree s.scenarioId (some s.campaign) = [] := by
      rw [label]
      rfl
    rw [candidates_unhinted unhinted]
    exact List.filter_eq_self.mpr fun p member => by rw [(same p member).2]; exact itself
  · have hinted : hintedDirs w.tree s.scenarioId (some s.campaign) = w.tree.keys := by
      rw [hintedDirs_some label]
      exact List.filter_eq_self.mpr fun p member => by simp [same p member]
    by_cases empty : w.tree.keys = []
    · rw [candidates_unhinted (hinted.trans empty), empty]
      rfl
    · rw [candidates_hinted (by rwa [hinted]), hinted]

def twoRuns : Request where
  repoRoot := "/lab".toList
  scenarioPath := "/lab/scenarios/quick.json".toList
  tlsGroup := "mlkem512".toList
  chainProfile := "ml_root__ml_leaf".toList
  host := "127.0.0.1".toList
  port := "4433".toList
  serverName := "localhost".toList
  runsJson := "2".toList
  runsOverride := none
  capturePerfClientJson := "false".toList
  capturePerfClientOverride := none
  capturePerfServerJson := "false".toList
  capturePerfServerOverride := none
  capturePcapJson := "false".toList
  capturePcapOverride := none
  generatedAt := "2026-01-01T00:00:02Z".toList
  scenarioDoc := .document (.obj [])
  chainDoc := .document (.obj [])

theorem twoRuns_accepted (s : Scenario) (time : ℕ) : ∃ doc, s.metaDoc decimalJq twoRuns time 0 = some doc :=
  Option.isSome_iff_exists.mp (by rfl)

def ready : Bench.Setup := ⟨true, true, true, true, true⟩

end PqcLab.Runner
