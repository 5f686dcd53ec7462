import PqcLab.Analysis.Results
import PqcLab.Library.Calendar

/-! The selection among several campaigns, when no campaign is hinted at. -/

namespace PqcLab

def Newest (tree : ResultsTree) (scenarioId : Text) (p : RunPath) : Prop :=
  ∀ q ∈ tree, q.scenario = scenarioId → tree.isValid scenarioId q = .ok true → q.name ≤ p.name

/-- The path sorts behind another of the same scenario: by its campaign first, then by its stamp. -/
def SortsAfter (q p : RunPath) : Prop :=
  p.campaign < q.campaign ∨ p.campaign = q.campaign ∧ p.name < q.name

instance (q p : RunPath) : Decidable (SortsAfter q p) := inferInstanceAs (Decidable (_ ∨ _))

variable {tree : ResultsTree} {scenarioId : Text} {hint : Option Text}

theorem mem_candidates_literal (literal : Glob.Literal scenarioId)
    (unhinted : hintedDirs tree scenarioId hint = []) {p : RunPath} :
    p ∈ candidates tree scenarioId hint ↔ p ∈ tree ∧ p.scenario = scenarioId := by
  rw [candidates_unhinted unhinted, List.mem_filter, AList.mem_keys, Glob.fnmatch_literal literal]

theorem lt_iff_sortsAfter {p q : RunPath} (same : p.scenario = q.scenario) : p < q ↔ SortsAfter q p := by
  rw [RunPath.lt_iff, same]
  simp [SortsAfter]

/-- Without a hint, the newest valid run is selected exactly when one of the newest lies so that every
run directory that sorts after it is refused, in a later campaign as well as in its own. -/
theorem newest_selected_iff (literal : Glob.Literal scenarioId)
    (unhinted : hintedDirs tree scenarioId hint = []) :
    (∃ p, latestValidRunDir tree scenarioId hint = .ok p ∧ p.scenario = scenarioId ∧
        tree.isValid scenarioId p = .ok true ∧ Newest tree scenarioId p) ↔
      ∃ p ∈ tree, p.scenario = scenarioId ∧ tree.isValid scenarioId p = .ok true ∧
        Newest tree scenarioId p ∧
        ∀ q ∈ tree, q.scenario = scenarioId → SortsAfter q p → tree.isValid scenarioId q = .ok false := by
  constructor
  · rintro ⟨p, selected, named, valid, newest⟩
    obtain ⟨member, -, above⟩ := latestValidRunDir_ok.mp selected
    refine ⟨p, ((mem_candidates_literal literal unhinted).mp member).1, named, valid, newest, ?_⟩
    intro q present same later
    apply above q ((mem_candidates_literal literal unhinted).mpr ⟨present, same⟩)
    exact (lt_iff_sortsAfter (named.trans same.symm)).mpr later
  · rintro ⟨p, present, named, valid, newest, above⟩
    refine ⟨p, latestValidRunDir_ok.mpr ⟨?_, valid, ?_⟩, named, valid, newest⟩
    · exact (mem_candidates_literal literal unhinted).mpr ⟨present, named⟩
    · intro q member later
      obtain ⟨present, same⟩ := (mem_candidates_literal literal unhinted).mp member
      exact above q present same ((lt_iff_sortsAfter (named.trans same.symm)).mp later)

def oneRowDir : RunDir := fun _ =>
  { metaJson := some (.document (.obj [("status".toList, .str "completed".toList)]))
    benchCsv := some ("run_id,elapsed_ms,success,ssl_error,bytes_read,bytes_written,chain_len,chain_bytes\n" ++
      "1,1.500,1,0,9000,700,2,11122\n").toList }

theorem oneRowDir_valid (scenarioId : Text) : isValidRunDir oneRowDir scenarioId = .ok true := by
  have valid : isValidRunDir oneRowDir [] = .ok true := by decide +kernel
  exact valid

def marchRun : RunPath := ⟨['A'], "quick".toList, "20260301T120000Z".toList⟩

def januaryRun : RunPath := ⟨['B'], "quick".toList, "20260101T120000Z".toList⟩

def twoCampaigns : ResultsTree := ((∅ : ResultsTree).insert marchRun oneRowDir).insert januaryRun oneRowDir

theorem twoCampaigns_valid {p : RunPath} (member : p ∈ twoCampaigns) (scenarioId : Text) :
    twoCampaigns.isValid scenarioId p = .ok true := by
  have dir : twoCampaigns.dir p = oneRowDir := by
    simp only [twoCampaigns, AList.mem_insert, AList.notMem_empty, or_false] at member
    rcases member with rfl | rfl
    · rfl
    · rfl
  unfold ResultsTree.isValid
  rw [dir]
  exact oneRowDir_valid scenarioId

/-- The list `campaign_B_full` gives no hint, and gets the older run. -/
theorem stale_run_selected :
    campaignHint "campaign_B_full".toList = none ∧
      latestValidRunDir twoCampaigns "quick".toList (campaignHint "campaign_B_full".toList) = .ok januaryRun ∧
      marchRun ∈ twoCampaigns ∧ twoCampaigns.isValid "quick".toList marchRun = .ok true ∧
      januaryRun.name < marchRun.name := by
  have unhinted : campaignHint "campaign_B_full".toList = none := by decide
  have march : marchRun ∈ twoCampaigns := by simp only [twoCampaigns, AList.mem_insert, true_or, or_true]
  have january : januaryRun ∈ twoCampaigns := by simp only [twoCampaigns, AList.mem_insert, true_or]
  refine ⟨unhinted, latestValidRunDir_ok.mpr ⟨?_, twoCampaigns_valid january _, ?_⟩, march,
    twoCampaigns_valid march _, by decide⟩
  · rw [unhinted]
    exact (mem_candidates_literal (by decide) rfl).mpr ⟨january, rfl⟩
  · intro q member later
    have present := mem_of_mem_candidates member
    simp only [twoCampaigns, AList.mem_insert, AList.notMem_empty, or_false] at present
    rcases present with rfl | rfl
    · exact absurd later (lt_irrefl _)
    · exact absurd ((@lt_iff_sortsAfter januaryRun marchRun rfl).mp later) (by decide)

def recentRun : RunPath := ⟨['B'], "quick".toList, "20260401T120000Z".toList⟩

def brokenRun : RunPath := ⟨['C'], "quick".toList, "20260501T120000Z".toList⟩

/-- The newest valid run lies under the later label, and the one directory behind it has no files. -/
def recentCampaigns : ResultsTree :=
  (((∅ : ResultsTree).insert brokenRun fun _ => {}).insert recentRun oneRowDir).insert marchRun oneRowDir

theorem newest_selected_recent :
    marchRun ∈ recentCampaigns ∧ recentCampaigns.isValid "quick".toList marchRun = .ok true ∧
      ∃ p, latestValidRunDir recentCampaigns "quick".toList none = .ok p ∧ p.scenario = "quick".toList ∧
        recentCampaigns.isValid "quick".toList p = .ok true ∧ Newest recentCampaigns "quick".toList p := by
  have among {q : RunPath} (member : q ∈ recentCampaigns) : q = marchRun ∨ q = recentRun ∨ q = brokenRun := by
    simpa only [recentCampaigns, AList.mem_insert, AList.notMem_empty, or_false] using member
  have march : marchRun ∈ recentCampaigns := (AList.mem_insert _).mpr (.inl rfl)
  have recent : recentRun ∈ recentCampaigns := (AList.mem_insert _).mpr (.inr ((AList.mem_insert _).mpr (.inl rfl)))
  have marchValid : recentCampaigns.isValid "quick".toList marchRun = .ok true := oneRowDir_valid "quick".toList
  have recentValid : recentCampaigns.isValid "quick".toList recentRun = .ok true := oneRowDir_valid "quick".toList
  have refused : recentCampaigns.isValid "quick".toList brokenRun = .ok false := isValidRunDir_noMeta rfl
  refine ⟨march, marchValid, (newest_selected_iff (by decide) rfl).mpr ⟨recentRun, recent, rfl, recentValid, ?_, ?_⟩⟩
  · intro q member _ valid
    rcases among member with rfl | rfl | rfl
    · decide
    · exact le_rfl
    · rw [refused] at valid
      cases valid
  · intro q member _ later
    rcases among member with rfl | rfl | rfl
    · exact absurd later (by decide)
    · exact absurd later (by decide)
    · exact refused

end PqcLab
