import PqcLab.Bench.ReadBack
import PqcLab.Runner.Scenario
import Mathlib.Logic.Relation

/-! Histories of `run_scenario.sh` for one scenario: executions one after the other, each of which may
end after any of its commands. -/

namespace PqcLab.Runner

open Calendar

/-- An execution from its `STAMP` on; the time is that of the stamp. -/
structure Execution where
  request : Request
  time : ℕ

inductive Phase
  | idle
  /-- `STAMP` is taken. -/
  | stamped (e : Execution)
  /-- `RESULT_DIR` exists, and the server is being started. -/
  | launching (e : Execution)
  /-- `sleep 1` is over. -/
  | ready (e : Execution)
  /-- The client runs, with `BENCH_CSV` as its output. -/
  | measuring (e : Execution)
  | measured (e : Execution) (client : Bench.Exit)
  /-- `META_JSON` is open. -/
  | recording (e : Execution) (client : Bench.Exit)
  | recorded (e : Execution)

/-- The execution whose profilers may write. -/
def Phase.profiled : Phase → Option Execution
  | .idle | .stamped _ | .launching _ => none
  | .ready e | .measuring e | .measured e _ | .recording e _ | .recorded e => some e

/-- An execution that wrote its whole meta file with status `completed`, and what its client printed. -/
structure Completion where
  time : ℕ
  bench : Text

/-- The clock, the results and the current execution; beside them, the completions so far, the last
one first. -/
structure World where
  now : ℕ
  tree : ResultsTree
  phase : Phase
  completed : List Completion

namespace Scenario

variable (s : Scenario) (tree : ResultsTree) (time : ℕ)

def files : ScenarioFiles := tree.dir (s.path time) s.scenarioId

def edit (change : ScenarioFiles → ScenarioFiles) : ResultsTree :=
  tree.edit (s.path time) s.scenarioId change

end Scenario

variable (jq : Jq) (s : Scenario)

inductive Step : World → World → Prop
  | tick (w : World) (t : ℕ) (later : w.now ≤ t) (year : FourDigits t) : Step w { w with now := t }
  | stamp (w : World) (r : Request) (idle : w.phase = .idle) :
      Step w { w with phase := .stamped ⟨r, w.now⟩ }
  | makeDir (w : World) (e : Execution) (stamped : w.phase = .stamped e) :
      Step w { w with tree := w.tree.makeDir (s.path e.time), phase := .launching e }
  | sleep (w : World) (e : Execution) (t : ℕ) (launching : w.phase = .launching e) (later : w.now + 1 ≤ t)
      (year : FourDigits t) : Step w { w with now := t, phase := .ready e }
  | profile (w : World) (e : Execution) (client server : Option Text) (profiled : w.phase.profiled = some e) :
      Step w { w with tree := s.edit w.tree e.time fun f =>
        { f with perfClientCsv := client, perfServerCsv := server } }
  | startClient (w : World) (e : Execution) (ready : w.phase = .ready e) :
      Step w { w with tree := s.edit w.tree e.time fun f => { f with benchCsv := some [] }
                      phase := .measuring e }
  | print (w : World) (e : Execution) (printed : Text) (measuring : w.phase = .measuring e) :
      Step w { w with tree := s.edit w.tree e.time fun f => { f with benchCsv := some printed } }
  /-- The client returns from `main`, or ends with another code, be it by a signal. -/
  | exitClient (w : World) (e : Execution) (client : Bench.Exit) (measuring : w.phase = .measuring e)
      (returned : client.code = 0 → ∃ setup outcome, client = Bench.main e.request.clientCmd setup outcome) :
      Step w { w with tree := s.edit w.tree e.time fun f => { f with benchCsv := some client.stdout }
                      phase := .measured e client }
  | openMeta (w : World) (e : Execution) (client : Bench.Exit) (measured : w.phase = .measured e client) :
      Step w { w with tree := s.edit w.tree e.time fun f => { f with metaJson := some .empty }
                      phase := .recording e client }
  | breakMeta (w : World) (e : Execution) (client : Bench.Exit) (recording : w.phase = .recording e client) :
      Step w { w with tree := s.edit w.tree e.time fun f => { f with metaJson := some .broken } }
  | writeMeta (w : World) (e : Execution) (client : Bench.Exit) (doc : Json)
      (recording : w.phase = .recording e client)
      (accepted : s.metaDoc jq e.request e.time client.code = some doc) :
      Step w { w with tree := s.edit w.tree e.time fun f => { f with metaJson := some (.document doc) }
                      phase := .recorded e
                      completed := if clientStatus client.code = "completed".toList
                        then ⟨e.time, client.stdout⟩ :: w.completed else w.completed }
  /-- The script ends: at its last line, by `set -e` or by a signal. -/
  | finish (w : World) : Step w { w with phase := .idle }

def Reachable (w : World) : Prop :=
  ∃ now, FourDigits now ∧ Relation.ReflTransGen (Step jq s) ⟨now, ∅, .idle, []⟩ w

section Paths

variable {s}

theorem path_lt {t u : ℕ} (less : t < u) (year : FourDigits u) : s.path t < s.path u :=
  (RunPath.lt_iff _ _).mpr (.inr ⟨rfl, .inr ⟨rfl, stamp_lt less year⟩⟩)

theorem path_le {t u : ℕ} (less : t ≤ u) (year : FourDigits u) : s.path t ≤ s.path u := by
  rcases Nat.lt_or_eq_of_le less with less | rfl
  · exact (path_lt less year).le
  · exact le_rfl

theorem path_ne {t u : ℕ} (less : t < u) (year : FourDigits u) : s.path u ≠ s.path t :=
  (path_lt less year).ne'

end Paths

structure Consistent (now : ℕ) (tree : ResultsTree) (completed : List Completion) : Prop where
  year : FourDigits now
  stamped : ∀ p ∈ tree, ∃ t ≤ now, p = s.path t
  unwritten : ∀ t, now ≤ t → FourDigits t → (s.files tree t).metaJson = none
  past : ∀ c ∈ completed, c.time < now
  newestFirst : completed.Pairwise fun c d => d.time < c.time
  kept : ∀ c ∈ completed, s.path c.time ∈ tree ∧ (s.files tree c.time).benchCsv = some c.bench ∧
    tree.isValid s.scenarioId (s.path c.time) = .ok true
  refused : ∀ p ∈ tree, (∀ c ∈ completed, p ≠ s.path c.time) →
    tree.isValid s.scenarioId p = .ok false

/-- A client that returned zero left rows to read. -/
def Measured (client : Bench.Exit) : Prop :=
  client.code = 0 → ∃ rows : List (BenchRow Binary64.Double),
    readBenchCsv (some client.stdout) = .ok rows ∧ rows ≠ []

def Newer (w : World) (time : ℕ) : Prop := ∀ c ∈ w.completed, c.time < time

def Current (w : World) : Prop :=
  match w.phase with
  | .idle => True
  | .stamped e | .launching e =>
    e.time ≤ w.now ∧ Newer w e.time ∧ (s.files w.tree e.time).metaJson = none
  | .ready e | .measuring e =>
    e.time < w.now ∧ Newer w e.time ∧ (s.files w.tree e.time).metaJson = none
  | .measured e client =>
    e.time < w.now ∧ Newer w e.time ∧ (s.files w.tree e.time).metaJson = none ∧
      (s.files w.tree e.time).benchCsv = some client.stdout ∧ Measured client
  | .recording e client =>
    e.time < w.now ∧ Newer w e.time ∧ (s.files w.tree e.time).benchCsv = some client.stdout ∧
      Measured client
  | .recorded e => e.time < w.now

structure Invariant (w : World) : Prop where
  consistent : Consistent s w.now w.tree w.completed
  current : Current s w

section Edit

variable {s} {now time : ℕ} {tree : ResultsTree} {completed : List Completion}

@[simp] theorem files_edit (change : ScenarioFiles → ScenarioFiles) :
    s.files (s.edit tree time change) time = change (s.files tree time) :=
  tree.dir_edit (s.path time) s.scenarioId change

theorem dir_edit_ne (change : ScenarioFiles → ScenarioFiles) {p : RunPath} (other : p ≠ s.path time) :
    (s.edit tree time change).dir p = tree.dir p :=
  tree.dir_edit_ne (s.path time) s.scenarioId change other

theorem isValid_edit_ne (change : ScenarioFiles → ScenarioFiles) {p : RunPath} (other : p ≠ s.path time) :
    (s.edit tree time change).isValid s.scenarioId p = tree.isValid s.scenarioId p := by
  unfold ResultsTree.isValid
  rw [dir_edit_ne change other]

theorem mem_edit (change : ScenarioFiles → ScenarioFiles) {p : RunPath} :
    p ∈ s.edit tree time change ↔ p = s.path time ∨ p ∈ tree :=
  tree.mem_edit (s.path time) s.scenarioId change

theorem isValid_absent {p : RunPath} (absent : p ∉ tree) : tree.isValid s.scenarioId p = .ok false := by
  apply isValidRunDir_noMeta
  simp [ResultsTree.dir, AList.lookup_eq_none.mpr absent]

theorem Consistent.completed_ne (h : Consistent s now tree completed) (started : time ≤ now)
    (newer : ∀ c ∈ completed, c.time < time) : ∀ c ∈ completed, s.path c.time ≠ s.path time :=
  fun c member => (path_ne (newer c member) (h.year.mono started)).symm

theorem Consistent.stamped_edit (h : Consistent s now tree completed) (change : ScenarioFiles → ScenarioFiles)
    (started : time ≤ now) : ∀ p ∈ s.edit tree time change, ∃ t ≤ now, p = s.path t := by
  intro p member
  rcases (mem_edit change).mp member with rfl | member
  · exact ⟨time, started, rfl⟩
  · exact h.stamped p member

theorem Consistent.unwritten_edit (h : Consistent s now tree completed) (change : ScenarioFiles → ScenarioFiles)
    (started : time < now) :
    ∀ t, now ≤ t → FourDigits t → (s.files (s.edit tree time change) t).metaJson = none := by
  intro t later year
  have other := path_ne (s := s) (lt_of_lt_of_le started later) year
  unfold Scenario.files
  rw [dir_edit_ne change other]
  exact h.unwritten t later year

theorem Consistent.kept_edit (h : Consistent s now tree completed) (change : ScenarioFiles → ScenarioFiles)
    (started : time ≤ now) (newer : ∀ c ∈ completed, c.time < time) :
    ∀ c ∈ completed, s.path c.time ∈ s.edit tree time change ∧
      (s.files (s.edit tree time change) c.time).benchCsv = some c.bench ∧
      (s.edit tree time change).isValid s.scenarioId (s.path c.time) = .ok true := by
  intro c member
  have other := h.completed_ne started newer c member
  obtain ⟨present, bench, valid⟩ := h.kept c member
  refine ⟨(mem_edit change).mpr (.inr present), ?_, ?_⟩
  · unfold Scenario.files
    rw [dir_edit_ne change other]
    exact bench
  · rw [isValid_edit_ne change other]
    exact valid

theorem Consistent.edit (h : Consistent s now tree completed) (change : ScenarioFiles → ScenarioFiles)
    (started : time < now) (newer : ∀ c ∈ completed, c.time < time)
    (refused : (s.edit tree time change).isValid s.scenarioId (s.path time) = .ok false) :
    Consistent s now (s.edit tree time change) completed where
  year := h.year
  stamped := h.stamped_edit change started.le
  unwritten := h.unwritten_edit change started
  past := h.past
  newestFirst := h.newestFirst
  kept := h.kept_edit change started.le newer
  refused := by
    intro p member others
    by_cases same : p = s.path time
    · rw [same]
      exact refused
    · rw [isValid_edit_ne change same]
      exact h.refused p (((mem_edit change).mp member).resolve_left same) others

theorem Consistent.profile (h : Consistent s now tree completed) (change : ScenarioFiles → ScenarioFiles)
    (started : time ≤ now) (metaJson : ∀ f, (change f).metaJson = f.metaJson)
    (benchCsv : ∀ f, (change f).benchCsv = f.benchCsv) :
    Consistent s now (s.edit tree time change) completed := by
  have files (p : RunPath) :
      ((s.edit tree time change).dir p s.scenarioId).metaJson = (tree.dir p s.scenarioId).metaJson ∧
        ((s.edit tree time change).dir p s.scenarioId).benchCsv = (tree.dir p s.scenarioId).benchCsv := by
    by_cases same : p = s.path time
    · subst same
      change (s.files _ _).metaJson = (s.files _ _).metaJson ∧ (s.files _ _).benchCsv = (s.files _ _).benchCsv
      rw [files_edit]
      exact ⟨metaJson _, benchCsv _⟩
    · rw [dir_edit_ne change same]
      exact ⟨rfl, rfl⟩
  have verdict (p : RunPath) :
      (s.edit tree time change).isValid s.scenarioId p = tree.isValid s.scenarioId p :=
    isValidRunDir_congr (files p).1 (files p).2
  refine ⟨h.year, h.stamped_edit change started, ?_, h.past, h.newestFirst, ?_, ?_⟩
  · intro t later year
    exact (files (s.path t)).1.trans (h.unwritten t later year)
  · intro c member
    obtain ⟨present, bench, valid⟩ := h.kept c member
    exact ⟨(mem_edit change).mpr (.inr present), (files _).2.trans bench, (verdict _).trans valid⟩
  · intro p member others
    rw [verdict]
    by_cases present : p ∈ tree
    · exact h.refused p present others
    · exact isValid_absent present

theorem Consistent.makeDir (h : Consistent s now tree completed) (started : time ≤ now) :
    Consistent s now (tree.makeDir (s.path time)) completed := by
  have verdict (p : RunPath) :
      (tree.makeDir (s.path time)).isValid s.scenarioId p = tree.isValid s.scenarioId p := by
    simp [ResultsTree.isValid]
  refine ⟨h.year, ?_, ?_, h.past, h.newestFirst, ?_, ?_⟩
  · intro p member
    rcases (tree.mem_makeDir _).mp member with rfl | member
    · exact ⟨time, started, rfl⟩
    · exact h.stamped p member
  · intro t later year
    simpa [Scenario.files] using h.unwritten t later year
  · intro c member
    obtain ⟨present, bench, valid⟩ := h.kept c member
    refine ⟨(tree.mem_makeDir _).mpr (.inr present), ?_, (verdict _).trans valid⟩
    simpa [Scenario.files] using bench
  · intro p member others
    rw [verdict]
    by_cases present : p ∈ tree
    · exact h.refused p present others
    · exact isValid_absent present

theorem Consistent.tick (h : Consistent s now tree completed) {t : ℕ} (later : now ≤ t)
    (year : FourDigits t) : Consistent s t tree completed where
  year := year
  stamped := fun p member => (h.stamped p member).imp fun _ ⟨before, same⟩ => ⟨before.trans later, same⟩
  unwritten := fun u after => h.unwritten u (later.trans after)
  past := fun c member => (h.past c member).trans_le later
  newestFirst := h.newestFirst
  kept := h.kept
  refused := h.refused

theorem Consistent.complete (h : Consistent s now tree completed) (change : ScenarioFiles → ScenarioFiles)
    (started : time < now) (newer : ∀ c ∈ completed, c.time < time) {bench : Text}
    (file : (change (s.files tree time)).benchCsv = some bench)
    (valid : (s.edit tree time change).isValid s.scenarioId (s.path time) = .ok true) :
    Consistent s now (s.edit tree time change) (⟨time, bench⟩ :: completed) := by
  refine ⟨h.year, h.stamped_edit change started.le, h.unwritten_edit change started, ?_,
    List.pairwise_cons.mpr ⟨newer, h.newestFirst⟩, ?_, ?_⟩
  · exact List.forall_mem_cons.mpr ⟨started, h.past⟩
  · refine List.forall_mem_cons.mpr
      ⟨⟨(mem_edit change).mpr (.inl rfl), ?_, valid⟩, h.kept_edit change started.le newer⟩
    rw [files_edit]
    exact file
  · intro p member others
    obtain ⟨other, others⟩ := List.forall_mem_cons.mp others
    rw [isValid_edit_ne change other]
    exact h.refused p (((mem_edit change).mp member).resolve_left other) others

end Edit

theorem Consistent.refused_noMeta {now time : ℕ} {tree : ResultsTree} {completed : List Completion}
    {s : Scenario} (h : Consistent s now tree completed) (change : ScenarioFiles → ScenarioFiles)
    (started : time < now) (newer : ∀ c ∈ completed, c.time < time)
    (noMeta : (change (s.files tree time)).metaJson = none) :
    Consistent s now (s.edit tree time change) completed := by
  apply h.edit change started newer
  apply isValidRunDir_noMeta
  change (s.files _ time).metaJson = none
  rw [files_edit]
  exact noMeta

variable {jq s}

theorem Measured.of_main {r : Request} {setup : Bench.Setup} {outcome : ℕ → Bench.Outcome} :
    Measured (Bench.main r.clientCmd setup outcome) := by
  intro zero
  obtain ⟨positive, ready⟩ := Bench.main_code_zero zero
  refine ⟨_, Bench.readBenchCsv_main _ _ _ _ _ outcome positive ready, ?_⟩
  simp
  omega

theorem Current.tick {w : World} (current : Current s w) {t : ℕ} (later : w.now ≤ t) :
    Current s { w with now := t } := by
  obtain ⟨now, tree, phase, completed⟩ := w
  cases phase with
  | idle => trivial
  | stamped e | launching e => exact ⟨current.1.trans later, current.2⟩
  | ready e | measuring e | measured e client | recording e client =>
    exact ⟨current.1.trans_le later, current.2⟩
  | recorded e => exact current.trans_le later

theorem Current.profile {w : World} {e : Execution} (current : Current s w)
    (profiled : w.phase.profiled = some e) {change : ScenarioFiles → ScenarioFiles}
    (metaJson : ∀ f, (change f).metaJson = f.metaJson) (benchCsv : ∀ f, (change f).benchCsv = f.benchCsv) :
    e.time < w.now ∧ Current s { w with tree := s.edit w.tree e.time change } := by
  obtain ⟨now, tree, phase, completed⟩ := w
  cases phase with
  | idle | stamped e | launching e => simp [Phase.profiled] at profiled
  | ready e | measuring e =>
    injection profiled with same
    subst same
    obtain ⟨started, newer, noMeta⟩ := current
    refine ⟨started, started, newer, ?_⟩
    rw [files_edit, metaJson]
    exact noMeta
  | measured e client =>
    injection profiled with same
    subst same
    obtain ⟨started, newer, noMeta, bench, measured⟩ := current
    refine ⟨started, started, newer, ?_, ?_, measured⟩
    · rw [files_edit, metaJson]
      exact noMeta
    · rw [files_edit, benchCsv]
      exact bench
  | recording e client =>
    injection profiled with same
    subst same
    obtain ⟨started, newer, bench, measured⟩ := current
    refine ⟨started, started, newer, ?_, measured⟩
    rw [files_edit, benchCsv]
    exact bench
  | recorded e =>
    injection profiled with same
    subst same
    exact ⟨current, current⟩

theorem Invariant.step {w next : World} (h : Invariant s w) (step : Step jq s w next) : Invariant s next := by
  obtain ⟨consistent, current⟩ := h
  cases step with
  | tick t later year => exact ⟨consistent.tick later year, current.tick later⟩
  | stamp r idle =>
    exact ⟨consistent, le_rfl, consistent.past, consistent.unwritten _ le_rfl consistent.year⟩
  | makeDir e stamped =>
    simp only [Current, stamped] at current
    obtain ⟨started, newer, noMeta⟩ := current
    refine ⟨consistent.makeDir started, started, newer, ?_⟩
    simpa [Scenario.files] using noMeta
  | sleep e t launching later year =>
    simp only [Current, launching] at current
    obtain ⟨started, newer, noMeta⟩ := current
    exact ⟨consistent.tick (Nat.le_of_succ_le later) year, lt_of_le_of_lt started later, newer, noMeta⟩
  | profile e client server profiled =>
    let change (f : ScenarioFiles) : ScenarioFiles := { f with perfClientCsv := client, perfServerCsv := server }
    obtain ⟨started, kept⟩ := @Current.profile s w e current profiled change (fun _ => rfl) (fun _ => rfl)
    exact ⟨consistent.profile change started.le (fun _ => rfl) (fun _ => rfl), kept⟩
  | startClient e ready =>
    simp only [Current, ready] at current
    obtain ⟨started, newer, noMeta⟩ := current
    refine ⟨consistent.refused_noMeta (fun f => { f with benchCsv := some [] }) started newer noMeta,
      started, newer, ?_⟩
    rw [files_edit]
    exact noMeta
  | print e printed measuring =>
    simp only [Current, measuring] at current
    obtain ⟨started, newer, noMeta⟩ := current
    refine ⟨consistent.refused_noMeta (fun f => { f with benchCsv := some printed }) started newer noMeta, ?_⟩
    simp only [Current, measuring, files_edit]
    exact ⟨started, newer, noMeta⟩
  | exitClient e client measuring returned =>
    simp only [Current, measuring] at current
    obtain ⟨started, newer, noMeta⟩ := current
    refine ⟨consistent.refused_noMeta (fun f => { f with benchCsv := some client.stdout }) started newer noMeta,
      started, newer, ?_, ?_, ?_⟩
    · rw [files_edit]
      exact noMeta
    · rw [files_edit]
    · intro zero
      obtain ⟨setup, outcome, rfl⟩ := returned zero
      exact Measured.of_main zero
  | openMeta e client measured =>
    simp only [Current, measured] at current
    obtain ⟨started, newer, noMeta, bench, read⟩ := current
    refine ⟨consistent.edit (fun f => { f with metaJson := some .empty }) started newer ?_,
      started, newer, ?_, read⟩
    · exact isValidRunDir_unreadable (congrArg ScenarioFiles.metaJson (files_edit _)) rfl
    · rw [files_edit]
      exact bench
  | breakMeta e client recording =>
    simp only [Current, recording] at current
    obtain ⟨started, newer, bench, read⟩ := current
    refine ⟨consistent.edit (fun f => { f with metaJson := some .broken }) started newer ?_, ?_⟩
    · exact isValidRunDir_unreadable (congrArg ScenarioFiles.metaJson (files_edit _)) rfl
    · simp only [Current, recording, files_edit]
      exact ⟨started, newer, bench, read⟩
  | writeMeta e client doc recording accepted =>
    simp only [Current, recording] at current
    obtain ⟨started, newer, bench, read⟩ := current
    let change (f : ScenarioFiles) : ScenarioFiles := { f with metaJson := some (.document doc) }
    have present : (s.files (s.edit w.tree e.time change) e.time).metaJson = some (.document doc) :=
      congrArg ScenarioFiles.metaJson (files_edit change)
    have status := metaDoc_status accepted (.str "completed".toList)
    refine ⟨?_, started⟩
    by_cases completed : clientStatus client.code = "completed".toList
    · obtain ⟨rows, rowsRead, nonempty⟩ := read (clientStatus_completed.mp completed)
      have file : (s.files (s.edit w.tree e.time change) e.time).benchCsv = some client.stdout :=
        (congrArg ScenarioFiles.benchCsv (files_edit change)).trans bench
      simp only [completed, if_true]
      exact consistent.complete change started newer bench
        (isValidRunDir_completed present status completed file rowsRead nonempty)
    · simp only [completed, if_false]
      exact consistent.edit change started newer (isValidRunDir_otherStatus present status completed)
  | finish => exact ⟨consistent, trivial⟩

theorem Invariant.start {now : ℕ} (year : FourDigits now) : Invariant s ⟨now, ∅, .idle, []⟩ where
  consistent := {
    year := year
    stamped := by simp
    unwritten := by
      intro t _ _
      rfl
    past := by simp
    newestFirst := .nil
    kept := by simp
    refused := by simp }
  current := trivial

theorem Reachable.invariant {w : World} (reachable : Reachable jq s w) : Invariant s w := by
  obtain ⟨now, year, steps⟩ := reachable
  induction steps with
  | refl => exact .start year
  | tail _ step ih => exact ih.step step

end PqcLab.Runner
