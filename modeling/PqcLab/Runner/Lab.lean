import PqcLab.Library.Interleaving
import PqcLab.Runner.Latest
import Mathlib.Order.Bounds.Basic

/-! Executions of many scenarios over one results tree, in any interleaving. -/

namespace PqcLab.Runner

open Calendar
open Relation (ReflTransGen)

deriving instance DecidableEq for Scenario

structure Shared where
  now : ℕ
  tree : ResultsTree

/-- One scenario under one label: how far its execution has come, and its completions, the last one first.
Executions of one scenario under one label do not overlap, though `run_scenario.sh` has no lock. -/
structure Process where
  phase : Phase
  completed : List Completion

def Process.world (p : Process) (shared : Shared) : World := ⟨shared.now, shared.tree, p.phase, p.completed⟩

abbrev Lab := Interleaving.System Scenario Shared Process

/-- A step of a scenario; its `sleep 1` ends when the clock, which it does not move, has moved on. -/
inductive Act (jq : Jq) (s : Scenario) : Shared → Process → Shared → Process → Prop
  | step (shared : Shared) (p : Process) (next : World) (step : Step jq s (p.world shared) next)
      (clock : next.now = shared.now) : Act jq s shared p ⟨shared.now, next.tree⟩ ⟨next.phase, next.completed⟩
  | sleep (shared : Shared) (p : Process) (e : Execution) (launching : p.phase = .launching e)
      (slept : e.time < shared.now) : Act jq s shared p shared { p with phase := .ready e }

inductive Drift : Shared → Shared → Prop
  | tick (shared : Shared) (t : ℕ) (later : shared.now ≤ t) (year : FourDigits t) :
      Drift shared { shared with now := t }

abbrev LabStep (jq : Jq) : Lab → Lab → Prop := Interleaving.Step (Act jq) Drift

def Lab.empty (now : ℕ) : Lab := ⟨⟨now, ∅⟩, fun _ => ⟨.idle, []⟩⟩

def LabReachable (jq : Jq) (lab : Lab) : Prop :=
  ∃ now, FourDigits now ∧ ReflTransGen (LabStep jq) (.empty now) lab

namespace Scenario

variable (s : Scenario)

def Owns (p : RunPath) : Prop := p.campaign = s.campaign ∧ p.scenario = s.scenarioId

instance (p : RunPath) : Decidable (s.Owns p) := inferInstanceAs (Decidable (_ ∧ _))

@[simp] theorem owns_path (time : ℕ) : s.Owns (s.path time) := ⟨rfl, rfl⟩

theorem Owns.eq {s other : Scenario} {p : RunPath} (own : s.Owns p) (owned : other.Owns p) : other = s := by
  obtain ⟨campaign, scenario⟩ := own
  obtain ⟨otherCampaign, otherScenario⟩ := owned
  cases s
  cases other
  simp_all

end Scenario

def Mirrors (s : Scenario) (tree own : ResultsTree) : Prop :=
  ∀ p, own.lookup p = if s.Owns p then tree.lookup p else none

section Tree

variable {s other : Scenario} {tree own : ResultsTree}

theorem Mirrors.dir (h : Mirrors s tree own) {p : RunPath} (owned : s.Owns p) : own.dir p = tree.dir p := by
  unfold ResultsTree.dir
  rw [h p, if_pos owned]

theorem Mirrors.mem_iff (h : Mirrors s tree own) (p : RunPath) : p ∈ own ↔ s.Owns p ∧ p ∈ tree := by
  rw [← AList.lookup_isSome, h p, ← AList.lookup_isSome]
  by_cases owned : s.Owns p
  · simp [owned]
  · simp [owned]

theorem lookup_edit (time : ℕ) (change : ScenarioFiles → ScenarioFiles) (p : RunPath) :
    (other.edit tree time change).lookup p = if p = other.path time then
        some (Function.update (tree.dir p) other.scenarioId (change (tree.dir p other.scenarioId)))
      else tree.lookup p := by
  unfold Scenario.edit ResultsTree.edit
  by_cases same : p = other.path time
  · subst same
    simp
  · simp [same, AList.lookup_insert_ne same]

theorem lookup_makeDir (q p : RunPath) : (tree.makeDir q).lookup p =
    if p = q ∧ p ∉ tree then some fun _ => {} else tree.lookup p := by
  unfold ResultsTree.makeDir
  by_cases present : q ∈ tree
  · rw [if_pos present, if_neg]
    rintro ⟨rfl, absent⟩
    exact absent present
  · rw [if_neg present]
    by_cases same : p = q
    · subst same
      simp [present]
    · simp [same, AList.lookup_insert_ne same]

theorem Mirrors.edit (h : Mirrors s tree own) (time : ℕ) (change : ScenarioFiles → ScenarioFiles) :
    Mirrors s (s.edit tree time change) (s.edit own time change) := by
  intro p
  rw [lookup_edit, lookup_edit]
  by_cases same : p = s.path time
  · subst same
    simp [h.dir (s.owns_path time)]
  · simp only [same, if_false, h p]

theorem Mirrors.makeDir (h : Mirrors s tree own) (time : ℕ) :
    Mirrors s (tree.makeDir (s.path time)) (own.makeDir (s.path time)) := by
  intro p
  rw [lookup_makeDir, lookup_makeDir, h p]
  by_cases owned : s.Owns p
  · simp only [h.mem_iff, owned, true_and, if_true]
  · have other : p ≠ s.path time := fun same => owned (same ▸ s.owns_path time)
    simp [owned, other]

end Tree

section Frame

variable {jq : Jq} {s : Scenario} {w next : World}

theorem Step.tree_cases (step : Step jq s w next) : next.tree = w.tree ∨ ∃ time,
    next.tree = w.tree.makeDir (s.path time) ∨ ∃ change, next.tree = s.edit w.tree time change := by
  cases step with
  | tick | stamp | sleep | finish => exact .inl rfl
  | makeDir e => exact .inr ⟨e.time, .inl rfl⟩
  | profile e | startClient e | print e | exitClient e | openMeta e | breakMeta e | writeMeta e =>
    dsimp only
    exact .inr ⟨e.time, .inr ⟨_, rfl⟩⟩

theorem Step.lookup_eq (step : Step jq s w next) {p : RunPath} (foreign : ¬ s.Owns p) :
    next.tree.lookup p = w.tree.lookup p := by
  have other (time : ℕ) : p ≠ s.path time := fun same => foreign (same ▸ s.owns_path time)
  rcases step.tree_cases with same | ⟨time, made | ⟨change, edited⟩⟩
  · rw [same]
  · rw [made, lookup_makeDir]
    simp [other]
  · rw [edited, lookup_edit, if_neg (other time)]

def OwnFiles (tree : ResultsTree) : Prop := ∀ p scenarioId, scenarioId ≠ p.scenario → tree.dir p scenarioId = {}

theorem Step.ownFiles (step : Step jq s w next) (h : OwnFiles w.tree) : OwnFiles next.tree := by
  intro p scenarioId other
  rcases step.tree_cases with same | ⟨time, made | ⟨change, edited⟩⟩
  · rw [same]
    exact h p scenarioId other
  · rw [made, ResultsTree.dir_makeDir]
    exact h p scenarioId other
  · rw [edited, ResultsTree.dir, lookup_edit]
    by_cases same : p = s.path time
    · subst same
      rw [if_pos rfl, Option.getD_some]
      exact (Function.update_of_ne other _ _).trans (h _ scenarioId other)
    · rw [if_neg same]
      exact h p scenarioId other

end Frame

/-- The execution whose `sleep 1` is not over. -/
def Phase.starting : Phase → Option Execution
  | .stamped e | .launching e => some e
  | .idle | .ready _ | .measuring _ | .measured _ _ | .recording _ _ | .recorded _ => none

theorem Phase.starting_of_profiled {phase : Phase} {e : Execution} (profiled : phase.profiled = some e) :
    phase.starting = none := by
  cases phase with
  | idle | ready | measuring | measured | recording | recorded => rfl
  | stamped | launching => cases profiled

/-- The second world is what a scenario sees of the first one. Its clock may be behind; while the
execution waits, it stands at the stamp. -/
structure Sees (s : Scenario) (w v : World) : Prop where
  tree : Mirrors s w.tree v.tree
  phase : v.phase = w.phase
  completed : v.completed = w.completed
  clock : v.now ≤ w.now
  year : FourDigits w.now
  starts : ∀ e, w.phase.starting = some e → v.now = e.time

section View

variable {jq : Jq} {s : Scenario} {w next v : World}

theorem Sees.edit (h : Sees s w v) (time : ℕ) (change : ScenarioFiles → ScenarioFiles) {phase : Phase}
    (started : phase.starting = none) (completed : List Completion) :
    Sees s ⟨w.now, s.edit w.tree time change, phase, completed⟩
      ⟨v.now, s.edit v.tree time change, phase, completed⟩ where
  tree := h.tree.edit time change
  phase := rfl
  completed := rfl
  clock := h.clock
  year := h.year
  starts := by
    intro e starting
    rw [started] at starting
    cases starting

theorem Sees.step (h : Sees s w v) (step : Step jq s w next) (clock : next.now = w.now) :
    ∃ u, ReflTransGen (Step jq s) v u ∧ Sees s next u := by
  have sees := h
  obtain ⟨before, own, phase, completed⟩ := v
  obtain ⟨mirror, same, kept, behind, year, starts⟩ := h
  dsimp only at same kept
  subst same kept
  cases step with
  | tick t later _ =>
    dsimp only at clock
    subst clock
    exact ⟨_, .refl, sees⟩
  | stamp r idle =>
    refine ⟨_, .head (.tick _ w.now behind year) (.single (.stamp _ r idle)),
      ⟨mirror, rfl, rfl, le_rfl, year, ?_⟩⟩
    intro e starting
    cases starting
    rfl
  | makeDir e stamped =>
    refine ⟨_, .single (.makeDir _ e stamped), ⟨mirror.makeDir e.time, rfl, rfl, behind, year, ?_⟩⟩
    intro other starting
    cases starting
    exact starts e (by rw [stamped]; rfl)
  | sleep e t _ later _ =>
    dsimp only at clock
    omega
  | profile e client server profiled =>
    exact ⟨_, .single (.profile _ e client server profiled),
      sees.edit e.time _ (Phase.starting_of_profiled profiled) _⟩
  | startClient e ready =>
    exact ⟨_, .single (.startClient _ e ready), sees.edit e.time _ rfl _⟩
  | print e printed measuring =>
    exact ⟨_, .single (.print _ e printed measuring), sees.edit e.time _ (by rw [measuring]; rfl) _⟩
  | exitClient e client measuring returned =>
    exact ⟨_, .single (.exitClient _ e client measuring returned), sees.edit e.time _ rfl _⟩
  | openMeta e client measured =>
    exact ⟨_, .single (.openMeta _ e client measured), sees.edit e.time _ rfl _⟩
  | breakMeta e client recording =>
    exact ⟨_, .single (.breakMeta _ e client recording), sees.edit e.time _ (by rw [recording]; rfl) _⟩
  | writeMeta e client doc recording accepted =>
    exact ⟨_, .single (.writeMeta _ e client doc recording accepted), sees.edit e.time _ rfl _⟩
  | finish => exact ⟨_, .single (.finish _), ⟨mirror, rfl, rfl, behind, year, nofun⟩⟩

theorem Sees.sleep (h : Sees s w v) {e : Execution} (launching : w.phase = .launching e) (slept : e.time < w.now) :
    ∃ u, ReflTransGen (Step jq s) v u ∧ Sees s { w with phase := .ready e } u := by
  have stands : v.now = e.time := h.starts e (by rw [launching]; rfl)
  have own : v.phase = .launching e := h.phase.trans launching
  exact ⟨_, .single (.sleep v e w.now own (by omega) h.year), ⟨h.tree, rfl, h.completed, le_rfl, h.year, nofun⟩⟩

theorem sees_projects (s : Scenario) :
    Interleaving.Projects (Act jq) Drift s (Step jq s) fun shared p v => Sees s (p.world shared) v where
  acts := by
    intro shared p next q v seen act
    cases act with
    | step world step clock =>
      obtain ⟨u, steps, seen⟩ := seen.step step clock
      exact ⟨u, steps, clock ▸ seen⟩
    | sleep e launching slept => exact seen.sleep launching slept
  others := by
    intro other shared p next q r v different seen act
    cases act with
    | step world step clock =>
      refine ⟨fun path => ?_, seen.phase, seen.completed, seen.clock, seen.year, seen.starts⟩
      rw [seen.tree path]
      by_cases owned : s.Owns path
      · have foreign : ¬ other.Owns path := fun also => different (owned.eq also)
        rw [if_pos owned, if_pos owned]
        exact (step.lookup_eq foreign).symm
      · rw [if_neg owned, if_neg owned]
    | sleep e launching slept => exact seen
  drift := by
    intro shared p next v seen drift
    cases drift with
    | tick t later year =>
      exact ⟨seen.tree, seen.phase, seen.completed, seen.clock.trans later, year, seen.starts⟩

end View

def World.shared (w : World) : Shared := ⟨w.now, w.tree⟩

def World.process (w : World) : Process := ⟨w.phase, w.completed⟩

def World.Stamped (w : World) : Prop := ∀ e, w.phase.starting = some e → e.time ≤ w.now

abbrev AloneStep (jq : Jq) (s : Scenario) : Shared × Process → Shared × Process → Prop :=
  Interleaving.Alone (Act jq) Drift s

section Alone

variable {jq : Jq} {s : Scenario} {w next : World}

theorem Step.stamped (step : Step jq s w next) (h : w.Stamped) : next.Stamped := by
  intro e starting
  cases step with
  | tick t later => exact (h e starting).trans later
  | stamp r idle =>
    cases starting
    exact le_rfl
  | makeDir e stamped =>
    cases starting
    exact h e (by rw [stamped]; rfl)
  | profile | print | breakMeta => exact h e starting
  | sleep | startClient | exitClient | openMeta | writeMeta | finish => cases starting

/-- A history of one scenario is a history of the lab in which the others do nothing. -/
theorem Step.alone (step : Step jq s w next) (h : w.Stamped) :
    ReflTransGen (AloneStep jq s) (w.shared, w.process) (next.shared, next.process) := by
  have act (clock : next.now = w.now) : AloneStep jq s (w.shared, w.process) (next.shared, next.process) := by
    have acts := Act.step w.shared w.process next step clock
    obtain ⟨now, tree, phase, completed⟩ := next
    dsimp only at clock
    subst clock
    exact .act _ _ _ _ acts
  cases step with
  | tick t later year => exact .single (.drift _ _ _ (.tick _ t later year))
  | sleep e t launching later year =>
    have slept : e.time < t := by
      have past := h e (by rw [launching]; rfl)
      omega
    exact .tail (.single (.drift _ _ _ (.tick w.shared t (Nat.le_of_succ_le later) year)))
      (.act _ _ _ _ (.sleep _ _ e launching slept))
  | stamp | makeDir | profile | startClient | print | exitClient | openMeta | breakMeta | writeMeta | finish =>
    exact .single (act rfl)

theorem alone_run {w next : World} (h : w.Stamped) (steps : ReflTransGen (Step jq s) w next) :
    ReflTransGen (AloneStep jq s) (w.shared, w.process) (next.shared, next.process) := by
  have both : ReflTransGen (AloneStep jq s) (w.shared, w.process) (next.shared, next.process) ∧ next.Stamped := by
    induction steps with
    | refl => exact ⟨.refl, h⟩
    | tail _ step ih => exact ⟨ih.1.trans (step.alone ih.2), step.stamped ih.2⟩
  exact both.1

theorem execution_recorded (w : World) (r : Request) (time : ℕ) (stamped : w.phase = .stamped ⟨r, time⟩)
    (setup : Bench.Setup) (outcome : ℕ → Bench.Outcome) (positive : 0 < Digits.atoi r.runsEffective)
    (ready : setup.succeeds = true) {doc : Json} (accepted : s.metaDoc jq r time 0 = some doc)
    (year : FourDigits (w.now + 1)) :
    ∃ v, ReflTransGen (Step jq s) w v ∧
      v.process = ⟨.recorded ⟨r, time⟩, ⟨time, (Bench.main r.clientCmd setup outcome).stdout⟩ :: w.completed⟩ ∧
      v.now = w.now + 1 ∧ (∀ p ∈ v.tree, p = s.path time ∨ p ∈ w.tree) ∧
      s.files v.tree time = { s.files w.tree time with
        benchCsv := some (Bench.main r.clientCmd setup outcome).stdout, metaJson := some (.document doc) } := by
  let client := Bench.main r.clientCmd setup outcome
  have zero : client.code = 0 :=
    congrArg Bench.Exit.code (Bench.main_ready _ _ _ _ _ outcome positive ready)
  refine ⟨_, .head (.makeDir _ ⟨r, time⟩ stamped) <| .head (.sleep _ _ (w.now + 1) rfl le_rfl year) <|
    .head (.startClient _ _ rfl) <| .head (.exitClient _ _ client rfl fun _ => ⟨setup, outcome, rfl⟩) <|
    .head (.openMeta _ _ _ rfl) <| .single (.writeMeta _ _ _ doc rfl (by rw [zero]; exact accepted)), ?_, rfl, ?_, ?_⟩
  · simp only [World.process, zero, clientStatus, if_true]
    rfl
  · intro p member
    simpa [mem_edit] using member
  · simp only [files_edit]
    simp [Scenario.files, client]

end Alone

section Growth

variable {jq : Jq} {s : Scenario}

theorem Step.completed_suffix {w next : World} (step : Step jq s w next) : w.completed <:+ next.completed := by
  cases step with
  | writeMeta =>
    dsimp only
    split_ifs
    · exact List.suffix_cons _ _
    · exact List.suffix_refl _
  | tick | stamp | makeDir | sleep | profile | startClient | print | exitClient | openMeta | breakMeta | finish =>
    exact List.suffix_refl _

theorem LabStep.grows {x y : Lab} (step : LabStep jq x y) (s : Scenario) :
    x.shared.now ≤ y.shared.now ∧ (x.process s).completed <:+ (y.process s).completed := by
  cases step with
  | act other next l acts =>
    have own : x.shared.now ≤ next.now ∧ (x.process other).completed <:+ l.completed := by
      cases acts with
      | step world step clock => exact ⟨le_rfl, step.completed_suffix⟩
      | sleep => exact ⟨le_rfl, List.suffix_refl _⟩
    refine ⟨own.1, ?_⟩
    by_cases same : s = other
    · subst same
      dsimp only
      rw [Function.update_self]
      exact own.2
    · dsimp only
      rw [Function.update_of_ne same]
  | drift next changes =>
    cases changes with
    | tick t later year => exact ⟨later, List.suffix_refl _⟩

theorem lab_grows {x y : Lab} (steps : ReflTransGen (LabStep jq) x y) (s : Scenario) :
    x.shared.now ≤ y.shared.now ∧ (x.process s).completed <:+ (y.process s).completed := by
  induction steps with
  | refl => exact ⟨le_rfl, List.suffix_refl _⟩
  | tail _ step ih =>
    have grows := LabStep.grows step s
    exact ⟨ih.1.trans grows.1, ih.2.trans grows.2⟩

end Growth

def Lab.enter (lab : Lab) (s : Scenario) (phase : Phase) : Lab :=
  ⟨lab.shared, Function.update lab.process s { lab.process s with phase }⟩

section Execution

variable {jq : Jq} {s : Scenario}

theorem Lab.stamp (lab : Lab) (r : Request) (idle : (lab.process s).phase = .idle) :
    LabStep jq lab (lab.enter s (.stamped ⟨r, lab.shared.now⟩)) :=
  .act lab s _ _ (.step _ _ _ (.stamp ((lab.process s).world lab.shared) r idle) rfl)

theorem Lab.finish (lab : Lab) : LabStep jq lab (lab.enter s .idle) :=
  .act lab s _ _ (.step _ _ _ (.finish ((lab.process s).world lab.shared)) rfl)

/-- `run_scenario.sh` gets to its last lines with the status `completed`, and so exits with code 0. Other
scenarios may run meanwhile. -/
def Succeeds (jq : Jq) (s : Scenario) (before after : Lab) : Prop :=
  ∃ r started recorded bench older,
    ReflTransGen (LabStep jq) before started ∧ (started.process s).phase = .idle ∧
    ReflTransGen (LabStep jq) (started.enter s (.stamped ⟨r, started.shared.now⟩)) recorded ∧
    recorded.process s = ⟨.recorded ⟨r, started.shared.now⟩, ⟨started.shared.now, bench⟩ :: older⟩ ∧
    ReflTransGen (LabStep jq) (recorded.enter s .idle) after

theorem Succeeds.steps {before after : Lab} (h : Succeeds jq s before after) :
    ReflTransGen (LabStep jq) before after := by
  obtain ⟨r, started, recorded, bench, older, before, idle, during, -, later⟩ := h
  exact before.trans (.head (started.stamp r idle) (during.trans (.head recorded.finish later)))

theorem Succeeds.fresh {before after : Lab} (h : Succeeds jq s before after) :
    ∃ c ∈ (after.process s).completed, before.shared.now ≤ c.time := by
  obtain ⟨r, started, recorded, bench, older, before, idle, during, done, later⟩ := h
  have kept := (lab_grows (.head recorded.finish later) s).2
  rw [done] at kept
  exact ⟨_, kept.subset (List.mem_cons_self ..), (lab_grows before s).1⟩

section Undisturbed

variable (r : Request) (setup : Bench.Setup) (outcome : ℕ → Bench.Outcome)
  (positive : 0 < Digits.atoi r.runsEffective) (ready : setup.succeeds = true)

include positive ready

theorem execution_resumes (lab : Lab) (time : ℕ) (stamped : (lab.process s).phase = .stamped ⟨r, time⟩)
    (past : time ≤ lab.shared.now) {doc : Json} (accepted : s.metaDoc jq r time 0 = some doc)
    (year : FourDigits (lab.shared.now + 1)) :
    ∃ after, ReflTransGen (LabStep jq) lab after ∧
      after.process = Function.update lab.process s ⟨.recorded ⟨r, time⟩,
        ⟨time, (Bench.main r.clientCmd setup outcome).stdout⟩ :: (lab.process s).completed⟩ ∧
      after.shared.now = lab.shared.now + 1 ∧
      (∀ p ∈ after.shared.tree, p = s.path time ∨ p ∈ lab.shared.tree) ∧
      s.files after.shared.tree time = { s.files lab.shared.tree time with
        benchCsv := some (Bench.main r.clientCmd setup outcome).stdout, metaJson := some (.document doc) } := by
  let w := (lab.process s).world lab.shared
  have before : w.Stamped := by
    intro e starting
    change (lab.process s).phase.starting = some e at starting
    rw [stamped] at starting
    cases starting
    exact past
  obtain ⟨v, steps, recorded, now, members⟩ :=
    execution_recorded w r time stamped setup outcome positive ready accepted year
  have run := Interleaving.Alone.run (alone_run before steps) lab.process rfl
  exact ⟨⟨v.shared, Function.update lab.process s v.process⟩, run,
    congrArg (Function.update lab.process s) recorded, now, members⟩

theorem execution_succeeds (lab : Lab) (idle : (lab.process s).phase = .idle) {doc : Json}
    (accepted : s.metaDoc jq r lab.shared.now 0 = some doc) (year : FourDigits (lab.shared.now + 1)) :
    ∃ after, Succeeds jq s lab after ∧
      after.process = Function.update lab.process s ⟨.idle,
        ⟨lab.shared.now, (Bench.main r.clientCmd setup outcome).stdout⟩ :: (lab.process s).completed⟩ ∧
      after.shared.now = lab.shared.now + 1 ∧
      (∀ p ∈ after.shared.tree, p = s.path lab.shared.now ∨ p ∈ lab.shared.tree) ∧
      s.files after.shared.tree lab.shared.now = { s.files lab.shared.tree lab.shared.now with
        benchCsv := some (Bench.main r.clientCmd setup outcome).stdout, metaJson := some (.document doc) } := by
  have stamped : ((lab.enter s (.stamped ⟨r, lab.shared.now⟩)).process s) =
      ⟨.stamped ⟨r, lab.shared.now⟩, (lab.process s).completed⟩ := Function.update_self ..
  obtain ⟨after, run, process, now, members⟩ := execution_resumes r setup outcome positive ready
    (lab.enter s (.stamped ⟨r, lab.shared.now⟩)) lab.shared.now (by rw [stamped]) le_rfl accepted year
  rw [stamped] at process
  have recorded := (congrFun process s).trans (Function.update_self ..)
  refine ⟨after.enter s .idle, ⟨r, lab, after, _, _, .refl, idle, run, recorded, .refl⟩, ?_, now, members⟩
  rw [Lab.enter, recorded, process, Lab.enter, Function.update_idem, Function.update_idem]

end Undisturbed

end Execution

def quick : Scenario := ⟨"quick".toList, ['A']⟩

def owner (p : RunPath) : Scenario := ⟨p.scenario, p.campaign⟩

def Lab.Completed (lab : Lab) (p : RunPath) : Prop :=
  ∃ c ∈ (lab.process (owner p)).completed, p = (owner p).path c.time

section Reachable

variable {jq : Jq} {lab : Lab}

theorem LabReachable.sees (reachable : LabReachable jq lab) (s : Scenario) :
    ∃ w, Reachable jq s w ∧ Sees s ((lab.process s).world lab.shared) w := by
  obtain ⟨now, year, steps⟩ := reachable
  have start : Sees s ⟨now, ∅, .idle, []⟩ ⟨now, ∅, .idle, []⟩ :=
    ⟨fun p => by simp, rfl, rfl, le_rfl, year, nofun⟩
  obtain ⟨w, history, seen⟩ := (sees_projects s).run (x := Lab.empty now) start steps
  exact ⟨w, ⟨now, year, history⟩, seen⟩

theorem LabReachable.ownFiles (reachable : LabReachable jq lab) : OwnFiles lab.shared.tree := by
  obtain ⟨now, -, steps⟩ := reachable
  induction steps with
  | refl =>
    intro p scenarioId other
    rfl
  | tail _ step ih =>
    cases step with
    | act s next l acts =>
      cases acts with
      | step world step clock => exact step.ownFiles ih
      | sleep e launching slept => exact ih
    | drift next changes =>
      cases changes with
      | tick t later year => exact ih

theorem LabReachable.verdict (reachable : LabReachable jq lab) {p : RunPath} (member : p ∈ lab.shared.tree)
    (scenarioId : Text) :
    (p.scenario = scenarioId ∧ lab.Completed p → lab.shared.tree.isValid scenarioId p = .ok true) ∧
      (¬ (p.scenario = scenarioId ∧ lab.Completed p) → lab.shared.tree.isValid scenarioId p = .ok false) := by
  by_cases same : p.scenario = scenarioId
  · subst same
    obtain ⟨w, history, seen⟩ := reachable.sees (owner p)
    have consistent := history.invariant.consistent
    have kept : w.completed = (lab.process (owner p)).completed := seen.completed
    have verdict : lab.shared.tree.isValid p.scenario p = w.tree.isValid p.scenario p := by
      unfold ResultsTree.isValid
      rw [seen.tree.dir ⟨rfl, rfl⟩]
      rfl
    have inside : p ∈ w.tree := (seen.tree.mem_iff p).mpr ⟨⟨rfl, rfl⟩, member⟩
    rw [verdict]
    constructor
    · rintro ⟨-, c, done, path⟩
      obtain ⟨-, -, valid⟩ := consistent.kept c (kept ▸ done)
      rw [← path] at valid
      exact valid
    · intro refused
      apply consistent.refused p inside
      intro c done path
      exact refused ⟨rfl, c, kept ▸ done, path⟩
  · have absent : lab.shared.tree.isValid scenarioId p = .ok false := by
      apply isValidRunDir_noMeta
      rw [reachable.ownFiles p scenarioId (Ne.symm same)]
    exact ⟨fun holds => absurd holds.1 same, fun _ => absent⟩

theorem LabReachable.selected_iff (reachable : LabReachable jq lab) (scenarioId : Text) (hint : Option Text)
    (p : RunPath) :
    latestValidRunDir lab.shared.tree scenarioId hint = .ok p ↔
      IsGreatest {q | q ∈ candidates lab.shared.tree scenarioId hint ∧ q.scenario = scenarioId ∧ lab.Completed q}
        p := by
  rw [latestValidRunDir_ok]
  constructor
  · rintro ⟨member, valid, later⟩
    refine ⟨⟨member, ?_⟩, fun q ⟨inside, done⟩ => ?_⟩
    · by_contra refused
      rw [(reachable.verdict (mem_of_mem_candidates member) scenarioId).2 refused] at valid
      cases valid
    · by_contra after
      have refused := later q inside (not_le.mp after)
      rw [(reachable.verdict (mem_of_mem_candidates inside) scenarioId).1 done] at refused
      cases refused
  · rintro ⟨⟨member, done⟩, greatest⟩
    refine ⟨member, (reachable.verdict (mem_of_mem_candidates member) scenarioId).1 done, ?_⟩
    intro q inside after
    apply (reachable.verdict (mem_of_mem_candidates inside) scenarioId).2
    intro doneToo
    exact absurd (greatest ⟨inside, doneToo⟩) (not_le.mpr after)

theorem LabReachable.newest (reachable : LabReachable jq lab) {s : Scenario} {last : Completion}
    {rest : List Completion} (completed : (lab.process s).completed = last :: rest) :
    s.path last.time ∈ lab.shared.tree ∧
      (s.files lab.shared.tree last.time).benchCsv = some last.bench ∧
      ∀ c ∈ (lab.process s).completed, c.time ≤ last.time ∧ s.path c.time ≤ s.path last.time := by
  obtain ⟨w, history, seen⟩ := reachable.sees s
  have kept : w.completed = (lab.process s).completed := seen.completed
  have consistent := history.invariant.consistent
  rw [kept, completed] at consistent
  obtain ⟨present, bench, -⟩ := consistent.kept last (by simp)
  refine ⟨((seen.tree.mem_iff _).mp present).2, ?_, fun c member => ?_⟩
  · rw [← bench]
    unfold Scenario.files
    rw [seen.tree.dir (s.owns_path _)]
    rfl
  · have before : c.time ≤ last.time := by
      rw [completed] at member
      rcases List.mem_cons.mp member with rfl | member
      · exact le_rfl
      · exact (List.rel_of_pairwise_cons consistent.newestFirst member).le
    exact ⟨before, path_le before (consistent.year.mono (consistent.past last (by simp)).le)⟩

theorem Lab.Completed.of_mem {s : Scenario} {c : Completion} (member : c ∈ (lab.process s).completed) :
    lab.Completed (s.path c.time) := ⟨c, member, rfl⟩

theorem Lab.Completed.owned {s : Scenario} {p : RunPath} (done : lab.Completed p) (owned : s.Owns p) :
    ∃ c ∈ (lab.process s).completed, p = s.path c.time := by
  have same : owner p = s := owned.eq ⟨rfl, rfl⟩
  rw [← same]
  exact done

end Reachable

end PqcLab.Runner
