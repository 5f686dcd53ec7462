import Mathlib.Logic.Basic

/-! Scripts that stop at the first command that fails. -/

namespace Script

variable {σ : Type}

/-- A command leaves a state in which the script goes on, or one in which it exits. -/
abbrev Command (σ : Type) := σ → Except σ σ

def run (commands : List (Command σ)) : Command σ := fun start =>
  commands.foldlM (fun state command => command state) start

@[simp] theorem run_nil (start : σ) : run [] start = .ok start := rfl

theorem run_cons (command : Command σ) (commands : List (Command σ)) (start : σ) :
    run (command :: commands) start = (command start).bind (run commands) := rfl

theorem run_append (first second : List (Command σ)) (start : σ) :
    run (first ++ second) start = (run first start).bind (run second) := by
  unfold run
  rw [List.foldlM_append]
  rfl

theorem run_cons_ok {command : Command σ} {commands : List (Command σ)} {start stop : σ} :
    run (command :: commands) start = .ok stop ↔
      ∃ next, command start = .ok next ∧ run commands next = .ok stop := by
  rw [run_cons]
  cases command start with
  | error state => simp [Except.bind]
  | ok state => simp [Except.bind]

theorem run_append_ok {first second : List (Command σ)} {start stop : σ} :
    run (first ++ second) start = .ok stop ↔
      ∃ next, run first start = .ok next ∧ run second next = .ok stop := by
  rw [run_append]
  cases run first start with
  | error state => simp [Except.bind]
  | ok state => simp [Except.bind]

/-- A command, and what it may leave when it fails for a reason of its own. -/
structure Step (σ : Type) where
  command : Command σ
  spoils : σ → σ → Prop

/-- A script stops between two commands, at one that fails, or at its end. -/
inductive Stops : List (Step σ) → σ → σ → Prop
  | here (steps : List (Step σ)) (state : σ) : Stops steps state state
  | spoiled {step : Step σ} {steps : List (Step σ)} {state stop : σ} :
      step.spoils state stop → Stops (step :: steps) state stop
  | failed {step : Step σ} {steps : List (Step σ)} {state stop : σ} :
      step.command state = .error stop → Stops (step :: steps) state stop
  | next {step : Step σ} {steps : List (Step σ)} {state middle stop : σ} :
      step.command state = .ok middle → Stops steps middle stop → Stops (step :: steps) state stop

def outcome : Except σ σ → σ
  | .ok state | .error state => state

structure Step.Keeps (step : Step σ) (Holds : σ → Prop) : Prop where
  command : ∀ {state}, Holds state → Holds (outcome (step.command state))
  spoils : ∀ {state stop}, Holds state → step.spoils state stop → Holds stop

/-- A command that writes one part of the state, and may leave anything there when it fails. -/
def Step.writing {β : Type} (command : Command σ) (put : β → σ → σ) : Step σ where
  command := command
  spoils before after := ∃ part, after = put part before

theorem Step.writing_keeps {β : Type} {command : Command σ} {put : β → σ → σ} {Holds : σ → Prop}
    (writes : ∀ state, ∃ part, outcome (command state) = put part state)
    (kept : ∀ part state, Holds state → Holds (put part state)) :
    (Step.writing command put).Keeps Holds := by
  constructor
  · intro state holds
    obtain ⟨part, written⟩ := writes state
    change Holds (outcome (command state))
    rw [written]
    exact kept part state holds
  · intro state stop holds spoilt
    obtain ⟨part, rfl⟩ := spoilt
    exact kept part state holds

variable {first second steps : List (Step σ)} {start stop : σ}

theorem Stops.keeps {Holds : σ → Prop} (stopped : Stops steps start stop)
    (each : ∀ step ∈ steps, step.Keeps Holds) (initially : Holds start) : Holds stop := by
  induction stopped with
  | here steps state => exact initially
  | spoiled left => exact (each _ List.mem_cons_self).spoils initially left
  | failed left =>
    have kept := (each _ List.mem_cons_self).command initially
    rwa [left] at kept
  | next left _ ih =>
    have kept := (each _ List.mem_cons_self).command initially
    rw [left] at kept
    exact ih (fun step member => each step (List.mem_cons_of_mem _ member)) kept

theorem Stops.of_append (stopped : Stops (first ++ second) start stop) :
    Stops first start stop ∨
      ∃ middle, run (first.map Step.command) start = .ok middle ∧ Stops second middle stop := by
  induction first generalizing start with
  | nil => exact .inr ⟨start, rfl, stopped⟩
  | cons step first ih =>
    cases stopped with
    | here => exact .inl (.here _ _)
    | spoiled left => exact .inl (.spoiled left)
    | failed left => exact .inl (.failed left)
    | next left stopped =>
      rcases ih stopped with early | ⟨middle, completed, late⟩
      · exact .inl (.next left early)
      · exact .inr ⟨middle, run_cons_ok.mpr ⟨_, left, completed⟩, late⟩

theorem Stops.of_run_ok (completed : run (steps.map Step.command) start = .ok stop) :
    Stops steps start stop := by
  induction steps generalizing start with
  | nil =>
    cases completed
    exact .here _ _
  | cons step steps ih =>
    obtain ⟨middle, left, completed⟩ := run_cons_ok.mp completed
    exact .next left (ih completed)

theorem Stops.of_run_error (refused : run (steps.map Step.command) start = .error stop) :
    Stops steps start stop := by
  induction steps generalizing start with
  | nil => cases refused
  | cons step steps ih =>
    rw [List.map_cons, run_cons] at refused
    cases left : step.command start with
    | error state =>
      rw [left] at refused
      cases refused
      exact .failed left
    | ok middle =>
      rw [left] at refused
      exact .next left (ih refused)

theorem Stops.of_take (steps : List (Step σ)) (start : σ) (count : Nat) :
    Stops steps start (outcome (run ((steps.take count).map Step.command) start)) := by
  induction count generalizing steps start with
  | zero => exact .here _ _
  | succ count ih =>
    cases steps with
    | nil => exact .here _ _
    | cons step steps =>
      rw [List.take_succ_cons, List.map_cons, run_cons]
      cases left : step.command start with
      | error state => exact .failed left
      | ok middle => exact .next left (ih steps middle)

end Script
