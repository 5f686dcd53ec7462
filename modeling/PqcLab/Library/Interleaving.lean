import Mathlib.Logic.Function.Basic
import Mathlib.Logic.Relation

/-! Processes over one shared store in any interleaving, and what one of them sees of it. -/

namespace Interleaving

open Relation (ReflTransGen)

structure System (ι σ ℓ : Type) where
  shared : σ
  process : ι → ℓ

section

variable {ι σ ℓ τ : Type} [DecidableEq ι] (act : ι → σ → ℓ → σ → ℓ → Prop) (drift : σ → σ → Prop)

inductive Step : System ι σ ℓ → System ι σ ℓ → Prop
  | act (x : System ι σ ℓ) (i : ι) (next : σ) (l : ℓ) (acts : act i x.shared (x.process i) next l) :
      Step x ⟨next, Function.update x.process i l⟩
  | drift (x : System ι σ ℓ) (next : σ) (changes : drift x.shared next) : Step x ⟨next, x.process⟩

/-- A view of one process: its own actions are runs of the view, and nothing else changes the view. -/
structure Projects (i : ι) (own : τ → τ → Prop) (sees : σ → ℓ → τ → Prop) : Prop where
  acts : ∀ {shared l next m w}, sees shared l w → act i shared l next m →
    ∃ v, ReflTransGen own w v ∧ sees next m v
  others : ∀ {j shared k next m l w}, j ≠ i → sees shared l w → act j shared k next m → sees next l w
  drift : ∀ {shared l next w}, sees shared l w → drift shared next → sees next l w

variable {act drift} {i : ι} {own : τ → τ → Prop} {sees : σ → ℓ → τ → Prop}

theorem Projects.step (h : Projects act drift i own sees) {x y : System ι σ ℓ} {w : τ}
    (seen : sees x.shared (x.process i) w) (step : Step act drift x y) :
    ∃ v, ReflTransGen own w v ∧ sees y.shared (y.process i) v := by
  cases step with
  | act j next l acts =>
    by_cases same : j = i
    · subst same
      obtain ⟨v, steps, seen⟩ := h.acts seen acts
      refine ⟨v, steps, ?_⟩
      dsimp only
      rw [Function.update_self]
      exact seen
    · refine ⟨w, .refl, ?_⟩
      dsimp only
      rw [Function.update_of_ne (Ne.symm same)]
      exact h.others same seen acts
  | drift next changes => exact ⟨w, .refl, h.drift seen changes⟩

variable (act drift i) in
inductive Alone : σ × ℓ → σ × ℓ → Prop
  | act (shared : σ) (l : ℓ) (next : σ) (m : ℓ) (acts : act i shared l next m) : Alone (shared, l) (next, m)
  | drift (shared : σ) (l : ℓ) (next : σ) (changes : drift shared next) : Alone (shared, l) (next, l)

theorem Alone.step {a b : σ × ℓ} (alone : Alone act drift i a b) (process : ι → ℓ) (here : process i = a.2) :
    Step act drift ⟨a.1, process⟩ ⟨b.1, Function.update process i b.2⟩ := by
  cases alone with
  | act shared l next m acts =>
    dsimp only at here
    subst here
    exact .act ⟨shared, process⟩ i next m acts
  | drift shared l next changes =>
    dsimp only at here ⊢
    rw [← here, Function.update_eq_self]
    exact .drift ⟨shared, process⟩ next changes

/-- What a process does alone, it can do in the system. -/
theorem Alone.run {a b : σ × ℓ} (steps : ReflTransGen (Alone act drift i) a b) (process : ι → ℓ)
    (here : process i = a.2) :
    ReflTransGen (Step act drift) ⟨a.1, process⟩ ⟨b.1, Function.update process i b.2⟩ := by
  induction steps with
  | refl =>
    rw [← here, Function.update_eq_self]
  | @tail b c _ alone ih =>
    have last := alone.step (Function.update process i b.2) (Function.update_self ..)
    rw [Function.update_idem] at last
    exact ih.tail last

/-- Whatever the interleaving, each process sees a run of its own. -/
theorem Projects.run (h : Projects act drift i own sees) {x y : System ι σ ℓ} {w : τ}
    (seen : sees x.shared (x.process i) w) (steps : ReflTransGen (Step act drift) x y) :
    ∃ v, ReflTransGen own w v ∧ sees y.shared (y.process i) v := by
  induction steps with
  | refl => exact ⟨w, .refl, seen⟩
  | tail _ step ih =>
    obtain ⟨v, before, seen⟩ := ih
    obtain ⟨u, after, seen⟩ := h.step seen step
    exact ⟨u, before.trans after, seen⟩

end

end Interleaving
