import Mathlib.Data.List.Forall2
import Mathlib.Logic.Basic

/-! Which errors a computation can end with, and when a list of them has none. -/

def Raises {ε α : Type} (kind : ε → Prop) (x : Except ε α) : Prop := ∀ e, x = .error e → kind e

namespace Raises

variable {ε α β : Type} {kind : ε → Prop}

theorem ok (a : α) : Raises kind (.ok a : Except ε α) := fun _ same => by cases same

theorem pure (a : α) : Raises kind (Pure.pure a : Except ε α) := ok a

theorem error {e : ε} (h : kind e) : Raises kind (.error e : Except ε α) := fun _ same => by
  cases same
  exact h

theorem bind {x : Except ε α} {f : α → Except ε β} (first : Raises kind x)
    (next : ∀ a, Raises kind (f a)) : Raises kind (x >>= f) := by
  cases x with
  | error e => exact error (first e rfl)
  | ok a => exact next a

theorem mapM {f : α → Except ε β} (each : ∀ a, Raises kind (f a)) (l : List α) :
    Raises kind (l.mapM f) := by
  induction l with
  | nil => exact pure []
  | cons a l ih =>
    rw [List.mapM_cons]
    exact (each a).bind fun b => ih.bind fun rest => pure (b :: rest)

end Raises

theorem Except.of_bind_ok {ε α β : Type} {x : Except ε α} {f : α → Except ε β} {b : β}
    (h : x.bind f = .ok b) : ∃ a, x = .ok a ∧ f a = .ok b := by
  cases x with
  | error e => cases h
  | ok a => exact ⟨a, rfl, h⟩

theorem Except.of_map_ok {ε α β : Type} {x : Except ε α} {f : α → β} {b : β} (h : x.map f = .ok b) :
    ∃ a, x = .ok a ∧ f a = b := by
  cases x with
  | error e => cases h
  | ok a => exact ⟨a, rfl, Except.ok.inj h⟩

theorem Except.mapM_ok {ε α β : Type} {f : α → Except ε β} {g : α → β} {l : List α}
    (each : ∀ a ∈ l, f a = .ok (g a)) : l.mapM f = .ok (l.map g) := by
  induction l with
  | nil => rfl
  | cons a l ih =>
    rw [List.mapM_cons, each a (by simp), ih fun b member => each b (by simp [member])]
    rfl

theorem Except.mapM_ok_iff {ε α β : Type} {f : α → Except ε β} {l : List α} {r : List β} :
    l.mapM f = .ok r ↔ List.Forall₂ (fun a b => f a = .ok b) l r := by
  induction l generalizing r with
  | nil =>
    rw [List.mapM_nil, List.forall₂_nil_left_iff]
    exact ⟨fun same => (Except.ok.inj same).symm, fun same => same ▸ rfl⟩
  | cons a l ih =>
    rw [List.mapM_cons, List.forall₂_cons_left_iff]
    constructor
    · intro computed
      obtain ⟨b, first, computed⟩ := Except.of_bind_ok computed
      obtain ⟨rest, others, computed⟩ := Except.of_bind_ok computed
      exact ⟨b, rest, first, ih.mp others, (Except.ok.inj computed).symm⟩
    · rintro ⟨b, rest, first, others, rfl⟩
      rw [first, ih.mpr others]
      rfl

theorem Except.mapM_error {ε α β : Type} {f : α → Except ε β} {before after : List α} {a : α} {e : ε}
    (earlier : ∀ b ∈ before, ∃ r, f b = .ok r) (fails : f a = .error e) :
    (before ++ a :: after).mapM f = .error e := by
  induction before with
  | nil =>
    rw [List.nil_append, List.mapM_cons, fails]
    rfl
  | cons b before ih =>
    obtain ⟨r, first⟩ := earlier b (by simp)
    rw [List.cons_append, List.mapM_cons, first, ih fun c member => earlier c (by simp [member])]
    rfl

theorem Except.of_mem_mapM {ε α β : Type} {f : α → Except ε β} {l : List α} {r : List β}
    (computed : List.Forall₂ (fun a b => f a = .ok b) l r) {b : β} (member : b ∈ r) : ∃ a ∈ l, f a = .ok b := by
  induction computed with
  | nil => cases member
  | cons first _ ih =>
    rcases List.mem_cons.mp member with rfl | member
    · exact ⟨_, List.mem_cons_self, first⟩
    · obtain ⟨a, inside, same⟩ := ih member
      exact ⟨a, List.mem_cons_of_mem _ inside, same⟩
