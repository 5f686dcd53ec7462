import Mathlib.Data.List.Sort

/-! The first element, from the greatest down, that a fallible test accepts, and the last one that a loop
wants. -/

namespace Search

variable {α ε : Type} {test : α → Except ε Bool}

theorem findM?_append (before : List α) (refused : ∀ b ∈ before, test b = .ok false) (rest : List α) :
    (before ++ rest).findM? test = rest.findM? test := by
  induction before with
  | nil => rfl
  | cons b before ih =>
    have head := refused b (by simp)
    rw [List.cons_append, List.findM?, head]
    exact ih fun c member => refused c (by simp [member])

theorem findM?_cases (test : α → Except ε Bool) (l : List α) :
    (∀ a ∈ l, test a = .ok false) ∧ l.findM? test = .ok none ∨
    ∃ before a after, l = before ++ a :: after ∧ (∀ b ∈ before, test b = .ok false) ∧
      test a ≠ .ok false ∧ l.findM? test = (test a).map fun _ => some a := by
  induction l with
  | nil => exact .inl ⟨by simp, rfl⟩
  | cons a l ih =>
    by_cases refused : test a = .ok false
    · have skip : (a :: l).findM? test = l.findM? test :=
        findM?_append [a] (by simpa using refused) l
      rw [skip]
      rcases ih with ⟨all, result⟩ | ⟨before, b, after, same, earlier, stops, result⟩
      · exact .inl ⟨by simpa [refused] using all, result⟩
      · exact .inr ⟨a :: before, b, after, by simp [same], by simpa [refused] using earlier, stops, result⟩
    · refine .inr ⟨[], a, l, rfl, by simp, refused, ?_⟩
      rw [List.findM?]
      cases verdict : test a with
      | error e => rfl
      | ok accepted =>
        cases accepted with
        | true => rfl
        | false => exact absurd verdict refused

/-- A loop that keeps what it makes of the last element it wants. -/
theorem foldl_last {β : Type} (wanted : α → Bool) (make : α → β) (start : β) (l : List α) :
    l.foldl (fun kept a => if wanted a then make a else kept) start =
      (l.reverse.find? wanted).elim start make := by
  induction l generalizing start with
  | nil => rfl
  | cons a l ih =>
    rw [List.foldl_cons, ih, List.reverse_cons, List.find?_append]
    cases l.reverse.find? wanted with
    | some b => rfl
    | none =>
      by_cases chosen : wanted a = true
      · simp [chosen]
      · simp [chosen]

variable [LinearOrder α]

/-- `sorted(l, reverse=True)` -/
def descending (l : List α) : List α := l.insertionSort (· ≥ ·)

@[simp] theorem mem_descending {l : List α} {a : α} : a ∈ descending l ↔ a ∈ l :=
  (l.perm_insertionSort (· ≥ ·)).mem_iff

theorem descending_pairwise {l : List α} (nodup : l.Nodup) : (descending l).Pairwise (· > ·) := by
  have sorted := l.pairwise_insertionSort (· ≥ ·)
  have distinct : (descending l).Nodup := (l.perm_insertionSort (· ≥ ·)).nodup_iff.mpr nodup
  exact sorted.imp₂ (fun a b ge ne => lt_of_le_of_ne ge (Ne.symm ne)) distinct

/-- The search from the greatest element down, as an order-free statement. -/
theorem findM?_descending_cases {l : List α} (nodup : l.Nodup) (test : α → Except ε Bool) :
    (∀ a ∈ l, test a = .ok false) ∧ (descending l).findM? test = .ok none ∨
    ∃ a ∈ l, (∀ b ∈ l, a < b → test b = .ok false) ∧ test a ≠ .ok false ∧
      (descending l).findM? test = (test a).map fun _ => some a := by
  have sorted := descending_pairwise nodup
  rcases findM?_cases test (descending l) with ⟨all, result⟩ | ⟨before, a, after, same, earlier, stops, result⟩
  · exact .inl ⟨by simpa using all, result⟩
  · refine .inr ⟨a, mem_descending.mp (by simp [same]), fun b member greater => earlier b ?_, stops, result⟩
    rw [same] at sorted
    obtain ⟨-, tail, -⟩ := List.pairwise_append.mp sorted
    rw [← mem_descending, same, List.mem_append, List.mem_cons] at member
    rcases member with early | rfl | late
    · exact early
    · exact absurd greater (lt_irrefl b)
    · exact absurd greater (not_lt_of_gt ((List.pairwise_cons.mp tail).1 b late))

theorem stop_unique {l : List α} {a b : α} (memberA : a ∈ l) (memberB : b ∈ l)
    (aboveA : ∀ c ∈ l, a < c → test c = .ok false) (aboveB : ∀ c ∈ l, b < c → test c = .ok false)
    (stopsA : test a ≠ .ok false) (stopsB : test b ≠ .ok false) : a = b := by
  rcases lt_trichotomy a b with less | same | greater
  · exact absurd (aboveA b memberB less) stopsB
  · exact same
  · exact absurd (aboveB a memberA greater) stopsA

theorem findM?_descending_of_stop {l : List α} (nodup : l.Nodup) {a : α} (member : a ∈ l)
    (above : ∀ b ∈ l, a < b → test b = .ok false) (stops : test a ≠ .ok false) :
    (descending l).findM? test = (test a).map fun _ => some a := by
  rcases findM?_descending_cases nodup test with ⟨all, -⟩ | ⟨b, memberB, aboveB, stopsB, result⟩
  · exact absurd (all a member) stops
  · rw [stop_unique member memberB above aboveB stops stopsB]
    exact result

theorem findM?_descending_some {l : List α} (nodup : l.Nodup) {a : α} :
    (descending l).findM? test = .ok (some a) ↔
      a ∈ l ∧ test a = .ok true ∧ ∀ b ∈ l, a < b → test b = .ok false := by
  constructor
  · intro found
    rcases findM?_descending_cases nodup test with ⟨-, result⟩ | ⟨b, member, above, stops, result⟩
    · simp [result] at found
    · rw [result] at found
      cases verdict : test b with
      | error e => simp [verdict, Except.map] at found
      | ok accepted =>
        simp only [verdict, Except.map, Except.ok.injEq, Option.some.injEq] at found
        subst found
        cases accepted with
        | true => exact ⟨member, verdict, above⟩
        | false => exact absurd verdict stops
  · rintro ⟨member, accepted, above⟩
    rw [findM?_descending_of_stop nodup member above (by simp [accepted]), accepted]
    rfl

end Search
