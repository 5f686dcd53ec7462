import PqcLab.Library.Text
import Mathlib.Algebra.Order.BigOperators.Group.List
import Mathlib.Algebra.Order.Ring.Nat

/-! The two readers of a campaign list: the loop of `run_scenario_list.sh` and `load_listfile`. -/

namespace PqcLab.ListFile

open Text

def isEntry (line : Text) : Bool := line ≠ [] && line.head? ≠ some '#'

/-- `read` drops null characters. -/
def readLine (line : Text) : Text := line.filter (· ≠ '\x00')

/-- The scenarios that the shell's loop runs: `read` fails on a last line without a `\n`. -/
def runScenarioList (file : Text) : List Text := ((terminated file).1.map readLine).filter isEntry

def loadListfile (file : Text) : List Text := ((lines file).map strip).filter isEntry

/-- A piece that `load_listfile` passes over. -/
def Silent (piece : Text) : Prop := strip piece = [] ∨ (strip piece).head? = some '#'

inductive Agrees (line : Text) : Prop
  | blank (empty : line = [])
  | comment (hash : line.head? = some '#') (silent : ∀ piece ∈ lines line, Silent piece)
  | entry (nonempty : line ≠ []) (trimmed : Trimmed line) (noReturn : '\r' ∉ line) (noNull : '\x00' ∉ line)
      (noHash : line.head? ≠ some '#')

theorem silent_iff (piece : Text) : Silent piece ↔ isEntry (strip piece) = false := by
  by_cases empty : strip piece = []
  · simp [Silent, isEntry, empty]
  · simp [Silent, isEntry, empty]

theorem loadListfile_eq_nil (file : Text) : loadListfile file = [] ↔ ∀ piece ∈ lines file, Silent piece := by
  simp [loadListfile, silent_iff]

theorem loadListfile_cons {line rest next : Text} (plain : ∀ c ∈ line, isNewline c = false)
    (ends : translateNewlines rest = '\n' :: translateNewlines next) :
    loadListfile (line ++ rest) = [strip line].filter isEntry ++ loadListfile next := by
  unfold loadListfile
  rw [lines_append plain ends, List.map_cons, ← List.singleton_append, List.filter_append]

theorem loadListfile_plain {line : Text} (plain : ∀ c ∈ line, isNewline c = false) :
    loadListfile line = [strip line].filter isEntry := by
  by_cases empty : line = []
  · subst empty
    decide
  · unfold loadListfile
    rw [lines_plain plain empty]
    rfl

theorem loadListfile_return {line : Text} (plain : ∀ c ∈ line, isNewline c = false) (rest : Text) :
    loadListfile (line ++ '\r' :: rest) = [strip line].filter isEntry ++ loadListfile rest := by
  by_cases both : rest.head? = some '\n'
  · cases rest with
    | nil => simp at both
    | cons c rest =>
      injection both with same
      subst same
      -- the `\n` of a `\r\n` would be a blank line on its own
      have blank := @loadListfile_cons [] _ _ (by simp) (translateNewlines_newline rest)
      rw [List.nil_append] at blank
      rw [loadListfile_cons plain (translateNewlines_both rest), blank]
      rfl
  · exact loadListfile_cons plain (translateNewlines_return both)

theorem plain_of_noReturn {line : Text} (clean : '\n' ∉ line) (noReturn : '\r' ∉ line) :
    ∀ c ∈ line, isNewline c = false := by
  intro c inside
  have lf : c ≠ '\n' := fun same => clean (same ▸ inside)
  have cr : c ≠ '\r' := fun same => noReturn (same ▸ inside)
  simp [isNewline, lf, cr]

theorem loadListfile_newline (line rest : Text) (clean : '\n' ∉ line) :
    loadListfile (line ++ '\n' :: rest) = loadListfile line ++ loadListfile rest := by
  -- each carriage return ends a piece of the line
  induction size : line.length using Nat.strong_induction_on generalizing line with
  | _ n ih =>
    by_cases member : '\r' ∈ line
    · obtain ⟨piece, after, rfl, noReturn⟩ := List.eq_append_cons_of_mem member
      have plain := plain_of_noReturn (fun inside => clean (List.mem_append_left _ inside)) noReturn
      rw [List.append_assoc, List.cons_append, loadListfile_return plain, loadListfile_return plain,
        ih after.length (by simp at size; omega) after (fun inside => clean (by simp [inside])) rfl,
        List.append_assoc]
    · have plain := plain_of_noReturn clean member
      rw [loadListfile_cons plain (translateNewlines_newline rest), loadListfile_plain plain]

theorem loadListfile_eq (file : Text) :
    loadListfile file = (terminated file).1.flatMap loadListfile ++ loadListfile (terminated file).2 := by
  obtain ⟨join, clean, -⟩ := terminated_join file
  have folded (lines : List Text) (clean : ∀ line ∈ lines, '\n' ∉ line) (last : Text) :
      loadListfile (lines.flatMap (fun line => line ++ ['\n']) ++ last) =
        lines.flatMap loadListfile ++ loadListfile last := by
    induction lines with
    | nil => rfl
    | cons line lines ih =>
      rw [List.flatMap_cons, List.flatMap_cons, List.append_assoc, List.append_assoc, List.singleton_append,
        loadListfile_newline line _ (clean line (by simp)), ih fun l member => clean l (by simp [member]),
        List.append_assoc]
  rw [← folded _ clean, ← join]

theorem readLine_eq {line : Text} (noNull : '\x00' ∉ line) : readLine line = line :=
  List.filter_eq_self.mpr fun c inside => by
    have other : c ≠ '\x00' := fun null => noNull (null ▸ inside)
    simp [other]

def runLine (line : Text) : List Text := [readLine line].filter isEntry

theorem runScenarioList_eq (file : Text) : runScenarioList file = (terminated file).1.flatMap runLine := by
  unfold runScenarioList
  induction (terminated file).1 with
  | nil => rfl
  | cons line lines ih =>
    rw [List.map_cons, List.flatMap_cons, ← List.singleton_append, List.filter_append, ih]
    rfl

theorem flatMap_eq_append {α β : Type} {short long : α → List β} {l : List α} {rest : List β}
    (le : ∀ a ∈ l, (short a).length ≤ (long a).length)
    (same : l.flatMap short = l.flatMap long ++ rest) : (∀ a ∈ l, short a = long a) ∧ rest = [] := by
  induction l with
  | nil => simpa using same.symm
  | cons a l ih =>
    have tail : (l.flatMap short).length ≤ (l.flatMap long).length := by
      rw [List.length_flatMap, List.length_flatMap]
      exact List.sum_le_sum fun b member => le b (by simp [member])
    have head := le a (by simp)
    rw [List.flatMap_cons, List.flatMap_cons, List.append_assoc] at same
    have lengths := congrArg List.length same
    simp only [List.length_append] at lengths
    obtain ⟨first, others⟩ := List.append_inj same (by omega)
    obtain ⟨each, empty⟩ := ih (fun b member => le b (by simp [member])) others
    refine ⟨fun b member => ?_, empty⟩
    rcases List.mem_cons.mp member with rfl | member
    · exact first
    · exact each b member

theorem mem_loadListfile {file entry : Text} (member : entry ∈ loadListfile file) :
    Trimmed entry ∧ isEntry entry = true ∧ '\r' ∉ entry := by
  obtain ⟨stripped, kept⟩ := List.mem_filter.mp member
  obtain ⟨piece, inside, rfl⟩ := List.mem_map.mp stripped
  refine ⟨strip_trimmed piece, kept, fun carriage => ?_⟩
  have clean := lines_clean inside _ ((strip_sublist piece).subset carriage)
  simp [isNewline] at clean

section Line

variable {line : Text} (clean : '\n' ∉ line)

include clean

theorem loadListfile_ne_nil {c : Char} (head : line.head? = some c) (visible : isSpace c = false)
    (noHash : c ≠ '#') : loadListfile line ≠ [] := by
  have entry (piece : Text) (first : piece.head? = some c) : [strip piece].filter isEntry = [strip piece] := by
    have kept := strip_head first visible
    have nonempty : strip piece ≠ [] := fun empty => by simp [empty] at kept
    simp [isEntry, kept, nonempty, noHash]
  by_cases member : '\r' ∈ line
  · obtain ⟨piece, after, rfl, noReturn⟩ := List.eq_append_cons_of_mem member
    have first : piece.head? = some c := by
      cases piece with
      | nil =>
        injection head with same
        subst same
        exact absurd visible (by decide)
      | cons d piece => exact head
    have inside : '\n' ∉ piece := fun inside => clean (List.mem_append_left _ inside)
    rw [loadListfile_return (plain_of_noReturn inside noReturn), entry piece first]
    simp
  · rw [loadListfile_plain (plain_of_noReturn clean member), entry line head]
    simp

theorem runLine_length_le (stripped : ∀ scenario ∈ runLine line, Trimmed scenario ∧ '\r' ∉ scenario) :
    (runLine line).length ≤ (loadListfile line).length := by
  by_cases runs : isEntry (readLine line) = true
  · have once : runLine line = [readLine line] := by simp [runLine, runs]
    obtain ⟨trimmed, -⟩ := stripped _ (by rw [once]; exact List.mem_singleton_self _)
    rw [once]
    apply List.length_pos_iff.mpr
    cases line with
    | nil => simp [readLine, isEntry] at runs
    | cons c rest =>
      by_cases null : c = '\x00'
      · subst null
        exact loadListfile_ne_nil clean rfl (by decide) (by decide)
      · have head : (readLine (c :: rest)).head? = some c := by simp [readLine, null]
        have visible := trimmed.1 c (by rw [head]; rfl)
        have noHash : c ≠ '#' := by
          rintro rfl
          simp [readLine, isEntry] at runs
        exact loadListfile_ne_nil clean rfl visible noHash
  · have none : runLine line = [] := by simp [runLine, runs]
    simp [none]

theorem agrees_of_runs (same : runLine line = loadListfile line) (runs : isEntry (readLine line) = true) :
    Agrees line := by
  have once : loadListfile line = [readLine line] := by
    rw [← same]
    simp [runLine, runs]
  have member : readLine line ∈ loadListfile line := by simp [once]
  obtain ⟨trimmed, kept, noReturn⟩ := mem_loadListfile member
  have carriage : '\r' ∉ line := fun inside =>
    noReturn (List.mem_filter.mpr ⟨inside, by decide⟩)
  have stripped : strip line = readLine line := by
    have entry := once
    rw [loadListfile_plain (plain_of_noReturn clean carriage)] at entry
    have inside : strip line ∈ [strip line].filter isEntry := by
      rw [entry]
      have := List.mem_filter.mp (entry ▸ List.mem_singleton_self (readLine line))
      simpa using (List.mem_singleton.mp this.1).symm
    rw [entry] at inside
    exact List.mem_singleton.mp inside
  have noNull : '\x00' ∉ line := by
    intro inside
    have survives := mem_strip inside (by decide)
    rw [stripped] at survives
    simpa using (List.mem_filter.mp survives).2
  have whole := readLine_eq noNull
  rw [whole] at trimmed kept
  simp only [isEntry, Bool.and_eq_true, decide_eq_true_eq] at kept
  exact .entry kept.1 trimmed carriage noNull kept.2

theorem agrees_of_skips (none : loadListfile line = []) (skips : isEntry (readLine line) = false) :
    Agrees line := by
  have silent := (loadListfile_eq_nil line).mp none
  cases line with
  | nil => exact .blank rfl
  | cons c rest =>
    by_cases null : c = '\x00'
    · subst null
      exact absurd none (loadListfile_ne_nil clean rfl (by decide) (by decide))
    · apply Agrees.comment _ silent
      simpa [readLine, isEntry, null] using skips

theorem Agrees.same (agrees : Agrees line) : runLine line = loadListfile line := by
  rcases agrees with empty | ⟨hash, silent⟩ | ⟨nonempty, trimmed, noReturn, noNull, noHash⟩
  · subst empty
    decide
  · rw [(loadListfile_eq_nil line).mpr silent]
    cases line with
    | nil => simp at hash
    | cons c rest =>
      injection hash with same
      subst same
      simp [runLine, readLine, isEntry]
  · have whole := readLine_eq noNull
    rw [loadListfile_plain (plain_of_noReturn clean noReturn), strip_of_trimmed trimmed, runLine, whole]

theorem agrees_iff : runLine line = loadListfile line ↔ Agrees line := by
  constructor
  · intro same
    cases runs : isEntry (readLine line) with
    | true => exact agrees_of_runs clean same runs
    | false =>
      have none : loadListfile line = [] := by
        rw [← same]
        simp [runLine, runs]
      exact agrees_of_skips clean none runs
  · intro agrees
    exact agrees.same clean

end Line

/-- The shell runs what the summariser loads exactly when the readers agree on every line that a `\n`
ends, and nothing is listed behind the last one. -/
theorem lists_agree_iff (file : Text) : runScenarioList file = loadListfile file ↔
    (∀ line ∈ (terminated file).1, Agrees line) ∧ ∀ piece ∈ lines (terminated file).2, Silent piece := by
  obtain ⟨-, clean, -⟩ := terminated_join file
  constructor
  · intro same
    have entries : ∀ line ∈ (terminated file).1, ∀ scenario ∈ runLine line,
        Trimmed scenario ∧ '\r' ∉ scenario := by
      intro line inside scenario member
      have run : scenario ∈ runScenarioList file := by
        rw [runScenarioList_eq]
        exact List.mem_flatMap.mpr ⟨line, inside, member⟩
      obtain ⟨trimmed, -, noReturn⟩ := mem_loadListfile (same ▸ run)
      exact ⟨trimmed, noReturn⟩
    rw [runScenarioList_eq, loadListfile_eq] at same
    obtain ⟨each, rest⟩ := flatMap_eq_append
      (fun line member => runLine_length_le (clean line member) (entries line member)) same
    exact ⟨fun line member => (agrees_iff (clean line member)).mp (each line member),
      (loadListfile_eq_nil _).mp rest⟩
  · rintro ⟨each, rest⟩
    rw [runScenarioList_eq, loadListfile_eq, (loadListfile_eq_nil _).mpr rest, List.append_nil]
    exact List.flatMap_congr fun line member => (agrees_iff (clean line member)).mpr (each line member)

/-- Without a final `\n` the last scenario is loaded, but not run. -/
theorem last_line_not_run :
    runScenarioList "a.json\nb.json".toList = ["a.json".toList] ∧
      loadListfile "a.json\nb.json".toList = ["a.json".toList, "b.json".toList] := by decide

end PqcLab.ListFile
