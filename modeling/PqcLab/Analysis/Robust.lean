import PqcLab.Analysis.Counters
import PqcLab.Analysis.Failures

/-! What the candidate directories must hold for a summary to be returned. -/

namespace PqcLab

open Binary64

inductive Skipped (files : ScenarioFiles) : Prop
  | noMeta (absent : files.metaJson = none)
  | noBench (absent : files.benchCsv = none)
  | unreadable (file : JsonFile) (present : files.metaJson = some file) (broken : file.load = none)
  | otherStatus (fields : List (Text × Json)) (present : files.metaJson = some (.document (.obj fields)))
      (status : Json) (given : Json.lookup "status".toList fields = some status)
      (other : status.isStr "completed".toList = false)
  | noRows (fields : List (Text × Json)) (present : files.metaJson = some (.document (.obj fields)))
      (empty : readRows files = .ok [])

variable {tree : ResultsTree} {scenarioId : Text} {hint : Option Text} {dir : RunDir}

theorem Skipped.refused (skipped : Skipped (dir scenarioId)) : isValidRunDir dir scenarioId = .ok false := by
  cases skipped with
  | noMeta absent => exact isValidRunDir_noMeta absent
  | noBench absent =>
    unfold isValidRunDir
    rw [absent]
    cases (dir scenarioId).metaJson <;> rfl
  | unreadable file present broken => exact isValidRunDir_unreadable present broken
  | otherStatus fields present status given other =>
    cases benchCsv : (dir scenarioId).benchCsv with
    | none => simp only [isValidRunDir, benchCsv, present]
    | some bench =>
      have read (default : Json) : (Json.obj fields).get "status".toList default = .ok status := by
        simp only [Json.get, given, Option.getD_some]
      rw [isValidRunDir_document present benchCsv, read]
      change (if status.isStr _ = true then _ else Except.ok false) = Except.ok false
      rw [if_neg (Bool.eq_false_iff.mp other)]
  | noRows fields present empty =>
    cases benchCsv : (dir scenarioId).benchCsv with
    | none => simp only [isValidRunDir, benchCsv, present]
    | some bench =>
      have rowsRead : (readBenchCsv (some bench) : Except PyError (List (BenchRow Double))) = .ok [] := by
        rw [← empty, readRows, benchCsv]
      rw [isValidRunDir_document present benchCsv, rowsRead]
      change (if _ then Except.ok false else .ok false) = Except.ok false
      rw [ite_self]

structure CompletedRun (files : ScenarioFiles) (fields : List (Text × Json)) (rows : List (BenchRow Double)) :
    Prop where
  metaJson : files.metaJson = some (.document (.obj fields))
  status : Json.lookup "status".toList fields = some (.str "completed".toList)
  chain : ∃ chain chainBlock, (Json.obj fields).getItem "chain".toList = .ok chain ∧
    chainFields chain = .ok chainBlock
  outputs : ∃ pcapFile, (Json.obj fields).blockItem "outputs".toList "pcap_file".toList = .ok pcapFile
  read : readRows files = .ok rows
  nonempty : rows ≠ []

def Completed (files : ScenarioFiles) : Prop := ∃ fields rows, CompletedRun files fields rows

namespace SummarizeList

variable {files : ScenarioFiles} {runDir : RunPath}

end SummarizeList

theorem Completed.valid (completed : Completed (dir scenarioId)) :
    isValidRunDir dir scenarioId = .ok true := by
  obtain ⟨fields, rows, run⟩ := completed
  cases benchCsv : (dir scenarioId).benchCsv with
  | none =>
    have read := run.read
    rw [readRows, benchCsv] at read
    exact absurd (Except.ok.inj read).symm run.nonempty
  | some bench =>
    have status (default : Json) :
        (Json.obj fields).get "status".toList default = .ok (.str "completed".toList) := by
      simp only [Json.get, run.status, Option.getD_some]
    have read := run.read
    rw [readRows, benchCsv] at read
    exact isValidRunDir_completed run.metaJson (status _) rfl benchCsv read run.nonempty

section Raises

variable {doc : Json} {key block : Text}

end Raises

end PqcLab
