import PqcLab.Analysis.Summary

/-! What rows of failed handshakes do to the figures of a summary. -/

namespace PqcLab

open Binary64

theorem double_le_total {a b : Double} (numberA : a ≠ .nan) (numberB : b ≠ .nan) :
    Double.le a b = true ∨ Double.le b a = true := by
  cases a with
  | nan => exact absurd rfl numberA
  | finite p =>
    cases b with
    | nan => exact absurd rfl numberB
    | finite q => simpa [Double.le] using le_total p q
    | infinite n => cases n <;> simp [Double.le]
  | infinite m =>
    cases b with
    | nan => exact absurd rfl numberB
    | finite q => cases m <;> simp [Double.le]
    | infinite n => cases m <;> cases n <;> simp [Double.le]

theorem double_le_trans {a b c : Double} (ab : Double.le a b = true) (bc : Double.le b c = true) :
    Double.le a c = true := by
  cases a with
  | nan => cases b <;> simp [Double.le] at ab
  | finite p =>
    cases b with
    | nan => simp [Double.le] at ab
    | finite q =>
      cases c with
      | nan => simp [Double.le] at bc
      | finite r =>
        simp only [Double.le, decide_eq_true_eq] at *
        exact ab.trans bc
      | infinite n => simpa [Double.le] using bc
    | infinite n => cases c <;> simp_all [Double.le]
  | infinite m =>
    cases b with
    | nan => simp [Double.le] at ab
    | finite q => cases c <;> simp_all [Double.le]
    | infinite n => cases m <;> cases n <;> cases c <;> simp_all [Double.le]

theorem double_le_antisymm {a b : Double} (ab : Double.le a b = true) (ba : Double.le b a = true) : a = b := by
  cases a with
  | nan => cases b <;> simp [Double.le] at ab
  | finite p =>
    cases b with
    | nan => simp [Double.le] at ab
    | finite q =>
      simp only [Double.le, decide_eq_true_eq] at *
      rw [le_antisymm ab ba]
    | infinite n => simp_all [Double.le]
  | infinite m =>
    cases b with
    | nan => simp [Double.le] at ab
    | finite q => simp_all [Double.le]
    | infinite n => cases m <;> cases n <;> simp_all [Double.le]

abbrev Number := {x : Double // x ≠ .nan}

def Number.le (a b : Number) : Prop := Double.le a.1 b.1 = true

instance : DecidableRel Number.le := fun a b => inferInstanceAs (Decidable (Double.le a.1 b.1 = true))

instance : Std.Total Number.le := ⟨fun a b => double_le_total a.2 b.2⟩

instance : IsTrans Number Number.le := ⟨fun _ _ _ => double_le_trans⟩

theorem sortFloats_pairwise {xs : List Double} (numbers : ∀ x ∈ xs, x ≠ .nan) :
    (sortFloats xs).Pairwise fun a b => Double.le a b = true := by
  let ys : List Number := xs.attachWith (· ≠ .nan) numbers
  have values : ys.map Subtype.val = xs := List.attachWith_map_subtype_val numbers
  have sorted : (ys.insertionSort Number.le).map Subtype.val = sortFloats xs := by
    rw [List.map_insertionSort Number.le (fun a b => Double.le a b = true) Subtype.val ys
      fun a _ b _ => Iff.rfl, values]
    rfl
  rw [← sorted, List.pairwise_map]
  exact List.pairwise_insertionSort Number.le ys

theorem sortFloats_perm {xs ys : List Double} (perm : xs.Perm ys) (numbers : ∀ x ∈ xs, x ≠ .nan) :
    sortFloats xs = sortFloats ys := by
  have same : (sortFloats xs).Perm (sortFloats ys) :=
    (List.perm_insertionSort _ xs).trans (perm.trans (List.perm_insertionSort _ ys).symm)
  exact List.Perm.eq_of_pairwise (fun _ _ _ _ => double_le_antisymm) (sortFloats_pairwise numbers)
    (sortFloats_pairwise fun x member => numbers x (perm.mem_iff.mpr member)) same

theorem sortedSet_perm {xs ys : List ℤ} (perm : xs.Perm ys) : sortedSet xs = sortedSet ys := by
  have same : (sortedSet xs).Perm (sortedSet ys) :=
    (List.perm_insertionSort _ _).trans (perm.dedup.trans (List.perm_insertionSort _ _).symm)
  exact same.eq_of_pairwise' (List.pairwise_insertionSort _ _) (List.pairwise_insertionSort _ _)

theorem mem_sortedSet {xs : List ℤ} {x : ℤ} : x ∈ sortedSet xs ↔ x ∈ xs := by
  simp [sortedSet]

theorem meanInts_perm {xs ys : List ℤ} (perm : xs.Perm ys) :
    (meanInts xs : Except PyError (PyNumber Double)) = meanInts ys := by
  unfold meanInts
  rw [perm.sum_eq, perm.length_eq]

section Extreme

variable {before : Double → Double → Bool}
  (total : ∀ a b : Double, a ≠ .nan → b ≠ .nan → before a b = true ∨ before b a = true)
  (trans : ∀ a b c, before a b = true → before b c = true → before a c = true)

include total trans

theorem foldl_extreme {l : List Double} {a : Double} (number : a ≠ .nan) (numbers : ∀ x ∈ l, x ≠ .nan) :
    ∀ x ∈ a :: l, before (l.foldl (fun best x => if before best x then best else x) a) x = true := by
  induction l generalizing a with
  | nil => simpa using total a a number number
  | cons y l ih =>
    have numberY := numbers y (by simp)
    have rest : ∀ x ∈ l, x ≠ .nan := fun x member => numbers x (by simp [member])
    rw [List.foldl_cons]
    by_cases first : before a y = true
    · rw [if_pos first]
      have best := ih number rest
      intro x member
      rcases List.mem_cons.mp member with rfl | member
      · exact best _ (by simp)
      · rcases List.mem_cons.mp member with rfl | member
        · exact trans _ _ _ (best a (by simp)) first
        · exact best x (by simp [member])
    · rw [if_neg first]
      have best := ih numberY rest
      have other := (total a y number numberY).resolve_left first
      intro x member
      rcases List.mem_cons.mp member with rfl | member
      · exact trans _ _ _ (best y (by simp)) other
      · exact best x member

end Extreme

theorem foldl_mem (choose : Double → Double → Bool) (l : List Double) (a : Double) :
    l.foldl (fun best x => if choose best x then best else x) a ∈ a :: l := by
  induction l generalizing a with
  | nil => simp
  | cons y l ih =>
    rw [List.foldl_cons]
    split_ifs with first
    · rcases List.mem_cons.mp (ih a) with same | member
      · rw [same]
        simp
      · simp [member]
    · exact List.mem_cons_of_mem _ (ih y)

theorem pyMin_le {xs : List Double} (numbers : ∀ x ∈ xs, x ≠ .nan) : ∀ x ∈ xs, Double.le (pyMin xs) x = true := by
  cases xs with
  | nil => simp
  | cons a l =>
    exact @foldl_extreme Double.le (fun _ _ => double_le_total) (fun _ _ _ => double_le_trans) l a
      (numbers a (by simp)) fun x member => numbers x (by simp [member])

theorem le_pyMax {xs : List Double} (numbers : ∀ x ∈ xs, x ≠ .nan) : ∀ x ∈ xs, Double.le x (pyMax xs) = true := by
  cases xs with
  | nil => simp
  | cons a l =>
    exact @foldl_extreme (fun high x => Double.le x high) (fun _ _ numberA numberB => double_le_total numberB numberA)
      (fun _ _ _ ab bc => double_le_trans bc ab) l a (numbers a (by simp))
      fun x member => numbers x (by simp [member])

theorem pyMin_mem {xs : List Double} (nonempty : xs ≠ []) : pyMin xs ∈ xs := by
  cases xs with
  | nil => exact absurd rfl nonempty
  | cons a l => exact foldl_mem Double.le l a

theorem pyMax_mem {xs : List Double} (nonempty : xs ≠ []) : pyMax xs ∈ xs := by
  cases xs with
  | nil => exact absurd rfl nonempty
  | cons a l => exact foldl_mem (fun high x => Double.le x high) l a

theorem mem_sortFloats {xs : List Double} {x : Double} : x ∈ sortFloats xs ↔ x ∈ xs :=
  List.mem_insertionSort _

theorem benchFigures_perm {rows shuffled : List (BenchRow Double)} (perm : rows.Perm shuffled)
    (numbers : ∀ row ∈ rows, row.elapsedMs ≠ .nan) : benchFigures shuffled = benchFigures rows := by
  have elapsed : sortFloats (rows.map (·.elapsedMs)) = sortFloats (shuffled.map (·.elapsedMs)) :=
    sortFloats_perm (perm.map _) (by simpa using numbers)
  unfold benchFigures
  rw [elapsed, meanInts_perm (perm.map (·.success)), meanInts_perm (perm.map (·.bytesRead)),
    meanInts_perm (perm.map (·.bytesWritten)), sortedSet_perm (perm.map (·.chainLen)),
    sortedSet_perm (perm.map (·.chainBytes)), perm.length_eq]

/-- The figures but for `runs` and `success_rate`. -/
def BenchFigures.costs (f : BenchFigures Double) : BenchFigures Double :=
  { f with runs := 0, successRate := .int 0 }

structure OfColumns (rows : List (BenchRow Double)) (figures : BenchFigures Double) : Prop where
  runs : figures.runs = rows.length
  successRate : meanInts (rows.map (·.success)) = .ok figures.successRate
  elapsedMean : figures.elapsedMeanMs = PyFloat.mean (sortFloats (rows.map (·.elapsedMs)))
  elapsedMedian : figures.elapsedMedianMs = median (sortFloats (rows.map (·.elapsedMs)))
  elapsedP95 : figures.elapsedP95Ms = percentile (sortFloats (rows.map (·.elapsedMs))) (.ofRat (95 / 100))
  elapsedP99 : figures.elapsedP99Ms = percentile (sortFloats (rows.map (·.elapsedMs))) (.ofRat (99 / 100))
  elapsedMin : figures.elapsedMinMs = pyMin (sortFloats (rows.map (·.elapsedMs)))
  elapsedMax : figures.elapsedMaxMs = pyMax (sortFloats (rows.map (·.elapsedMs)))
  bytesReadMean : meanInts (rows.map (·.bytesRead)) = .ok figures.bytesReadMean
  bytesWrittenMean : meanInts (rows.map (·.bytesWritten)) = .ok figures.bytesWrittenMean
  chainLens : figures.chainLenUnique = sortedSet (rows.map (·.chainLen))
  chainBytes : figures.chainBytesUnique = sortedSet (rows.map (·.chainBytes))

theorem benchFigures_ok {rows : List (BenchRow Double)} {figures : BenchFigures Double}
    (computed : benchFigures rows = .ok figures) : OfColumns rows figures := by
  obtain ⟨_, successRate, rest⟩ := Except.of_bind_ok computed
  obtain ⟨_, bytesRead, rest⟩ := Except.of_bind_ok rest
  obtain ⟨_, bytesWritten, same⟩ := Except.of_bind_ok rest
  injection same with same
  subst same
  exact ⟨rfl, successRate, rfl, rfl, rfl, rfl, rfl, rfl, bytesRead, bytesWritten, rfl, rfl⟩

section Summaries

open SummarizeList

variable {files : ScenarioFiles} {runDir : RunPath} {scenarioId : Text} {rows : List (BenchRow Double)}

theorem summary_figures {summary : Summary} (read : readRows files = .ok rows)
    (summarized : summarizeRunDir files runDir scenarioId = .ok summary) :
    rows ≠ [] ∧ benchFigures rows = .ok summary.figures := by
  obtain ⟨bench, doc, chain, made⟩ := summarizeRunDir_ok.mp summarized
  have same : rows = bench := by simpa [read] using made.read
  subst same
  exact ⟨made.nonempty, made.figures⟩

theorem summary_perm {summary : Summary} {bench : Option Text} {shuffled : List (BenchRow Double)}
    (read : readRows files = .ok rows) (readShuffled : readRows { files with benchCsv := bench } = .ok shuffled)
    (perm : rows.Perm shuffled) (numbers : ∀ row ∈ rows, row.elapsedMs ≠ .nan)
    (summarized : summarizeRunDir files runDir scenarioId = .ok summary) :
    summarizeRunDir { files with benchCsv := bench } runDir scenarioId = .ok summary := by
  obtain ⟨bench, doc, chain, made⟩ := summarizeRunDir_ok.mp summarized
  have same : rows = bench := by simpa [read] using made.read
  subst same
  refine summarizeRunDir_ok.mpr ⟨shuffled, doc, chain, { made with read := readShuffled, nonempty := ?_, figures := ?_ }⟩
  · intro empty
    rw [empty] at perm
    exact made.nonempty perm.eq_nil
  · exact (benchFigures_perm perm numbers).trans made.figures

theorem mem_column_iff (rows : List (BenchRow Double)) (value : BenchRow Double → ℤ) (v : ℤ) :
    v ∈ sortedSet (rows.map value) ↔
      v ∈ sortedSet ((rows.filter (·.success ≠ 0)).map value) ∨ ∃ row ∈ rows, row.success = 0 ∧ value row = v := by
  simp only [mem_sortedSet, List.mem_map, List.mem_filter, decide_eq_true_eq]
  constructor
  · rintro ⟨row, member, rfl⟩
    by_cases failed : row.success = 0
    · exact .inr ⟨row, member, failed, rfl⟩
    · exact .inl ⟨row, ⟨member, failed⟩, rfl⟩
  · rintro (⟨row, ⟨member, -⟩, rfl⟩ | ⟨row, member, -, rfl⟩)
    · exact ⟨row, member, rfl⟩
    · exact ⟨row, member, rfl⟩

theorem extremes_of_sublist {some : List (BenchRow Double)} (numbers : ∀ row ∈ rows, row.elapsedMs ≠ .nan)
    (nonempty : some ≠ []) (within : some ⊆ rows) :
    Double.le (pyMin (sortFloats (rows.map (·.elapsedMs)))) (pyMin (sortFloats (some.map (·.elapsedMs)))) = true ∧
      Double.le (pyMax (sortFloats (some.map (·.elapsedMs)))) (pyMax (sortFloats (rows.map (·.elapsedMs)))) = true := by
  have sorted : sortFloats (some.map (·.elapsedMs)) ≠ [] := by
    obtain ⟨row, member⟩ := List.exists_mem_of_ne_nil _ nonempty
    exact List.ne_nil_of_mem (mem_sortFloats.mpr (List.mem_map_of_mem member))
  have among {x : Double} (member : x ∈ sortFloats (some.map (·.elapsedMs))) :
      x ∈ sortFloats (rows.map (·.elapsedMs)) := by
    rw [mem_sortFloats] at member ⊢
    exact List.map_subset _ within member
  have sortedNumbers : ∀ x ∈ sortFloats (rows.map (·.elapsedMs)), x ≠ .nan := by
    intro x member
    obtain ⟨row, inside, rfl⟩ := List.mem_map.mp (mem_sortFloats.mp member)
    exact numbers row inside
  exact ⟨pyMin_le sortedNumbers _ (among (pyMin_mem sorted)), le_pyMax sortedNumbers _ (among (pyMax_mem sorted))⟩

/-- Failed rows count: every figure is of all rows, in whatever order, and the figures are those of the rows
with `success` alone only as far as the failed ones change nothing. -/
theorem failed_rows_count {summary : Summary} (read : readRows files = .ok rows)
    (numbers : ∀ row ∈ rows, row.elapsedMs ≠ .nan)
    (summarized : summarizeRunDir files runDir scenarioId = .ok summary) :
    (∀ bench shuffled, readRows { files with benchCsv := bench } = .ok shuffled → rows.Perm shuffled →
      summarizeRunDir { files with benchCsv := bench } runDir scenarioId = .ok summary) ∧
    OfColumns rows summary.figures ∧
    ∀ without kept, readRows without = .ok (rows.filter (·.success ≠ 0)) →
      summarizeRunDir without runDir scenarioId = .ok kept →
      summary.figures.runs = kept.figures.runs + rows.countP (·.success = 0) ∧
      (Double.le summary.figures.elapsedMinMs kept.figures.elapsedMinMs = true ∧
        Double.le kept.figures.elapsedMaxMs summary.figures.elapsedMaxMs = true) ∧
      (∀ len, len ∈ summary.figures.chainLenUnique ↔
        len ∈ kept.figures.chainLenUnique ∨ ∃ row ∈ rows, row.success = 0 ∧ row.chainLen = len) ∧
      (∀ bytes, bytes ∈ summary.figures.chainBytesUnique ↔
        bytes ∈ kept.figures.chainBytesUnique ∨ ∃ row ∈ rows, row.success = 0 ∧ row.chainBytes = bytes) ∧
      ((∀ row ∈ rows, row.success = 0 ↔ row.chainLen = 0) →
        (summary.figures.costs = kept.figures.costs ↔ ∀ row ∈ rows, row.success ≠ 0)) := by
  obtain ⟨-, all⟩ := summary_figures read summarized
  have whole := benchFigures_ok all
  refine ⟨fun bench shuffled readShuffled perm => summary_perm read readShuffled perm numbers summarized, whole, ?_⟩
  intro without kept readWithout summarizedWithout
  obtain ⟨nonempty, successful⟩ := summary_figures readWithout summarizedWithout
  have part := benchFigures_ok successful
  have extremes := extremes_of_sublist numbers nonempty List.filter_sublist.subset
  refine ⟨?_, ⟨?_, ?_⟩, ?_, ?_, ?_⟩
  · rw [whole.runs, part.runs, ← List.countP_eq_length_filter, List.length_eq_countP_add_countP (·.success = 0),
      Nat.add_comm]
    simp
  · rw [whole.elapsedMin, part.elapsedMin]
    exact extremes.1
  · rw [whole.elapsedMax, part.elapsedMax]
    exact extremes.2
  · rw [whole.chainLens, part.chainLens]
    exact mem_column_iff rows (·.chainLen)
  · rw [whole.chainBytes, part.chainBytes]
    exact mem_column_iff rows (·.chainBytes)
  · intro client
    constructor
    · intro same row member failed
      have added : row.chainLen ∈ summary.figures.chainLenUnique := by
        rw [whole.chainLens]
        exact mem_sortedSet.mpr (List.mem_map_of_mem member)
      have costs : summary.figures.chainLenUnique = kept.figures.chainLenUnique := by
        have column := congrArg BenchFigures.chainLenUnique same
        exact column
      rw [costs, part.chainLens, mem_sortedSet] at added
      obtain ⟨other, inside, equal⟩ := List.mem_map.mp added
      obtain ⟨present, succeeded⟩ := List.mem_filter.mp inside
      have none := (client row member).mp failed
      exact (of_decide_eq_true succeeded) ((client other present).mpr (equal.trans none))
    · intro every
      have same : rows.filter (·.success ≠ 0) = rows :=
        List.filter_eq_self.mpr fun row member => decide_eq_true (every row member)
      rw [same, all] at successful
      injection successful with same
      rw [same]

def csvHeader : Text :=
  "run_id,elapsed_ms,success,ssl_error,bytes_read,bytes_written,chain_len,chain_bytes\n".toList

def certificate (bytes : ℚ) : Json :=
  .obj [("algorithm".toList, .str "mldsa44".toList), ("der_bytes".toList, .num bytes)]

def completedMeta (intermediate : Json) (servedBytes : ℚ) : Json :=
  .obj [("status".toList, .str "completed".toList),
    ("chain".toList, .obj [("root".toList, certificate 5543), ("intermediate".toList, intermediate),
      ("leaf".toList, certificate 5579),
      ("served_chain".toList, .obj [("der_bytes".toList, .num servedBytes)])]),
    ("outputs".toList, .obj [("pcap_file".toList, .str "quick.pcap".toList)])]

def twoCertificates : Json := completedMeta .null 5579

def benchOf (rows : Text) : ScenarioFiles :=
  { metaJson := some (.document twoCertificates), benchCsv := some (csvHeader ++ rows) }

def oneFailed : ScenarioFiles := benchOf "1,1.500,1,0,9000,700,2,11122\n2,0.0,0,-1,0,0,0,0\n".toList

def noneFailed : ScenarioFiles := benchOf "1,1.500,1,0,9000,700,2,11122\n".toList

def quickDir : RunPath := ⟨['A'], "quick".toList, "20260101T000000Z".toList⟩

theorem ok_of_toOption {ε α β : Type} {x : Except ε α} (f : α → β) {b : β} (h : x.toOption.map f = some b) :
    ∃ a, x = .ok a ∧ f a = b := by
  cases x with
  | error e => cases h
  | ok a => exact ⟨a, rfl, by simpa [Except.toOption] using h⟩

def SummarizeList.Summary.sample (summary : Summary) : Double × Double × PyNumber Double × List ℤ :=
  (summary.figures.elapsedMeanMs, summary.figures.elapsedMinMs, summary.figures.bytesReadMean,
    summary.figures.chainLenUnique)

theorem oneFailed_summary : ∃ summary, summarizeRunDir oneFailed quickDir "quick".toList = .ok summary ∧
    summary.sample = (.finite (3 / 4), .finite 0, .int 4500, [0, 2]) :=
  ok_of_toOption Summary.sample (by decide +kernel)

theorem noneFailed_summary : ∃ summary, summarizeRunDir noneFailed quickDir "quick".toList = .ok summary ∧
    summary.sample = (.finite (3 / 2), .finite (3 / 2), .int 9000, [2]) :=
  ok_of_toOption Summary.sample (by decide +kernel)

theorem failed_rows_count_once :
    ∃ summary, summarizeRunDir oneFailed quickDir "quick".toList = .ok summary ∧
      0 ∈ summary.figures.chainLenUnique ∧ meanInts [9000, 0] = .ok summary.figures.bytesReadMean := by
  obtain ⟨summary, summarized, -⟩ := oneFailed_summary
  obtain ⟨kept, summarizedWithout, -⟩ := noneFailed_summary
  let failed : BenchRow Double := ⟨2, .ofRat 0, 0, -1, 0, 0, 0, 0⟩
  let rows : List (BenchRow Double) := [⟨1, .ofRat (3 / 2), 1, 0, 9000, 700, 2, 11122⟩, failed]
  have read : readRows oneFailed = .ok rows := by decide +kernel
  have readWithout : readRows noneFailed = .ok (rows.filter (·.success ≠ 0)) := by decide +kernel
  obtain ⟨-, whole, grows⟩ := failed_rows_count read (by decide +kernel) summarized
  obtain ⟨-, -, lens, -, -⟩ := grows noneFailed kept readWithout summarizedWithout
  exact ⟨summary, summarized, (lens 0).mpr (.inr ⟨failed, by simp [rows], rfl, rfl⟩), whole.bytesReadMean⟩

/-- The failed run halves the means, and its zeros are the minimum and values of the chain columns. -/
theorem failed_run_influences_costs :
    ∃ summary kept, summarizeRunDir oneFailed quickDir "quick".toList = .ok summary ∧
      summarizeRunDir noneFailed quickDir "quick".toList = .ok kept ∧
      summary.sample = (.finite (3 / 4), .finite 0, .int 4500, [0, 2]) ∧
      kept.sample = (.finite (3 / 2), .finite (3 / 2), .int 9000, [2]) := by
  obtain ⟨summary, summarized, sample⟩ := oneFailed_summary
  obtain ⟨kept, summarizedWithout, keptSample⟩ := noneFailed_summary
  exact ⟨summary, kept, summarized, summarizedWithout, sample, keptSample⟩

end Summaries

end PqcLab
