/-
  Who reads the split of a record, and how (`training/dataset.py`, `training/runner.py`).

  The validation, the readiness report and the rows that are trained on take a record without a split for a
  training record.  `SupervisedDataset.split` does not, and the manifest counts with it.  `consumersAgree_iff`:
  they agree on a dataset exactly when no record leaves its split out.
-/
import FinancialRag.Training.Dataset

set_option linter.unusedVariables false

namespace FinancialRag.Training

/-! ## The consumers -/

def splitNames : List String := ["train", "validation", "test"]

/-- `record.metadata.get("split", "train") == name` -/
def inSplit (record : TrainingExample) (name : String) : Bool :=
  ((record.metadata.lookup "split").getD (.str "train")).isText name

/-- `split_counts` of `inspect_training_readiness`. -/
def readinessSplitCounts (dataset : SupervisedDataset) : List (String × Nat) :=
  (splitNames.map fun split => (split, (dataset.records.filter fun record => inSplit record split).length)).filter
    fun counted => decide (counted.2 ≠ 0)

/-- `split_counts` of the manifest that `_write_adapter_evidence` writes. -/
def manifestSplitCounts (dataset : SupervisedDataset) : List (String × Nat) :=
  (splitNames.filter fun split => !(dataset.split split).isEmpty).map fun split => (split, (dataset.split split).length)

/-- The loop of `_dataset_rows`: the train rows and the validation rows. -/
def sortRows : List TrainingExample → List String × List String
  | [] => ([], [])
  | record :: records =>
    let rows := sortRows records
    if inSplit record "validation" then (rows.1, record.formatForCausalLm :: rows.2)
    else if inSplit record "train" then (record.formatForCausalLm :: rows.1, rows.2)
    else rows

/-- `TrainingSafetyError`. -/
structure TrainingSafetyError where
  message : String
  deriving DecidableEq

def noTrainRows : TrainingSafetyError := ⟨"Training dataset has no records with metadata.split='train'"⟩

/-- `_dataset_rows` -/
def datasetRows (dataset : SupervisedDataset) : Except TrainingSafetyError (List String × List String) :=
  let rows := sortRows dataset.records
  if rows.1 = [] then .error noTrainRows else .ok rows

/-- The serialized records. -/
def rowsOf (records : List TrainingExample) : List String := records.map TrainingExample.formatForCausalLm

/-- **All consumers agree on the splits**: they partition the records, the two counts are the same, and the rows are
    those of the splits, or there is nothing to train on. -/
structure ConsumersAgree (dataset : SupervisedDataset) : Prop where
  partition : (dataset.split "train" ++ (dataset.split "validation" ++ dataset.split "test")).Perm dataset.records
  counts : readinessSplitCounts dataset = manifestSplitCounts dataset
  rows : datasetRows dataset =
    if dataset.split "train" = [] then .error noTrainRows
    else .ok (rowsOf (dataset.split "train"), rowsOf (dataset.split "validation"))

/-! ## Where they agree -/

/-- The record names its split. -/
def Explicit (record : TrainingExample) : Prop := ∃ split, record.metadata.lookup "split" = some split

theorem isText_iff {value : Value} {name : String} : value.isText name = true ↔ value = .str name := by
  cases value <;> simp [Value.isText]

/-- A record that names its split is read by everyone alike. -/
theorem inSplit_of_explicit {record : TrainingExample} (h : Explicit record) (name : String) :
    inSplit record name = (get record.metadata "split").isText name := by
  obtain ⟨split, hsplit⟩ := h
  unfold inSplit get
  rw [hsplit]
  rfl

/-- **Every accepted record has one of the three splits**, named or not. -/
theorem inSplit_of_checks {py : Interpreter} {record : TrainingExample} (h : Checks py record) :
    ∃ split ∈ splitNames, ∀ name, inSplit record name = decide (split = name) := by
  obtain ⟨path, hsplit⟩ := h.split
  unfold inSplit
  unfold checkSplit at hsplit
  split at hsplit
  · rename_i split hvalue
    split at hsplit
    · rename_i hallowed
      rw [hvalue]
      exact ⟨split, hallowed, fun name => rfl⟩
    · exact absurd hsplit not_invalid
  · cases hsplit
  · cases hsplit
  · exact absurd hsplit not_invalid

/-- A record that does not name its split is in none of them for `SupervisedDataset.split`. -/
theorem explicit_of_mem_split {dataset : SupervisedDataset} {name : String} {record : TrainingExample}
    (h : record ∈ dataset.split name) : Explicit record := by
  have htext := isText_iff.mp (List.mem_filter.mp h).2
  unfold get at htext
  unfold Explicit
  cases hlookup : record.metadata.lookup "split" with
  | none =>
    rw [hlookup] at htext
    cases htext
  | some split => exact ⟨split, rfl⟩

/-- The three splits of accepted records. -/
theorem split_perm {py : Interpreter} {records : List TrainingExample} (h : ∀ record ∈ records, Checks py record) :
    (records.filter (fun record => inSplit record "train") ++
      (records.filter (fun record => inSplit record "validation") ++
        records.filter fun record => inSplit record "test")).Perm records := by
  induction records with
  | nil => exact .nil
  | cons record records ih =>
    obtain ⟨hrecord, hrecords⟩ := List.forall_mem_cons.mp h
    obtain ⟨split, hmem, hsplit⟩ := inSplit_of_checks hrecord
    have hrest := ih hrecords
    rw [List.filter_cons, List.filter_cons, List.filter_cons, hsplit, hsplit, hsplit]
    rcases List.mem_cons.mp hmem with rfl | hmem
    · exact hrest.cons record
    · rcases List.mem_cons.mp hmem with rfl | hmem
      · exact List.perm_middle.trans (hrest.cons record)
      · obtain rfl := List.mem_singleton.mp hmem
        show (_ ++ (_ ++ record :: _)).Perm _
        rw [← List.append_assoc]
        refine List.perm_middle.trans ?_
        rw [List.append_assoc]
        exact hrest.cons record

/-- The rows are those of the training records and of the validation records. -/
theorem sortRows_eq {py : Interpreter} {records : List TrainingExample} (h : ∀ record ∈ records, Checks py record) :
    sortRows records = (rowsOf (records.filter fun record => inSplit record "train"),
      rowsOf (records.filter fun record => inSplit record "validation")) := by
  induction records with
  | nil => rfl
  | cons record records ih =>
    obtain ⟨hrecord, hrecords⟩ := List.forall_mem_cons.mp h
    obtain ⟨split, hmem, hsplit⟩ := inSplit_of_checks hrecord
    rw [sortRows, ih hrecords, List.filter_cons, List.filter_cons, hsplit, hsplit]
    rcases List.mem_cons.mp hmem with rfl | hmem
    · rfl
    · rcases List.mem_cons.mp hmem with rfl | hmem
      · rfl
      · obtain rfl := List.mem_singleton.mp hmem
        rfl

/-- With every split named, `SupervisedDataset.split` reads as everyone does. -/
theorem split_eq_filter {dataset : SupervisedDataset} (h : ∀ record ∈ dataset.records, Explicit record) (name : String) :
    dataset.split name = dataset.records.filter fun record => inSplit record name :=
  List.filter_congr fun record hrecord => (inSplit_of_explicit (h record hrecord) name).symm

/-- Counting the records of each split, and leaving out the splits without any. -/
theorem filter_map_counts (sizes : String → List TrainingExample) (names : List String) :
    (names.map fun split => (split, (sizes split).length)).filter (fun counted => decide (counted.2 ≠ 0)) =
      (names.filter fun split => !(sizes split).isEmpty).map fun split => (split, (sizes split).length) := by
  rw [List.filter_map]
  refine congrArg (List.map _) (List.filter_congr fun split _ => ?_)
  show decide ((sizes split).length ≠ 0) = !(sizes split).isEmpty
  cases sizes split with
  | nil => rfl
  | cons record records => rfl

/-- **The consumers agree on a dataset exactly when every record names its split.** -/
theorem consumersAgree_iff {py : Interpreter} {rawData : Value} {hint : String} {dataset : SupervisedDataset}
    (h : parseSupervisedDataset py rawData hint = .ok dataset) :
    ConsumersAgree dataset ↔ ∀ record ∈ dataset.records, Explicit record := by
  have hchecks : ∀ record ∈ dataset.records, Checks py record := fun record hrecord => checks_of_mem_records h hrecord
  constructor
  · intro hagree record hrecord
    -- a record in none of the three splits is missing from the partition
    rcases List.mem_append.mp (hagree.partition.symm.subset hrecord) with hmem | hmem
    · exact explicit_of_mem_split hmem
    · rcases List.mem_append.mp hmem with hmem | hmem
      · exact explicit_of_mem_split hmem
      · exact explicit_of_mem_split hmem
  · intro hexplicit
    constructor
    · rw [split_eq_filter hexplicit, split_eq_filter hexplicit, split_eq_filter hexplicit]
      exact split_perm hchecks
    · unfold readinessSplitCounts manifestSplitCounts
      rw [← filter_map_counts]
      simp only [split_eq_filter hexplicit]
    · unfold datasetRows
      simp only [sortRows_eq hchecks]
      rw [split_eq_filter hexplicit, split_eq_filter hexplicit]
      refine if_congr ?_ rfl rfl
      exact List.map_eq_nil_iff

/-! ## A record without a split -/

/-- ASCII tables. -/
def asciiInterpreter : Interpreter where
  text := .ascii
  repr _ := ""
  isDigit := Char.isDigit
  digitValue c := c.toNat - '0'.toNat

def sampleMessage (role content : String) : Value := .dict [("role", .str role), ("content", .str content)]

/-- A record with a question and its answer. -/
def sampleRecord (id : String) (metadata : List (String × Value)) : Value :=
  .dict [("id", .str id),
    ("messages", .list [sampleMessage "user" "What is a margin?", sampleMessage "assistant" "A ratio."]),
    ("metadata", .dict metadata)]

def sampleDocument (records : List Value) : Value :=
  .dict [("schema_version", .str "1.0"), ("records", .list records)]

/-- **A record without a split is trained on, and in no split**: the manifest does not count it. -/
theorem record_without_split :
    ∃ dataset, parseSupervisedDataset asciiInterpreter (sampleDocument [sampleRecord "margin" []]) "corpus" =
        .ok dataset ∧
      readinessSplitCounts dataset = [("train", 1)] ∧ manifestSplitCounts dataset = [] ∧
      ¬ ConsumersAgree dataset := by
  obtain ⟨dataset, hparse, htest⟩ := PyList.exists_ok_of_any
    (x := parseSupervisedDataset asciiInterpreter (sampleDocument [sampleRecord "margin" []]) "corpus")
    (p := fun dataset => decide (readinessSplitCounts dataset = [("train", 1)]) &&
      decide (manifestSplitCounts dataset = [])) (by decide +kernel)
  obtain ⟨hreadiness, hmanifest⟩ := Bool.and_eq_true_iff.mp htest
  have hreadiness := of_decide_eq_true hreadiness
  have hmanifest := of_decide_eq_true hmanifest
  refine ⟨dataset, hparse, hreadiness, hmanifest, fun hagree => ?_⟩
  have hcounts := hagree.counts
  rw [hreadiness, hmanifest] at hcounts
  cases hcounts

/-- With the splits named they agree. -/
theorem consumersAgree_sample :
    ∃ dataset, parseSupervisedDataset asciiInterpreter
        (sampleDocument [sampleRecord "margin" [("split", .str "train")]]) "corpus" = .ok dataset ∧
      ConsumersAgree dataset := by
  obtain ⟨dataset, hparse, htest⟩ := PyList.exists_ok_of_any
    (x := parseSupervisedDataset asciiInterpreter
      (sampleDocument [sampleRecord "margin" [("split", .str "train")]]) "corpus")
    (p := fun dataset => dataset.records.all fun record => (record.metadata.lookup "split").isSome) (by decide +kernel)
  refine ⟨dataset, hparse, (consumersAgree_iff hparse).mpr fun record hrecord => ?_⟩
  exact Option.isSome_iff_exists.mp (List.all_eq_true.mp htest record hrecord)

end FinancialRag.Training
