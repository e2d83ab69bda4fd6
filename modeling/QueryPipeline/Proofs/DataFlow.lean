/-
# The flow of records through a script

The lines of a script are run as operations on the variables that their text names,
for any meaning of loading, filtering and projecting records.  Stages in order run
as the pipeline they stand for: no line reads `null` or a variable that holds
nothing yet, and every file is written with the records of the stage before it.

* `Meaning.runLine` : the effect of a line on the variables;
* `Meaning.flow` : the effect of a stage on the current records;
* `runLine_simulates_flow` : a line of a stage in order has the effect of the stage;
* `outputs_lines_eq_outputs_stages` : so has a script without an ordering problem.
-/
import QueryPipeline.Proofs.Findings
import QueryPipeline.Proofs.ScriptReading

namespace QueryPipeline

open Script

/-! ## Runs -/

/-- A meaning of the stages, on records of some kind. -/
structure Meaning (Records : Type) where
  load : String → Records
  filter : String → Comparison → String → Records → Records
  project : List String → Records → Records

/-- The outputs of a sequence of steps from a state on, if no step fails. -/
def outputs {State Step Output : Type} (step : State → Step → Option (State × List Output)) :
    State → List Step → Option (List Output)
  | _, [] => some []
  | s, x :: xs => do
    let (s', written) ← step s x
    let later ← outputs step s' xs
    return written ++ later

variable {Records : Type}

/-- What the variables of a script hold. -/
def Store (Records : Type) : Type :=
  Variable → Option Records

namespace Store

/-- Nothing is written yet. -/
def empty : Store Records :=
  fun _ => none

def set (store : Store Records) (v : Variable) (records : Records) : Store Records :=
  fun w => if w = v then some records else store w

@[simp] theorem set_self (store : Store Records) (v : Variable) (records : Records) :
    store.set v records v = some records := if_pos rfl

/-- The records that a line reads, unless it names `null` or a variable that holds nothing. -/
def read (store : Store Records) (line : String) : Option Records := do
  let v ← source? line
  store v

end Store

namespace Meaning

/-- The effect of the line of a stage on the variables named in its text: the variables after it,
and what it writes to a file. -/
def runLine (m : Meaning Records) (store : Store Records) :
    Stage × String → Option (Store Records × List (String × Records))
  | (.load file, line) => do
    let a ← assignment? line
    return (store.set a.target (m.load file), [])
  | (.filter left op right, line) => do
    let a ← assignment? line
    let records ← store.read line
    return (store.set a.target (m.filter left op right records), [])
  | (.select fields, line) => do
    let a ← assignment? line
    let records ← store.read line
    return (store.set a.target (m.project fields records), [])
  | (.save file, line) => do
    let records ← store.read line
    return (store, [(file, records)])

/-- The effect of a stage on the current records, those of the last LOAD, FILTER or SELECT: the
current records after it, and what it writes to a file. -/
def flow (m : Meaning Records) (current : Option Records) :
    Stage → Option (Option Records × List (String × Records))
  | .load file => some (some (m.load file), [])
  | .filter left op right => current.map fun records => (some (m.filter left op right records), [])
  | .select fields => current.map fun records => (some (m.project fields records), [])
  | .save file => current.map fun records => (some records, [(file, records)])

end Meaning

/-! ## Lines in order -/

/-- The variables agree with the current records: once something is loaded, the current variable
holds them. -/
structure Agrees (p : Progress) (s : Scope) (store : Store Records)
    (current : Option Records) : Prop where
  /-- No filter comes before the first LOAD. -/
  fresh : p.loaded = false → s.filtered = false
  /-- Until something is selected, filters go on from one another. -/
  chain : s.filtered = true → p.selected = false → s.current = some .filteredData
  held : p.loaded = true →
    ∃ v records, s.current = some v ∧ store v = some records ∧ current = some records

theorem Store.read_text {store : Store Records} {i : Instruction} {v : Variable}
    {records : Records} (hsource : i.source = some v) (hstore : store v = some records) :
    store.read (i.text ++ "\n") = some records := by
  rw [Store.read, source?_text i (by decide +kernel), hsource]
  exact hstore

/-- Without an earlier SELECT, a FILTER reads the current variable. -/
theorem source_filter {s : Scope} (h : s.filtered = true → s.current = some .filteredData)
    (left : String) (op : Comparison) (right : String) :
    (s.instruction (.filter left op right)).source = s.current := by
  cases hfiltered : s.filtered with
  | false => simp [Scope.instruction, hfiltered, Instruction.source]
  | true => simp [Scope.instruction, hfiltered, Instruction.source, h hfiltered]

/-- **The line of a stage in order has the effect of the stage.** -/
theorem runLine_simulates_flow (m : Meaning Records) {p : Progress} {s : Scope}
    {store : Store Records} {current : Option Records} {stage : Stage}
    (horder : orderProblems p stage = []) (h : Agrees p s store current) :
    ∃ store' current' written,
      m.runLine store (stage, (s.instruction stage).text ++ "\n") = some (store', written) ∧
      m.flow current stage = some (current', written) ∧
      Agrees (p.after stage) (s.after stage) store' current' := by
  cases stage with
  | load file =>
    have hloaded : p.loaded = false := by simpa [orderProblems] using horder
    refine ⟨store.set .input (m.load file), _, [], ?_, rfl, ?_⟩
    · rw [Meaning.runLine, assignment?_text]
      rfl
    · refine ⟨by simp [Progress.after], ?_, ?_⟩
      · intro hfiltered
        rw [Scope.after, h.fresh hloaded] at hfiltered
        cases hfiltered
      · intro _
        exact ⟨.input, m.load file, rfl, store.set_self _ _, rfl⟩
  | filter left op right =>
    obtain ⟨hloaded, hselected⟩ : p.loaded = true ∧ p.selected = false := by
      simpa [orderProblems] using horder
    obtain ⟨v, records, hv, hstore, rfl⟩ := h.held hloaded
    -- The chain of filters is not broken, so `filteredData` is the current variable if it exists.
    have hsource := (source_filter (fun hf => h.chain hf hselected) left op right).trans hv
    refine ⟨store.set .filteredData (m.filter left op right records), _, [], ?_, rfl, ?_⟩
    · rw [Meaning.runLine, assignment?_text, assignment_instruction, Store.read_text hsource hstore]
      rfl
    · refine ⟨by simp [Progress.after, hloaded], fun _ _ => rfl, ?_⟩
      intro _
      exact ⟨.filteredData, _, rfl, store.set_self _ _, rfl⟩
  | select fields =>
    have hloaded : p.loaded = true := by simpa [orderProblems] using horder
    obtain ⟨v, records, hv, hstore, rfl⟩ := h.held hloaded
    have hsource : (s.instruction (.select fields)).source = some v := hv
    refine ⟨store.set .result (m.project fields records), _, [], ?_, rfl, ?_⟩
    · rw [Meaning.runLine, assignment?_text, Store.read_text hsource hstore]
      rfl
    · refine ⟨by simp [Progress.after, hloaded], by simp [Progress.after], ?_⟩
      intro _
      exact ⟨.result, _, rfl, store.set_self _ _, rfl⟩
  | save file =>
    have hloaded : p.loaded = true := by simpa [orderProblems] using horder
    obtain ⟨v, records, hv, hstore, rfl⟩ := h.held hloaded
    have hsource : (s.instruction (.save file)).source = some v := hv
    refine ⟨store, _, [(file, records)], ?_, rfl, h⟩
    rw [Meaning.runLine, Store.read_text hsource hstore]
    rfl

/-- The lines of stages in order write what the stages write. -/
theorem outputs_simulate (m : Meaning Records) {stages : List Stage} {p : Progress} {s : Scope}
    {store : Store Records} {current : Option Records}
    (horder : Ordered p stages) (h : Agrees p s store current) :
    ∃ files, outputs m.flow current stages = some files ∧
      outputs m.runLine store
        (stages.zip ((s.instructions stages).map fun i => i.text ++ "\n")) = some files := by
  induction stages generalizing p s store current with
  | nil => exact ⟨[], rfl, rfl⟩
  | cons stage stages ih =>
    obtain ⟨store', current', written, hline, hflow, hnext⟩ :=
      runLine_simulates_flow m horder.1 h
    obtain ⟨later, hstages, hlines⟩ := ih horder.2 hnext
    refine ⟨written ++ later, ?_, ?_⟩
    · simp [outputs, hflow, hstages]
    · simp [outputs, Scope.instructions, hline, hlines]

theorem agrees_start : Agrees {} {} (Store.empty : Store Records) none where
  fresh _ := rfl
  chain h := by cases h
  held h := by cases h

/-- **Without an ordering problem, the data flow of a script is right.**  If a strict review finds
none of the three ordering problems, then for every meaning of the stages the pipeline has its
outputs, files with the records that are current when they are saved, and running the lines of the
script on the variables that they name never fails and gives the same outputs in the same order. -/
theorem outputs_lines_eq_outputs_stages (m : Meaning Records) {rules : Rules}
    (strict : rules.strictOrder = true) {program : List Statement}
    (h : ∀ f ∈ (review rules program).findings, f.item.isOrdering = false) :
    ∃ files,
      outputs m.flow none ((review rules program).commands.map Located.item) = some files ∧
      outputs m.runLine Store.empty
        (((review rules program).commands.map Located.item).zip
          (Script.lines ((review rules program).commands.map Located.item))) = some files := by
  rw [commands_review, item_commands]
  exact outputs_simulate m (ordered_of_findings strict h) agrees_start

/-- The meaning that keeps the stages which the records have gone through. -/
def Meaning.history : Meaning (List Stage) where
  load file := [.load file]
  filter left op right stages := stages ++ [.filter left op right]
  project fields stages := stages ++ [.select fields]

/-- A program with two filters that saves before and after it selects. -/
def twoFilters : List Statement :=
  [⟨1, .load "\"a\""⟩, ⟨2, .filter (.path ".x") .gt (.number "1")⟩,
    ⟨3, .filter (.path ".x") .lt (.number "9")⟩, ⟨4, .save "\"b\""⟩, ⟨5, .select [".x"]⟩,
    ⟨6, .save "\"c\""⟩]

/-- Its script writes what has gone through the stages before each SAVE. -/
theorem outputs_lines_twoFilters :
    (∀ f ∈ (review ⟨.empty, true⟩ twoFilters).findings, f.item.isOrdering = false) ∧
      outputs Meaning.history.runLine Store.empty
        (((review ⟨.empty, true⟩ twoFilters).commands.map Located.item).zip
          (Script.lines ((review ⟨.empty, true⟩ twoFilters).commands.map Located.item))) =
        some [("b", [.load "a", .filter ".x" .gt "1", .filter ".x" .lt "9"]),
          ("c", [.load "a", .filter ".x" .gt "1", .filter ".x" .lt "9", .select [".x"]])] := by
  have hfindings : ∀ f ∈ (review ⟨.empty, true⟩ twoFilters).findings,
      f.item.isOrdering = false := by
    decide +kernel
  obtain ⟨files, hflow, hlines⟩ :=
    outputs_lines_eq_outputs_stages Meaning.history rfl hfindings
  refine ⟨hfindings, hlines.trans (hflow.symm.trans ?_)⟩
  decide +kernel

-- A FILTER after a SELECT goes on from `filteredData`: the selection is lost.
example :
    let stages : List Stage := [.load "a", .filter ".x" .gt "1", .select [".x"],
      .filter ".x" .lt "9", .save "b"]
    outputs Meaning.history.runLine Store.empty (stages.zip (Script.lines stages)) =
      some [("b", [.load "a", .filter ".x" .gt "1", .filter ".x" .lt "9"])] := by
  decide +kernel

end QueryPipeline
