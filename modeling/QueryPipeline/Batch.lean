/-
# Batch runs

A batch compiles every program of a directory and compares each report with the
expected one.  The results are written to a directory, one file for each program
and a report on the whole run.

* `Case.passes` : a report and an expected text agree up to line ends and blanks at
  the two ends.
* `Batch.runCase` : one program.
* `Batch.run` : the programs of a directory, in the order of their names.
-/
import QueryPipeline.Job
import QueryPipeline.Text.Lines

namespace QueryPipeline

/-- The outcome of one program of a batch. -/
structure Case where
  name : String
  input : String
  output : String
  passed : Bool
  deriving DecidableEq

namespace Case

/-- A report agrees with the expected text. -/
def passes (report expected : String) : Bool :=
  Text.canonical report == Text.canonical expected

/-- The case of a program that cannot be read. -/
def unreadable (name : String) (e : FileError) : Case :=
  ⟨name, "", "ERROR WHILE RUNNING TEST:\n" ++ e.message, false⟩

/-- A case as text. -/
def text (c : Case) : String :=
  "-> Test: " ++ c.name ++ "\nStatus: " ++ (if c.passed then "✔ PASSED" else "✘ FAILED") ++
    "\n--- Input ---\n" ++ c.input ++ "\n--- Result ---\n" ++ c.output

/-- The note on a finished case. -/
def logEntry (c : Case) : LogEntry :=
  ⟨.info, "cli::batch", c.name ++ ": " ++ if c.passed then "passed" else "failed"⟩

end Case

/-- A batch: three directories, which may coincide, and the rules for all programs. -/
structure Batch where
  programs : String
  expected : String
  results : String
  rules : Rules := {}

/-- The outcome of a batch. -/
structure Summary where
  cases : List Case
  reportPath : String
  deriving DecidableEq

namespace Summary

/-- How many cases passed. -/
def passed (s : Summary) : Nat :=
  s.cases.countP Case.passed

/-- How many cases there are. -/
def total (s : Summary) : Nat :=
  s.cases.length

end Summary

namespace Batch

/-- The names of programs end in `.mq`. -/
def isProgram (name : String) : Bool :=
  ['.', 'm', 'q'].isSuffixOf name.toList

/-- The programs among some names, in order. -/
def programNames (names : List String) : List String :=
  (names.filter isProgram).mergeSort fun a b => a ≤ b

/-- The directory of the programs.  They are looked for behind a slash, so that the empty path stands
for the root. -/
def programDirectory (b : Batch) : String :=
  if b.programs = "" then "/" else b.programs

/-- The file of a program. -/
def programPath (b : Batch) (file : String) : String :=
  joinPath b.programDirectory file

/-- The file with the expected report of a case. -/
def expectedPath (b : Batch) (name : String) : String :=
  joinPath b.expected (name ++ ".expected.txt")

/-- The file for the result of a case. -/
def resultPath (b : Batch) (name : String) : String :=
  joinPath b.results (name ++ ".result.txt")

/-- The file for the report on the whole run. -/
def reportPath (b : Batch) : String :=
  joinPath b.results "REPORT.txt"

/-- The report on a whole run. -/
def report (date : String) (passed total : Nat) (cases : List Case) : String :=
  "=== TEST REPORT ===\nDate: " ++ date ++ "\n\n->  SUMMARY: " ++ toString passed ++ "/" ++
    toString total ++ " tests passed\n\n" ++
    String.join (cases.map fun c => c.text ++ "\n\n")

variable {m : Type → Type} [Monad m] [Host m]

/-- Compares a report with the expected one; without one the case fails. -/
def judge (b : Batch) (name output : String) : m Bool := do
  match ← Host.readText (b.expectedPath name) with
  | .ok expected => return Case.passes output expected
  | .error _ =>
    Host.log ⟨.debug, "cli::batch", "no expected output at " ++ b.expectedPath name⟩
    return false

/-- Runs one program, given by the name of its file. -/
def runCase (b : Batch) (file : String) : m Case := do
  let name := Text.stem file
  match ← Host.readText (b.programPath file) with
  | .error e => return .unreadable name e
  | .ok input =>
    Host.logAll (Trace.compilation b.rules input)
    let output := reportOn b.rules input
    let passed ← b.judge name output
    return ⟨name, input, output, passed⟩

/-- Runs some programs one after the other and writes the result of each.  The first result that
cannot be written ends the run. -/
def runCases (b : Batch) : List String → m (Except RunError (List Case))
  | [] => pure (.ok [])
  | file :: rest => do
    let c ← b.runCase file
    Host.log c.logEntry
    match ← Host.write (b.resultPath c.name) c.text with
    | .error e => return .error (.file (b.resultPath c.name) e)
    | .ok () => return (← b.runCases rest).map fun cases => c :: cases

/-- Writes the report on a whole run. -/
def finish (b : Batch) (cases : List Case) : m (Except RunError Summary) := do
  let passed := (cases.filter Case.passed).length
  match ← Host.write b.reportPath (report (← Host.date) passed cases.length cases) with
  | .error e => return .error (.file b.reportPath e)
  | .ok () => return .ok ⟨cases, b.reportPath⟩

/-- Runs a batch. -/
def run (b : Batch) : m (Except RunError Summary) := do
  match ← Host.createDirectories b.results with
  | .error e => return .error (.file b.results e)
  | .ok () =>
    match ← b.runCases (programNames (← Host.names b.programDirectory)) with
    | .error e => return .error e
    | .ok cases => b.finish cases

end Batch

end QueryPipeline
