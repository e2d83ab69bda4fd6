/-
# Compilation

A text is parsed, reviewed and turned into a script; each step runs only if the
one before found nothing wrong.  The outcome can be shown as one text, the
report.

* `compile` : the script of a text, or why there is none.
* `Verdict.text`, `Verdict.report` : an outcome in words.
* `Attempt.settle` : a step that breaks down becomes an internal error.
-/
import QueryPipeline.Review
import QueryPipeline.Script
import QueryPipeline.Statement.Parser

namespace QueryPipeline

/-- What a successful compilation yields. -/
structure Compiled where
  commands : List Command
  code : String
  deriving DecidableEq

/-- Why a compilation yields nothing. -/
inductive Failure where
  /-- The text does not parse. -/
  | malformed (faults : List Fault)
  /-- The review of the program found something. -/
  | invalid (findings : List Finding)
  /-- A step broke down. -/
  | internal (message : String)
  deriving DecidableEq

/-! ## Steps that break down -/

/-- How a step of a compilation ends. -/
inductive Attempt (α : Type) where
  | finished (result : Except Failure α)
  /-- The step broke down, perhaps with a reason. -/
  | brokeDown (reason : Option String)

/-- The result of a step; a breakdown is an internal error. -/
def Attempt.settle {α : Type} : Attempt α → Except Failure α
  | .finished result => result
  | .brokeDown reason => .error (.internal (reason.getD "unknown internal error"))

/-! ## Compiling -/

/-- The compilation of a program: its script, unless something is wrong with it. -/
def compileProgram (rules : Rules) (program : List Statement) : Except Failure Compiled :=
  let r := review rules program
  if r.isValid then .ok ⟨r.commands, scriptOf (r.commands.map Located.item)⟩
  else .error (.invalid r.findings)

/-- The steps of a compilation. -/
def compileStages (rules : Rules) (source : String) : Except Failure Compiled :=
  match parse source with
  | .error faults => .error (.malformed faults)
  | .ok program => compileProgram rules program

/-- The compilation of a text. -/
def compile (rules : Rules) (source : String) : Except Failure Compiled :=
  Attempt.settle (.finished (compileStages rules source))

/-! ## Reports -/

/-- The outcome of a compilation, in the form in which it is reported. -/
inductive Verdict where
  | success (code : String)
  /-- The faults of a text, each with its place. -/
  | malformed (notes : List String)
  /-- The findings of a program, each with its line. -/
  | invalid (notes : List String)
  | internal (message : String)

namespace Verdict

/-- The first line of a report on a success. -/
def successBanner : String := "✔ ANALYSIS SUCCESSFUL. GENERATED CODE:"

/-- The first line of a report on findings. -/
def invalidBanner : String := "✖ SEMANTIC ERRORS:"

/-- The first line of a report on a breakdown. -/
def internalBanner : String := "💥 UNEXPECTED ERROR DURING COMPILATION:"

/-- A verdict in words. -/
def text : Verdict → String
  | success code => successBanner ++ "\n\n" ++ code
  | malformed notes => "\n".intercalate (notes.map fun note => "SYNTAX ERROR: " ++ note)
  | invalid notes => invalidBanner ++ String.join (notes.map fun note => "\n" ++ note)
  | internal message => internalBanner ++ "\n" ++ message

/-- A verdict in words, without blanks at the two ends. -/
def report (v : Verdict) : String :=
  Text.trim v.text

end Verdict

/-- A failure as it is reported. -/
def Failure.verdict : Failure → Verdict
  | malformed faults => .malformed (faults.map Fault.display)
  | invalid findings => .invalid (findings.map Finding.display)
  | internal message => .internal message

/-- A failure in words. -/
def Failure.display (f : Failure) : String :=
  f.verdict.text

/-- The outcome of a compilation as it is reported. -/
def verdict : Except Failure Compiled → Verdict
  | .ok compiled => .success compiled.code
  | .error failure => failure.verdict

/-- The report on the compilation of a text. -/
def reportOn (rules : Rules) (source : String) : String :=
  (verdict (compile rules source)).report

end QueryPipeline
