/-
# Jobs

A job compiles one program with the files around it: the field types may come from
a descriptor file, and the script may go to a file.

* `Rules.load` : the rules of a job.
* `Job.run` : the outcome of a job.  Nothing is written unless the compilation
  succeeds.
-/
import QueryPipeline.Descriptor.Printer
import QueryPipeline.Descriptor.Reader
import QueryPipeline.Host
import QueryPipeline.Manual

namespace QueryPipeline

/-- Why a run has no outcome. -/
inductive RunError where
  /-- There is no program to compile. -/
  | noInput
  /-- A file cannot be read or written. -/
  | file (path : String) (error : FileError)
  /-- The standard input cannot be read. -/
  | input (error : FileError)
  /-- A descriptor describes no field table. -/
  | schema (error : SchemaError)
  /-- The manual has no such page. -/
  | unknownTopic (name : String)
  deriving DecidableEq

/-- The wording of a run error. -/
def RunError.message : RunError → String
  | noInput => "No program provided. Pass a file or pipe MiniQuery source to stdin."
  | file path error => "could not access '" ++ path ++ "': " ++ error.message
  | input error => "IO error: " ++ error.message
  | schema error => error.message
  | unknownTopic name =>
    "Unknown topic: '" ++ name ++ "'\nRun 'miniquery docs' to see available topics."

/-- A page of the manual. -/
def Manual.find (name : String) : Except RunError String :=
  match Manual.Topic.ofName? name with
  | some topic => .ok topic.content
  | none => .error (.unknownTopic name)

/-- An order to compile one program. -/
structure Job where
  /-- The text of the program, if there is one. -/
  source : Option String := none
  /-- The file for the script. -/
  output : Option String := none
  /-- The descriptor file of the field types. -/
  schema : Option String := none
  /-- Whether the order of the stages is checked. -/
  strict : Bool := false
  /-- Whether the form of the text is all that is asked for. -/
  formOnly : Bool := false

/-- The outcome of a job. -/
inductive JobOutcome where
  /-- The text parses, and no more was asked. -/
  | wellFormed
  | compiled (report code : String)
  | failed (report : String)
  deriving DecidableEq

/-- An outcome without errors. -/
def JobOutcome.isSuccess : JobOutcome → Bool
  | failed _ => false
  | _ => true

/-- Whether a text parses. -/
def checkForm (source : String) : JobOutcome :=
  match parse source with
  | .ok _ => .wellFormed
  | .error faults => .failed (Failure.malformed faults).verdict.report

variable {m : Type → Type} [Monad m] [Host m]

/-- The field types of a descriptor file, or the built-in ones if there is none. -/
def FieldTable.load (schema : Option String) : m (Except RunError FieldTable) :=
  match schema with
  | none => pure (.ok FieldTable.standard)
  | some path => do
    match ← Host.readText path with
    | .error e => return .error (.file path e)
    | .ok text =>
      match FieldTable.ofDescriptor text with
      | .error e => return .error (.schema e)
      | .ok table =>
        Host.log ⟨.debug, "cli::compile",
          "loaded " ++ toString table.size ++ " field type(s) from " ++ path⟩
        return .ok table

/-- The rules of a job. -/
def Rules.load (schema : Option String) (strict : Bool) : m (Except RunError Rules) := do
  return (← FieldTable.load schema).map fun types => ⟨types, strict⟩

namespace Job

/-- Hands over a successful compilation, to a file if one is named. -/
def deliver (job : Job) (c : Compiled) : m (Except RunError JobOutcome) :=
  let outcome : JobOutcome := .compiled (Verdict.success c.code).report c.code
  match job.output with
  | none => pure (.ok outcome)
  | some path => do
    match ← Host.write path c.code with
    | .error e => return .error (.file path e)
    | .ok () =>
      Host.log ⟨.debug, "cli::compile", "wrote generated code to " ++ path⟩
      return .ok outcome

/-- Compiles the program of a job. -/
def compileSource (job : Job) (source : String) : m (Except RunError JobOutcome) := do
  match ← Rules.load job.schema job.strict with
  | .error e => return .error e
  | .ok rules =>
    Host.logAll (Trace.compilation rules source)
    match compile rules source with
    | .error failure => return .ok (.failed failure.verdict.report)
    | .ok c => job.deliver c

/-- The outcome of a job. -/
def run (job : Job) : m (Except RunError JobOutcome) :=
  match job.source with
  | none => pure (.error .noInput)
  | some source =>
    if job.formOnly then pure (.ok (checkForm source)) else job.compileSource source

end Job

/-- The field types of a descriptor file, or the built-in ones, as JSON text. -/
def schemaText (schema : Option String) : m (Except RunError String) := do
  return (← FieldTable.load schema).map FieldTable.pretty

end QueryPipeline
