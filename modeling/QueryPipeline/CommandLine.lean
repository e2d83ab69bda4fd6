/-
# The command line

A run of the program: the arguments are read, the request is carried out, and what
it yields goes to the standard streams.  The exit status is 0 if all went well, 1
if not, and 2 if the arguments make no sense.
-/
import QueryPipeline.Batch
import QueryPipeline.CommandLine.Invocation

namespace QueryPipeline

namespace CommandLine

/-- The line that names the program and its version. -/
def versionLine : String := "miniquery 0.1.0\n"

/-- How to call the program. -/
def usage : String :=
  "Usage: miniquery [-v] <subcommand>\n\n" ++
    "  compile [FILE] [-o FILE] [-s FILE] [--strict] [--syntax-only]\n" ++
    "  batch [--programs DIR] [--expected DIR] [--results DIR] [-s FILE] [--strict]\n" ++
    "  schema [-s FILE]\n" ++
    "  docs\n" ++
    "  doc TOPIC\n"

variable {m : Type → Type} [Monad m] [Host m]

/-- The text of the program to compile: of a file, or of the standard input. -/
def readSource (file : Option String) : m (Except RunError (Option String)) :=
  match file with
  | some path => do
    return match ← Host.readText path with
    | .error e => .error (.file path e)
    | .ok text => .ok (some text)
  | none => do
    return match ← Host.input with
    | none => .ok none
    | some bytes =>
      match decodeText bytes with
      | .error e => .error (.input e)
      | .ok text => .ok (some text)

/-- Compiles a program and shows the report. -/
def runCompile (file output schema : Option String) (strict formOnly : Bool) :
    m (Except RunError Bool) := do
  match ← readSource file with
  | .error e => return .error e
  | .ok source =>
    match ← Job.run ⟨source, output, schema, strict, formOnly⟩ with
    | .error e => return .error e
    | .ok outcome =>
      match outcome with
      | .wellFormed => Host.print "Syntax is valid\n"
      | .compiled report _ => Host.print (report ++ "\n")
      | .failed report => Host.print (report ++ "\n")
      return .ok outcome.isSuccess

/-- Runs a batch and shows how many cases passed. -/
def runBatch (programs expected results : String) (schema : Option String) (strict : Bool) :
    m (Except RunError Bool) := do
  Host.print "Running MiniQuery programs...\n"
  match ← Rules.load schema strict with
  | .error e => return .error e
  | .ok rules =>
    match ← Batch.run ⟨programs, expected, results, rules⟩ with
    | .error e => return .error e
    | .ok summary =>
      Host.print (toString summary.passed ++ "/" ++ toString summary.total ++ " tests passed in " ++
        (← Host.elapsed) ++ "ms. Report: " ++ summary.reportPath ++ "\n")
      return .ok (summary.passed == summary.total)

/-- Shows a text that may not be there. -/
def show? (text : Except RunError String) (ending : String) : m (Except RunError Bool) :=
  match text with
  | .error e => pure (.error e)
  | .ok text => do
    Host.print (text ++ ending)
    return .ok true

/-- Carries out a request.  The result says whether all went well. -/
def runInvocation (i : Invocation) : m (Except RunError Bool) :=
  match i with
  | .compile file output schema strict formOnly => runCompile file output schema strict formOnly
  | .batch programs expected results schema strict =>
    runBatch programs expected results schema strict
  | .schema schema => do show? (← schemaText schema) "\n"
  | .docs => show? (.ok Manual.overview) ""
  | .doc topic => show? (Manual.find topic) ""

/-- Runs the program with some arguments and yields its exit status. -/
def execute (arguments : List String) : m Nat := do
  match Invocation.ofArguments arguments with
  | .error e =>
    Host.complain ("error: " ++ e.message ++ "\n\n" ++ usage)
    return 2
  | .ok .version =>
    Host.print versionLine
    return 0
  | .ok .help =>
    Host.print usage
    return 0
  | .ok (.run verbose invocation) =>
    Host.setVerbose verbose
    match ← runInvocation invocation with
    | .error e =>
      Host.complain (e.message ++ "\n")
      return 1
    | .ok success => return if success then 0 else 1

end CommandLine

end QueryPipeline
