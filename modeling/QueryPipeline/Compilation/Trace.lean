/-
# Traces

What a compilation notes about its own progress: the statements parsed, the
commands gathered with their findings, and the lines of the script.
-/
import QueryPipeline.Compilation
import QueryPipeline.Terminal

namespace QueryPipeline

/-- How important a note is. -/
inductive LogLevel where
  | debug
  | info
  deriving DecidableEq

/-- A level in five characters. -/
def LogLevel.label : LogLevel → String
  | debug => "DEBUG"
  | info => "INFO "

/-- A note on the progress of a run. -/
structure LogEntry where
  level : LogLevel
  /-- The part of the program that made the note. -/
  origin : String
  message : String
  deriving DecidableEq

namespace LogEntry

/-- A message of several lines, all but the first indented by four spaces. -/
def indented (message : List Char) : List Char :=
  message.flatMap fun c => if c = '\n' then ['\n', ' ', ' ', ' ', ' '] else [c]

/-- A note as a line, made at a given time.  The log is no terminal, so the line goes without the
control sequences that the message may hold; one that stays open may take the line end too. -/
def line (e : LogEntry) (time : String) : String :=
  Terminal.plain <| "[" ++ time ++ " " ++ e.level.label ++ " miniquery::" ++ e.origin ++ "] " ++
    String.ofList (indented e.message.toList) ++ "\n"

end LogEntry

namespace Trace

/-- A command has been gathered. -/
def collected (c : Command) : LogEntry :=
  ⟨.debug, "collector",
    "collected " ++ c.item.keyword ++ " (line " ++ toString c.line ++ ")"⟩

/-- Something is wrong with a command. -/
def found (f : Finding) : LogEntry :=
  ⟨.debug, "semantic", "semantic error: " ++ Finding.display f⟩

/-- The notes of a review on some further statements. -/
def review (rules : Rules) (r : Review) : List Statement → List LogEntry
  | [] => []
  | s :: rest =>
    collected (commandOf s) :: (r.examine rules s).map found ++ review rules (r.add rules s) rest

/-- The notes on the lines of a script. -/
def script (stages : List Stage) : List LogEntry :=
  (Script.Scope.instructions {} stages).map fun i => ⟨.debug, "codegen", "emit: " ++ i.text⟩

/-- The notes on a program that parses.  Only a valid one gets to its script. -/
def program (rules : Rules) (statements : List Statement) : List LogEntry :=
  ⟨.debug, "compiler", "parsed " ++ toString statements.length ++ " command(s)"⟩ ::
    review rules {} statements ++
    match compileProgram rules statements with
    | .error _ => []
    | .ok compiled => script (compiled.commands.map Located.item)

/-- The notes on the compilation of a text.  One that does not parse leaves none. -/
def compilation (rules : Rules) (source : String) : List LogEntry :=
  match parse source with
  | .error _ => []
  | .ok statements => program rules statements

end Trace

end QueryPipeline
