/-
# Printing commands

A command written back as source text.  An operand that has the form of a path or
of a number is written bare, any other in quotes.
-/
import QueryPipeline.Command
import QueryPipeline.Operand

namespace QueryPipeline

/-- A text in double quotes.  Nothing inside it is escaped. -/
def quote (s : String) : String :=
  "\"" ++ s ++ "\""

/-- A filter operand as source text. -/
def printOperand (s : String) : String :=
  if isPath s || isNumber s then s else quote s

/-- A stage as source text. -/
def Stage.print : Stage → String
  | load file => "LOAD " ++ quote file
  | filter left op right =>
    "FILTER " ++ printOperand left ++ " " ++ op.spelling ++ " " ++ printOperand right
  | select fields => "SELECT " ++ ", ".intercalate fields
  | save file => "SAVE AS " ++ quote file

/-- A program of some stages, one on each line. -/
def printProgram (stages : List Stage) : String :=
  "\n".intercalate (stages.map Stage.print)

end QueryPipeline
