/-
# Commands

A program as it is meant: stages, each on the line of its statement.  File names
and text operands have lost their quotes.

* `Clause.stage` : the meaning of a clause.
* `Pipeline.ofProgram` : the commands of a program, and the file that the last LOAD
  named.
-/
import QueryPipeline.Statement

namespace QueryPipeline

/-- A stage of a pipeline. -/
inductive Stage where
  | load (file : String)
  | filter (left : String) (op : Comparison) (right : String)
  | select (fields : List String)
  | save (file : String)
  deriving DecidableEq

/-- A stage on the line of its statement. -/
abbrev Command := Located Stage

/-- The keyword of a stage. -/
def Stage.keyword : Stage → String
  | load _ => "LOAD"
  | filter _ _ _ => "FILTER"
  | select _ => "SELECT"
  | save _ => "SAVE"

/-- Takes off one quote at each end, if both are there. -/
def stripQuotes (s : String) : String :=
  match s.toList with
  | '"' :: cs => if cs.getLast? = some '"' then String.ofList cs.dropLast else s
  | _ => s

/-- The text that a value stands for: literals lose their quotes, numbers and paths are taken as
written. -/
def Value.operand : Value → String
  | string text => stripQuotes text
  | number text => text
  | path text => text

/-- The stage that a clause describes. -/
def Clause.stage : Clause → Stage
  | load path => .load (stripQuotes path)
  | filter left op right => .filter left.operand op right.operand
  | select fields => .select fields
  | save path => .save (stripQuotes path)

/-- The command of a statement. -/
def commandOf (s : Statement) : Command :=
  s.map Clause.stage

/-- Commands in the order of their statements, and the file that the last LOAD among them named. -/
structure Pipeline where
  commands : List Command := []
  currentFile : Option String := none
  deriving DecidableEq

namespace Pipeline

/-- Adds the command of a statement. -/
def add (p : Pipeline) (s : Statement) : Pipeline where
  commands := p.commands ++ [commandOf s]
  currentFile := match (commandOf s).item with
    | .load file => some file
    | _ => p.currentFile

/-- The commands of a program. -/
def ofProgram (program : List Statement) : Pipeline :=
  program.foldl add {}

end Pipeline

end QueryPipeline
