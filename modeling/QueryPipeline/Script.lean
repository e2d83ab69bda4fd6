/-
# The generated script

A pipeline becomes a JavaScript program for Node.js with one instruction for each
stage.  The instructions pass the records on in three variables, `input`,
`filteredData` and `result`; the current one is the one written last.

* `Scope` : the variables as the instructions so far have left them.
* `Scope.instruction` : the instruction of a stage; `Instruction.text` : its line.
* `scriptOf` : the script of a pipeline.
-/
import QueryPipeline.Command
import QueryPipeline.Command.Printer
import QueryPipeline.Operand

namespace QueryPipeline

/-! ## Field access -/

/-- Access to the field of a record at a path: every step but the first tolerates a missing field. -/
def fieldAccess (s : String) : String :=
  match s.toList with
  | '.' :: rest =>
    String.ofList ('.' :: rest.flatMap fun c => if c = '.' then ['?', '.'] else [c])
  | _ => s

/-- The name of a selected field in the result: the path without its first dot, the other dots
written as underscores. -/
def columnName (s : String) : String :=
  let path := match s.toList with
    | '.' :: rest => rest
    | cs => cs
  String.ofList (path.map fun c => if c = '.' then '_' else c)

namespace Script

/-- The variables of a script that hold records. -/
inductive Variable where
  | input
  | filteredData
  | result
  deriving DecidableEq

/-- The name of a variable. -/
def Variable.name : Variable → String
  | input => "input"
  | filteredData => "filteredData"
  | result => "result"

/-- The records that an instruction reads: those of a variable, or none. -/
def sourceName : Option Variable → String
  | none => "null"
  | some v => v.name

/-- An instruction on the variables. -/
inductive Instruction where
  /-- Declares `input` with the records of a file. -/
  | read (file : String)
  /-- Keeps the records of a source for which a comparison holds, in `filteredData`, which it may
  declare. -/
  | filter (declares : Bool) (source : Option Variable) (left : String) (op : Comparison)
      (right : String)
  /-- Declares `result` with some fields of the records of a source. -/
  | project (source : Option Variable) (fields : List String)
  /-- Writes the records of a source to a file. -/
  | write (file : String) (source : Option Variable)
  deriving DecidableEq

/-- The right side of a comparison. -/
def operandExpr (s : String) : String :=
  match Operand.ofText s with
  | .path path => "item" ++ fieldAccess path
  | .number text => text
  | .text text => quote text

/-- A selected field as a property of an object. -/
def property (field : String) : String :=
  columnName field ++ ": item" ++ fieldAccess field

/-- An object with some selected fields. -/
def object (fields : List String) : String :=
  if fields.isEmpty then "\x7b\x7d"
  else "\x7b " ++ ", ".intercalate (fields.map property) ++ " \x7d"

/-- The line of an instruction, without its line feed. -/
def Instruction.text : Instruction → String
  | read file => "const input = JSON.parse(fs.readFileSync('" ++ file ++ "', 'utf-8'));"
  | filter declares source left op right =>
    (if declares then "const " else "") ++ "filteredData = " ++ sourceName source ++
      ".filter(item => item" ++ fieldAccess left ++ " " ++ op.scriptSpelling ++ " " ++
      operandExpr right ++ ");"
  | project source fields =>
    "const result = " ++ sourceName source ++ ".map(item => (" ++ object fields ++ "));"
  | write file source =>
    "fs.writeFileSync('" ++ file ++ "', JSON.stringify(" ++ sourceName source ++ ", null, 2));"

/-- The variables as the instructions so far have left them. -/
structure Scope where
  /-- The variable written last. -/
  current : Option Variable := none
  /-- Whether `filteredData` is declared. -/
  filtered : Bool := false
  deriving DecidableEq

namespace Scope

/-- The instruction of a stage. -/
def instruction (s : Scope) : Stage → Instruction
  | .load file => .read file
  | .filter left op right =>
    if s.filtered then .filter false (some .filteredData) left op right
    else .filter true s.current left op right
  | .select fields => .project s.current fields
  | .save file => .write file s.current

/-- The variables after a stage. -/
def after (s : Scope) : Stage → Scope
  | .load _ => { s with current := some .input }
  | .filter _ _ _ => ⟨some .filteredData, true⟩
  | .select _ => { s with current := some .result }
  | .save _ => s

/-- The instructions of a pipeline. -/
def instructions (s : Scope) : List Stage → List Instruction
  | [] => []
  | stage :: rest => s.instruction stage :: (s.after stage).instructions rest

end Scope

/-- The lines before the first instruction. -/
def prologue : String :=
  "// Generated automatically\nconst fs = require('fs');\n\n"

/-- The lines of a pipeline, one for each stage. -/
def lines (stages : List Stage) : List String :=
  (Scope.instructions {} stages).map fun i => i.text ++ "\n"

end Script

/-- The script of a pipeline. -/
def scriptOf (stages : List Stage) : String :=
  Script.prologue ++ String.join (Script.lines stages)

end QueryPipeline
