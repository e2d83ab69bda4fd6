/-
# Reviewing a program

The commands of a program are checked one after the other.  Whether a command is
in order depends on the command itself, on the declared field types, and on
whether a LOAD and a SELECT came before it.

* `problems` : what is wrong with one stage.
* `Review.add` : one more statement; `review` : a whole program.

Field types are unknown until a LOAD, so that no type is held against a filter
without data.  The order of the stages is checked in strict mode only.
-/
import QueryPipeline.Command
import QueryPipeline.FieldTable
import QueryPipeline.Operand
import QueryPipeline.Text.Blank

namespace QueryPipeline

/-- What can be wrong with a command. -/
inductive Problem where
  | repeatedLoad
  | loadMissing (keyword : String)
  | filterAfterSelect
  | emptyLoadPath
  | emptySavePath
  | typeMismatch (field : String) (fieldType : FieldType) (operand : String)
      (operandType : FieldType)
  | stringOperator (op : Comparison)
  deriving DecidableEq

namespace Problem

/-- The wording of a problem. -/
def message : Problem → String
  | repeatedLoad => "only one LOAD is allowed per program"
  | loadMissing keyword => keyword ++ " requires a preceding LOAD"
  | filterAfterSelect => "FILTER cannot follow SELECT"
  | emptyLoadPath => "file path cannot be empty"
  | emptySavePath => "output file name cannot be empty"
  | typeMismatch field fieldType operand operandType =>
    "incompatible type: field '" ++ field ++ "' is of type " ++ fieldType.name ++
      ", but value '" ++ operand ++ "' is of type " ++ operandType.name
  | stringOperator op => "operator '" ++ op.spelling ++ "' is invalid for strings. Use '==' or '!='."

/-- The problems with the order of the stages. -/
def isOrdering : Problem → Bool
  | repeatedLoad | loadMissing _ | filterAfterSelect => true
  | _ => false

end Problem

/-- A message about a line of a program. -/
def lineNote (line : Nat) (message : String) : String :=
  "ERROR (Line " ++ toString line ++ "): " ++ message

/-- A problem on the line of its command. -/
abbrev Finding := Located Problem

namespace Finding

/-- The wording of a finding, without its line. -/
def message (f : Finding) : String :=
  f.item.message

/-- A finding with its line. -/
def display (f : Finding) : String :=
  lineNote f.line (message f)

end Finding

/-- What a program is checked against. -/
structure Rules where
  fieldTypes : FieldTable := FieldTable.standard
  strictOrder : Bool := false

/-- What the commands so far have brought about. -/
structure Progress where
  loaded : Bool := false
  selected : Bool := false
  deriving DecidableEq

/-- What holds after one more stage. -/
def Progress.after (p : Progress) : Stage → Progress
  | .load _ => { p with loaded := true }
  | .select _ => { p with selected := true }
  | _ => p

/-- What is wrong with the place of a stage. -/
def orderProblems (p : Progress) (stage : Stage) : List Problem :=
  match stage with
  | .load _ => if p.loaded then [.repeatedLoad] else []
  | .filter _ _ _ =>
    (if p.loaded then [] else [.loadMissing stage.keyword]) ++
      (if p.selected then [.filterAfterSelect] else [])
  | _ => if p.loaded then [] else [.loadMissing stage.keyword]

/-- The type of an operand, where it is known. -/
def operandType? (types : FieldTable) (s : String) : Option FieldType :=
  match Operand.ofText s with
  | .path path => types[path]?
  | .number _ => some .number
  | .text _ => some .string

/-- The sides of a comparison have different types. -/
def mismatchProblems (types : FieldTable) (left right : String) : List Problem :=
  match types[left]?, operandType? types right with
  | some l, some r => if l = r then [] else [.typeMismatch left l right r]
  | _, _ => []

/-- The operator does not apply to texts, and the left side is one. -/
def operatorProblems (types : FieldTable) (left : String) (op : Comparison) : List Problem :=
  if types[left]? = some .string ∧ !op.appliesToStrings then [.stringOperator op] else []

/-- What is wrong with a stage wherever it stands. -/
def contentProblems (types : FieldTable) : Stage → List Problem
  | .load file => if Text.trim file = "" then [.emptyLoadPath] else []
  | .filter left op right => mismatchProblems types left right ++ operatorProblems types left op
  | .select _ => []
  | .save file => if Text.trim file = "" then [.emptySavePath] else []

/-- What is wrong with a stage. -/
def problems (rules : Rules) (p : Progress) (stage : Stage) : List Problem :=
  (if rules.strictOrder then orderProblems p stage else []) ++
    contentProblems (if p.loaded then rules.fieldTypes else FieldTable.empty) stage

/-- The commands checked so far, and what was found. -/
structure Review where
  pipeline : Pipeline := {}
  progress : Progress := {}
  findings : List Finding := []

namespace Review

/-- What is wrong with one more statement. -/
def examine (rules : Rules) (r : Review) (s : Statement) : List Finding :=
  (problems rules r.progress (commandOf s).item).map fun problem => ⟨s.line, problem⟩

/-- Checks one more statement. -/
def add (rules : Rules) (r : Review) (s : Statement) : Review where
  pipeline := r.pipeline.add s
  progress := r.progress.after (commandOf s).item
  findings := r.findings ++ r.examine rules s

/-- Checks more statements. -/
def extend (rules : Rules) (r : Review) (program : List Statement) : Review :=
  program.foldl (add rules) r

/-- The states of a review after each of some statements. -/
def steps (rules : Rules) (r : Review) : List Statement → List Review
  | [] => []
  | s :: rest => r.add rules s :: steps rules (r.add rules s) rest

/-- The commands checked so far. -/
def commands (r : Review) : List Command :=
  r.pipeline.commands

/-- The file that the last LOAD named. -/
def currentFile (r : Review) : Option String :=
  r.pipeline.currentFile

/-- Nothing is wrong. -/
def isValid (r : Review) : Bool :=
  r.findings.isEmpty

end Review

/-- The review of a program. -/
def review (rules : Rules) (program : List Statement) : Review :=
  Review.extend rules {} program

end QueryPipeline
