/-
# Statements

A program as it is written: a list of clauses, each on the line of its keyword.
Texts are kept exactly as they stand in the source, string literals with their
quotes.
-/
import QueryPipeline.Comparison
import QueryPipeline.Position

namespace QueryPipeline

/-- One side of a comparison, as written. -/
inductive Value where
  | string (text : String)
  | number (text : String)
  | path (text : String)
  deriving DecidableEq

/-- The source text of a value. -/
def Value.text : Value → String
  | string text | number text | path text => text

/-- What a statement says, as written. -/
inductive Clause where
  | load (path : String)
  | filter (left : Value) (op : Comparison) (right : Value)
  | select (fields : List String)
  | save (path : String)
  deriving DecidableEq

/-- A clause on the line of its keyword. -/
abbrev Statement := Located Clause

end QueryPipeline
