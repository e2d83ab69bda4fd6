/-
# Comparison operators

The six operators of a FILTER, their spelling in a program and in the generated
script, and which of them compare texts.
-/

namespace QueryPipeline

/-- A comparison operator. -/
inductive Comparison where
  | eq
  | ne
  | lt
  | gt
  | le
  | ge
  deriving DecidableEq

namespace Comparison

/-- All six operators. -/
def all : List Comparison := [eq, ne, lt, gt, le, ge]

/-- The spelling in a program. -/
def spelling : Comparison → String
  | eq => "=="
  | ne => "!="
  | lt => "<"
  | gt => ">"
  | le => "<="
  | ge => ">="

/-- The operator with a given spelling. -/
def ofSpelling? (s : String) : Option Comparison :=
  all.find? (·.spelling == s)

/-- The spelling in the generated script, where equality does not convert its sides. -/
def scriptSpelling : Comparison → String
  | eq => "==="
  | ne => "!=="
  | op => op.spelling

/-- Texts are compared for equality only. -/
def appliesToStrings : Comparison → Bool
  | eq | ne => true
  | _ => false

end Comparison

end QueryPipeline
