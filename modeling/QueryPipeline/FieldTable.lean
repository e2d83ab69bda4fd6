/-
# Field types

A table says which field paths hold numbers and which hold texts.  Its entries
are ordered by path.
-/
import Std.Data.ExtTreeMap

namespace QueryPipeline

/-- The type of a field. -/
inductive FieldType where
  | number
  | string
  deriving DecidableEq

namespace FieldType

/-- The name of a type. -/
def name : FieldType → String
  | number => "number"
  | string => "string"

/-- The type with a given name. -/
def ofName? (s : String) : Option FieldType :=
  if s = "number" then some .number
  else if s = "string" then some .string
  else none

end FieldType

/-- The declared types of some field paths. -/
abbrev FieldTable := Std.ExtTreeMap String FieldType

namespace FieldTable

/-- The table that declares nothing. -/
def empty : FieldTable := ∅

/-- The table of some declarations, of which the last for each path counts. -/
def ofEntries (entries : List (String × FieldType)) : FieldTable :=
  entries.foldl (fun table entry => table.insert entry.1 entry.2) ∅

/-- The types that are declared unless a table is given. -/
def standard : FieldTable :=
  ofEntries [
    (".idade", .number), (".nome", .string), (".email", .string),
    (".cliente.idade", .number), (".cliente.nome", .string), (".valor", .number)]

end FieldTable

end QueryPipeline
