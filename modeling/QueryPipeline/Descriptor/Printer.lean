/-
# Writing descriptors

A field table as JSON text, its keys in order, on one line or with one entry on
each line.
-/
import QueryPipeline.FieldTable

namespace QueryPipeline

namespace Descriptor

/-- A character inside a JSON string: quotes, backslashes and control characters are escaped. -/
def escapeChar (c : Char) : List Char :=
  match c with
  | '"' => ['\\', '"']
  | '\\' => ['\\', '\\']
  | '\x08' => ['\\', 'b']
  | '\t' => ['\\', 't']
  | '\n' => ['\\', 'n']
  | '\x0c' => ['\\', 'f']
  | '\r' => ['\\', 'r']
  | c =>
    if c.toNat < 0x20 then
      ['\\', 'u', '0', '0', Nat.digitChar (c.toNat / 16), Nat.digitChar (c.toNat % 16)]
    else [c]

/-- A JSON string. -/
def jsonString (s : String) : String :=
  String.ofList ('"' :: s.toList.flatMap escapeChar ++ ['"'])

/-- An entry of a table, with a given text between key and type. -/
def entryText (colon : String) (entry : String × FieldType) : String :=
  jsonString entry.1 ++ colon ++ jsonString entry.2.name

end Descriptor

namespace FieldTable

/-- A table as JSON on one line. -/
def compact (table : FieldTable) : String :=
  "\x7b" ++ ",".intercalate (table.toList.map (Descriptor.entryText ":")) ++ "\x7d"

/-- A table as JSON with one entry on each line. -/
def pretty (table : FieldTable) : String :=
  if table.isEmpty then "\x7b\x7d"
  else
    "\x7b\n" ++
      ",\n".intercalate (table.toList.map fun entry => "  " ++ Descriptor.entryText ": " entry) ++
      "\n\x7d"

end FieldTable

end QueryPipeline
