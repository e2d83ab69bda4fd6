/-
# Schema descriptors

A field table is described by a JSON object from paths to type names.  This module
holds what can be wrong with a descriptor and where; the reader and the printer
are beside it.

* `DescriptorCause.message` : the wording of the causes.
* `ReadError.position` : the place of an error.  Columns count bytes.
-/
import QueryPipeline.Position
import QueryPipeline.Text.Quoted

namespace QueryPipeline

/-- A JSON value that stands where another kind is expected. -/
inductive Misplaced where
  | null
  | boolean (value : Bool)
  | integer (value : Int)
  /-- A number that is no integer of 64 bits, by its text. -/
  | float (text : String)
  | string (text : List Char)
  | sequence
  | map
  deriving DecidableEq

/-- A misplaced value in words. -/
def Misplaced.text : Misplaced → String
  | null => "null"
  | boolean value => "boolean `" ++ (if value then "true" else "false") ++ "`"
  | integer value => "integer `" ++ toString value ++ "`"
  | float text => "floating point `" ++ text ++ "`"
  | string text => "string " ++ Text.quoted text
  | sequence => "sequence"
  | map => "map"

/-- What can be wrong with the text of a descriptor. -/
inductive DescriptorCause where
  | valueEnds
  | objectEnds
  | stringEnds
  | identifierExpected
  | valueExpected
  | colonExpected
  | commaOrBraceExpected
  | keyExpected
  | trailingComma
  | trailingCharacters
  | controlCharacter
  | invalidEscape
  | loneSurrogate
  | hexEscapeEnds
  | invalidNumber
  | numberOutOfRange
  | unknownType (name : List Char)
  | misplaced (found : Misplaced) (expected : String)
  deriving DecidableEq

/-- The wording of a cause. -/
def DescriptorCause.message : DescriptorCause → String
  | valueEnds => "EOF while parsing a value"
  | objectEnds => "EOF while parsing an object"
  | stringEnds => "EOF while parsing a string"
  | identifierExpected => "expected ident"
  | valueExpected => "expected value"
  | colonExpected => "expected `:`"
  | commaOrBraceExpected => "expected `,` or `\x7d`"
  | keyExpected => "key must be a string"
  | trailingComma => "trailing comma"
  | trailingCharacters => "trailing characters"
  | controlCharacter => "control character (\\u0000-\\u001F) found while parsing a string"
  | invalidEscape => "invalid escape"
  | loneSurrogate => "lone leading surrogate in hex escape"
  | hexEscapeEnds => "unexpected end of hex escape"
  | invalidNumber => "invalid number"
  | numberOutOfRange => "number out of range"
  | unknownType name =>
    "unknown variant `" ++ String.ofList name ++ "`, expected `number` or `string`"
  | misplaced found expected => "invalid type: " ++ found.text ++ ", expected " ++ expected

/-- The size of some characters in bytes. -/
def byteSize (cs : List Char) : Nat :=
  cs.foldr (fun c n => c.utf8Size + n) 0

/-- Something wrong with a descriptor, and how many bytes lie behind that place. -/
structure ReadError where
  cause : DescriptorCause
  remaining : Nat
  deriving DecidableEq

/-- The position after some bytes of a text.  Its column counts bytes, and may lie inside a
character. -/
def bytePosition (p : Position) : List Char → Nat → Position
  | [], _ => p
  | c :: cs, n =>
    if n < c.utf8Size then ⟨p.line, p.column + n⟩
    else if c = '\n' then bytePosition ⟨p.line + 1, 0⟩ cs (n - 1)
    else bytePosition ⟨p.line, p.column + c.utf8Size⟩ cs (n - c.utf8Size)

/-- The place of an error in the text that was read. -/
def ReadError.position (e : ReadError) (text : List Char) : Position :=
  bytePosition Position.first text (byteSize text - e.remaining)

/-- Why a text describes no field table. -/
inductive SchemaError where
  | unreadable (cause : DescriptorCause) (position : Position)
  | invalidPath (key : String)
  deriving DecidableEq

/-- The wording of a schema error. -/
def SchemaError.message : SchemaError → String
  | unreadable cause p =>
    "invalid schema descriptor: " ++ cause.message ++ " at line " ++ toString p.line ++
      " column " ++ toString p.column
  | invalidPath key => "schema key '" ++ key ++ "' is not a field path (it must start with '.')"

end QueryPipeline
