/-
# Operands

A filter operand is a plain text whose form says what it stands for: a field path,
a number, or itself.

* `Operand.ofText` : what a text stands for.  A leading dot is enough for a path.
* `isNumber`, `isPath` : the exact forms of a number and of a path.  They decide
  which operands are printed without quotes.
-/
import QueryPipeline.Text.Digit

namespace QueryPipeline

/-- The form of a number without a sign, over a class of digits: digits, and optionally a point with
digits after it. -/
def isUnsignedOver (digit : Char → Bool) (cs : List Char) : Bool :=
  match cs.takeWhile digit, cs.dropWhile digit with
  | [], _ => false
  | _ :: _, [] => true
  | _ :: _, c :: fraction => c == '.' && !fraction.isEmpty && fraction.all digit

/-- The form of a number over a class of digits, with an optional minus sign. -/
def isNumberOver (digit : Char → Bool) : List Char → Bool
  | '-' :: rest => isUnsignedOver digit rest
  | cs => isUnsignedOver digit cs

/-- A text that reads as a number, in decimal digits of any script. -/
def isNumber (s : String) : Bool :=
  isNumberOver Text.isDecimalDigit s.toList

/-- The characters of a path behind its first dot: words with a dot between each two.  `afterDot` says
that a word has to start. -/
def isPathTail (afterDot : Bool) : List Char → Bool
  | [] => !afterDot
  | c :: cs =>
    if afterDot then Text.isWordStart c && isPathTail false cs
    else if c == '.' then isPathTail true cs
    else Text.isWordChar c && isPathTail false cs

/-- A text that reads as a field path: one or more groups of a dot and a word. -/
def isPath (s : String) : Bool :=
  match s.toList with
  | '.' :: cs => isPathTail true cs
  | _ => false

/-- What an operand stands for. -/
inductive Operand where
  | path (text : String)
  | number (text : String)
  | text (text : String)
  deriving DecidableEq

/-- What a text stands for. -/
def Operand.ofText (s : String) : Operand :=
  if s.toList.head? = some '.' then .path s
  else if isNumber s then .number s
  else .text s

end QueryPipeline
