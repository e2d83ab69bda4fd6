/-
# Line ends and file names

Small functions on texts that come from files: line ends of either style, and the
parts of a file name.
-/
import QueryPipeline.Text.Blank

namespace QueryPipeline.Text

/-- Writes every pair of carriage return and line feed as a line feed. -/
def unifyLineEnds : List Char → List Char
  | '\r' :: '\n' :: rest => '\n' :: unifyLineEnds rest
  | c :: rest => c :: unifyLineEnds rest
  | [] => []

/-- A text without the blanks at its two ends, with line feeds for line ends. -/
def canonical (s : String) : String :=
  String.ofList (unifyLineEnds (trimChars s.toList))

/-- A file name without its last extension.  A dot in front starts no extension. -/
def stem (name : String) : String :=
  match (name.toList.reverse.dropWhile (· != '.')).drop 1 with
  | [] => name
  | before => String.ofList before.reverse

end QueryPipeline.Text
