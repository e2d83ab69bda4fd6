/-
# Tokens and lexical errors

The words of the language.  A token keeps its source spelling: string literals
hold their quotes.

* `Token.spelling` : the source text of a token.
* `Token.describe` : a token as an error message shows it.
* `LexicalCause.message` : the wording of the three lexical errors.
-/
import QueryPipeline.Comparison
import QueryPipeline.Position

namespace QueryPipeline

/-- A token.  The end of the text is a token too. -/
inductive Token where
  | load
  | filter
  | select
  | save
  | asWord
  | string (text : String)
  | number (text : String)
  | path (text : String)
  | identifier (text : String)
  | comma
  | operator (op : Comparison)
  | eof
  deriving DecidableEq

namespace Token

/-- The source text of a token. -/
def spelling : Token → String
  | load => "LOAD"
  | filter => "FILTER"
  | select => "SELECT"
  | save => "SAVE"
  | asWord => "AS"
  | string text | number text | path text | identifier text => text
  | comma => ","
  | operator op => op.spelling
  | eof => ""

/-- A token as an error message shows it: its spelling in single quotes. -/
def describe : Token → String
  | eof => "<EOF>"
  | t => "'" ++ t.spelling ++ "'"

/-- The keywords that open a statement. -/
def startsCommand : Token → Bool
  | load | filter | select | save => true
  | _ => false

/-- The token of a word: a keyword if it is spelt exactly like one, an identifier otherwise. -/
def ofWord (word : String) : Token :=
  if word = "LOAD" then load
  else if word = "FILTER" then filter
  else if word = "SELECT" then select
  else if word = "SAVE" then save
  else if word = "AS" then asWord
  else identifier word

end Token

/-- What can be wrong with the characters of a text. -/
inductive LexicalCause where
  /-- No token starts with this character. -/
  | unexpectedChar (c : Char)
  /-- A string literal without its closing quote on the same line. -/
  | unterminatedString
  /-- A dot without a field name after it. -/
  | missingFieldName
  deriving DecidableEq

/-- The wording of a lexical error. -/
def LexicalCause.message : LexicalCause → String
  | .unexpectedChar c => "unexpected character '" ++ String.singleton c ++ "'"
  | .unterminatedString => "unterminated string literal"
  | .missingFieldName => "expected field name after '.'"

/-- A lexical error and the character it is about. -/
structure LexicalError where
  cause : LexicalCause
  position : Position
  deriving DecidableEq

end QueryPipeline
