/-
# Quoted text in messages

A text shown in double quotes inside a message.  Quotes, backslashes and the usual
control characters have short escapes; other characters that would not show, and
marks that would combine with the character before them, are written by their
code point.
-/
import QueryPipeline.Text.Combining
import QueryPipeline.Text.Invisible

namespace QueryPipeline.Text

/-- A character inside a quoted text. -/
def quotedChar (c : Char) : List Char :=
  match c with
  | '\x00' => ['\\', '0']
  | '\t' => ['\\', 't']
  | '\r' => ['\\', 'r']
  | '\n' => ['\\', 'n']
  | '\\' => ['\\', '\\']
  | '"' => ['\\', '"']
  | c =>
    if isCombining c || isInvisible c then
      '\\' :: 'u' :: '\x7b' :: (Nat.toDigits 16 c.toNat ++ ['\x7d'])
    else [c]

/-- A text in double quotes. -/
def quoted (cs : List Char) : String :=
  String.ofList ('"' :: cs.flatMap quotedChar ++ ['"'])

end QueryPipeline.Text
