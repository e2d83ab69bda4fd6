/-
# Terminal control

A text that is meant for a terminal may hold control characters and control
sequences.  Where no terminal reads it they are left out, and the text that a
reader would see stays.

A sequence begins with an escape character.  What follows says how it ends: a
control sequence with a letter, a command with a bell, a device string or another
string with the byte `0x9C`.  Two control characters cancel any sequence, and an
escape character begins a new one.  A blank inside an escape or a control sequence
is shown and interrupts it: text is shown up to the next control character, and
there the sequence goes on, unless a character beyond ASCII was among the text.

* `Sequence.next`, `Sequence.shows` : the machine that reads sequences.
* `plain` : a text without control.
-/

namespace QueryPipeline.Terminal

/-- The sequence that is being read, up to what decides how it goes on. -/
inductive Sequence where
  /-- No sequence. -/
  | none
  /-- After the escape character. -/
  | escape
  /-- After the intermediate characters of an escape sequence. -/
  | intermediate
  /-- In a control sequence. -/
  | control
  /-- In a command to the operating system. -/
  | command
  /-- At the start of a device string. -/
  | device
  /-- In the parameters of a device string. -/
  | deviceParameters
  /-- In the intermediate characters of a device string. -/
  | deviceIntermediate
  /-- In a string of which nothing matters but its end. -/
  | string
  deriving DecidableEq

/-- The code point lies between two others. -/
def between (low high : Nat) (c : Char) : Bool :=
  low ≤ c.toNat && c.toNat ≤ high

/-- Tabulator, line feed, form feed and carriage return: control characters that are shown. -/
def isBlankControl (c : Char) : Bool :=
  c == '\t' || c == '\n' || c == '\x0c' || c == '\r'

/-- A character that is shown outside of sequences. -/
def isShown (c : Char) : Bool :=
  between 0x20 0x7E c || 0x80 ≤ c.toNat || isBlankControl c

/-- A string ends with the byte `0x9C`, be it inside the encoding of a character. -/
def endsString (c : Char) : Bool :=
  (String.utf8EncodeChar c).contains 0x9C

namespace Sequence

/-- The sequence after an escape character and one more character. -/
def afterEscape (c : Char) : Sequence :=
  if c == '[' then control
  else if c == ']' then command
  else if c == 'P' then device
  else if c == 'X' || c == '^' || c == '_' then string
  else if between 0x20 0x2F c then intermediate
  else if between 0x30 0x7E c then none
  else escape

/-- The sequence after one more character that does not cancel it. -/
def advance (s : Sequence) (c : Char) : Sequence :=
  match s with
  | none => none
  | escape => afterEscape c
  | intermediate => if between 0x30 0x7E c then none else intermediate
  | control => if between 0x40 0x7E c then none else control
  | command => if c == '\x07' then none else command
  | device =>
    if between 0x20 0x2F c then deviceIntermediate
    else if between 0x30 0x3F c then deviceParameters
    else if between 0x40 0x7E c then string
    else device
  | deviceParameters =>
    if between 0x20 0x2F c then deviceIntermediate
    else if between 0x3C 0x7E c then string
    else deviceParameters
  | deviceIntermediate => if between 0x30 0x7E c then string else deviceIntermediate
  | string => if endsString c then none else string

/-- The sequence after one more character. -/
def next (s : Sequence) (c : Char) : Sequence :=
  if c == '\x1b' then escape
  else if c == '\x18' || c == '\x1a' then none
  else s.advance c

/-- Whether a character is shown when it comes inside a sequence. -/
def shows : Sequence → Char → Bool
  | none, c => isShown c
  | escape, c | intermediate, c | control, c => isBlankControl c
  | _, _ => false

end Sequence

/-- A text without control, after a sequence of which some has been read.  The sequence may be
interrupted. -/
def plainFrom (s : Sequence) (interrupted : Bool) : List Char → List Char
  | [] => []
  | c :: cs =>
    if interrupted && isShown c then
      c :: plainFrom (if c.toNat < 0x80 then s else .none) true cs
    else if s.shows c then c :: plainFrom s true cs
    else plainFrom (s.next c) false cs

/-- A text without control characters and control sequences. -/
def plain (text : String) : String :=
  String.ofList (plainFrom .none false text.toList)

end QueryPipeline.Terminal
