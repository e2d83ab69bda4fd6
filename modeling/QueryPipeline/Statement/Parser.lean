/-
# Parsing

The grammar of a program:

    program   = statement*
    statement = LOAD string | FILTER value operator value
              | SELECT path (, path)* | SAVE AS string
    value     = string | number | path

The parser is a machine that reads one lexeme after the other.  Its state says how
much of a statement has been read; each lexeme yields the events it decides: a
statement is complete, or something is wrong.  After a token that does not fit,
the machine skips to the next keyword that opens a statement, which may be that
very token.

* `Parser.step` : the machine.
* `parse` : the statements of a text, or all its errors in reading order.
-/
import QueryPipeline.Statement
import QueryPipeline.Token.Lexer

namespace QueryPipeline

/-- What the grammar asks for at some point of a program. -/
inductive Expectation where
  | keyword
  | loadPath
  | value
  | comparison
  | field
  | asWord
  | savePath
  deriving DecidableEq

/-- An expectation in words. -/
def Expectation.text : Expectation → String
  | keyword => "LOAD, FILTER, SELECT or SAVE"
  | loadPath => "string literal after LOAD"
  | value => "a string, number or field path"
  | comparison => "a comparison operator"
  | field => "a field path"
  | asWord => "'AS' after SAVE"
  | savePath => "string literal after SAVE AS"

/-- What can be wrong with a program's form. -/
inductive FaultCause where
  | lexical (cause : LexicalCause)
  | unexpected (expected : Expectation) (found : Token)
  deriving DecidableEq

/-- The wording of a cause. -/
def FaultCause.message : FaultCause → String
  | lexical cause => cause.message
  | unexpected expected found => "expected " ++ expected.text ++ ", found " ++ found.describe

/-- A message about a place in a program, on one line. -/
def Position.note (p : Position) (message : String) : String :=
  "Line " ++ p.text ++ " - " ++ message

/-- Something wrong with a program's form, and where. -/
structure Fault where
  position : Position
  cause : FaultCause
  deriving DecidableEq

namespace Fault

/-- The wording of an error, without its place. -/
def message (e : Fault) : String :=
  e.cause.message

/-- An error with its place. -/
def display (e : Fault) : String :=
  e.position.note e.message

end Fault

/-- The value that a token is, if it is one. -/
def Token.value? : Token → Option Value
  | string text => some (.string text)
  | number text => some (.number text)
  | path text => some (.path text)
  | _ => none

namespace Parser

/-- A clause of which some words are still to come. -/
inductive Draft where
  | load
  | filter
  | filterLeft (left : Value)
  | filterOp (left : Value) (op : Comparison)
  /-- A field is due, after those already listed. -/
  | select (fields : List String)
  | save
  | saveAs
  deriving DecidableEq

/-- The draft that a keyword opens. -/
def Draft.open? : Token → Option Draft
  | .load => some .load
  | .filter => some .filter
  | .select => some (.select [])
  | .save => some .save
  | _ => none

/-- What a draft is waiting for. -/
def Draft.expects : Draft → Expectation
  | load => .loadPath
  | filter => .value
  | filterLeft _ => .comparison
  | filterOp _ _ => .value
  | select _ => .field
  | save => .asWord
  | saveAs => .savePath

/-- How far a statement has been read. -/
inductive State where
  /-- Between two statements. -/
  | ready
  /-- After an error, before the next keyword. -/
  | skipping
  /-- Inside a statement that opened on `line`. -/
  | drafting (line : Nat) (draft : Draft)
  /-- After the last field so far of a SELECT; a comma announces another. -/
  | listing (line : Nat) (fields : List String)
  deriving DecidableEq

/-- What reading a lexeme settles. -/
inductive Event where
  | statement (s : Statement)
  | fault (e : Fault)
  deriving DecidableEq

/-- The error that a token stands where something else is expected. -/
def unexpected (expected : Expectation) (found : Token) (p : Position) : Event :=
  .fault ⟨p, .unexpected expected found⟩

/-- Carries on after an error: the token at fault opens a statement, or is passed over. -/
def resume (t : Token) (p : Position) : State :=
  match Draft.open? t with
  | some draft => .drafting p.line draft
  | none => .skipping

/-- Reads a token between two statements. -/
def stepReady (t : Token) (p : Position) : List Event × State :=
  match Draft.open? t with
  | some draft => ([], .drafting p.line draft)
  | none => if t = .eof then ([], .ready) else ([unexpected .keyword t p], .skipping)

/-- The state after a draft and a token that fits it; `none` if the token does not fit. -/
def Draft.extend? (line : Nat) (draft : Draft) (t : Token) : Option (List Event × State) :=
  match draft, t with
  | .load, .string path => some ([.statement ⟨line, .load path⟩], .ready)
  | .filter, t => t.value?.map fun left => ([], .drafting line (.filterLeft left))
  | .filterLeft left, .operator op => some ([], .drafting line (.filterOp left op))
  | .filterOp left op, t =>
    t.value?.map fun right => ([.statement ⟨line, .filter left op right⟩], .ready)
  | .select fields, .path path => some ([], .listing line (fields ++ [path]))
  | .save, .asWord => some ([], .drafting line .saveAs)
  | .saveAs, .string path => some ([.statement ⟨line, .save path⟩], .ready)
  | _, _ => none

/-- Reads a token inside a statement. -/
def stepDraft (line : Nat) (draft : Draft) (t : Token) (p : Position) : List Event × State :=
  match draft.extend? line t with
  | some next => next
  | none => ([unexpected draft.expects t p], resume t p)

/-- Reads a token after a field of a SELECT: without a comma the statement is complete, and the
token belongs to what follows. -/
def stepListing (line : Nat) (fields : List String) (t : Token) (p : Position) : List Event × State :=
  match t with
  | .comma => ([], .drafting line (.select fields))
  | t => (.statement ⟨line, .select fields⟩ :: (stepReady t p).1, (stepReady t p).2)

/-- Reads a token. -/
def step (s : State) (t : Token) (p : Position) : List Event × State :=
  match s with
  | .ready => stepReady t p
  | .skipping => ([], resume t p)
  | .drafting line draft => stepDraft line draft t p
  | .listing line fields => stepListing line fields t p

/-- What reading some lexemes settles, from a given state on.  A lexical error is noted when it is
passed; it does not disturb the statement around it. -/
def events (s : State) : List Lexeme → List Event
  | [] => []
  | ⟨.error e, _⟩ :: rest => .fault ⟨e.position, .lexical e.cause⟩ :: events s rest
  | ⟨.ok t, p⟩ :: rest => (step s t p).1 ++ events (step s t p).2 rest

/-- The statement of an event. -/
def Event.statement? : Event → Option Statement
  | statement s => some s
  | fault _ => none

/-- The error of an event. -/
def Event.fault? : Event → Option Fault
  | statement _ => none
  | fault e => some e

end Parser

/-- The errors of some lexemes, in the order in which they are noticed. -/
def faults (lexemes : List Lexeme) : List Fault :=
  (Parser.events .ready lexemes).filterMap Parser.Event.fault?

/-- The statements of some lexemes. -/
def statements (lexemes : List Lexeme) : List Statement :=
  (Parser.events .ready lexemes).filterMap Parser.Event.statement?

/-- The program that some lexemes form, or all that is wrong with them, in reading order. -/
def parseLexemes (lexemes : List Lexeme) : Except (List Fault) (List Statement) :=
  match faults lexemes with
  | [] => .ok (statements lexemes)
  | errors => .error (errors.mergeSort fun a b => a.position.le b.position)

/-- The program that a text holds, or all that is wrong with it, in reading order. -/
def parse (source : String) : Except (List Fault) (List Statement) :=
  parseLexemes (Cursor.ofString source).lexemes

end QueryPipeline
