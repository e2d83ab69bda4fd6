/-
# The host of a run

What a run asks of the system around it: files, the standard streams, a log and a
clock.  Programs are written for any host.  A `World` is a host that is a plain
value; the running program has the system itself.
-/
import QueryPipeline.Compilation.Trace
import QueryPipeline.FileTree

namespace QueryPipeline

/-- The system around a run. -/
class Host (m : Type → Type) where
  /-- The content of a file. -/
  read : String → m (Except FileError ByteArray)
  /-- Writes a text to a file. -/
  write : String → String → m (Except FileError Unit)
  /-- Makes a directory and what is missing above it. -/
  createDirectories : String → m (Except FileError Unit)
  /-- The names in a directory; none if there is no such directory. -/
  names : String → m (List String)
  /-- All of the standard input; nothing if a person would have to type it. -/
  input : m (Option ByteArray)
  /-- Writes to the standard output. -/
  print : String → m Unit
  /-- Writes to the standard error. -/
  complain : String → m Unit
  /-- Whether notes on the progress are wanted. -/
  setVerbose : Bool → m Unit
  /-- Notes the progress, if that is wanted. -/
  log : LogEntry → m Unit
  /-- The date and the time of day, as text. -/
  date : m String
  /-- The milliseconds since the start, as text. -/
  elapsed : m String

/-- A host that is a plain value. -/
structure World where
  files : FileTree := ∅
  input : Option ByteArray := none
  output : String := ""
  errors : String := ""
  verbose : Bool := false
  /-- The readings of the clock. -/
  date : String := ""
  time : String := ""
  elapsed : String := ""

namespace World

/-- Writes a text to a file. -/
def write (w : World) (path text : String) : Except FileError Unit × World :=
  match w.files.write path text with
  | .error e => (.error e, w)
  | .ok files => (.ok (), { w with files := files })

/-- Makes a directory and what is missing above it.  The empty path names no directory, and there is
nothing to make. -/
def createDirectories (w : World) (path : String) : Except FileError Unit × World :=
  if path = "" then (.ok (), w)
  else
    match Route.ofPath path with
    | .error e => (.error e, w)
    | .ok route =>
      match w.files.createDirectories route with
      | (files, result) => (result, { w with files := files })

/-- Notes the progress, if that is wanted. -/
def log (w : World) (e : LogEntry) : World :=
  if w.verbose then { w with errors := w.errors ++ e.line w.time } else w

end World

instance : Host (StateM World) where
  read path := fun w => (w.files.read path, w)
  write path text := fun w => w.write path text
  createDirectories path := fun w => w.createDirectories path
  names path := fun w => (w.files.names path, w)
  input := fun w => (w.input, w)
  print text := fun w => ((), { w with output := w.output ++ text })
  complain text := fun w => ((), { w with errors := w.errors ++ text })
  setVerbose verbose := fun w => ((), { w with verbose := verbose })
  log e := fun w => ((), w.log e)
  date := fun w => (w.date, w)
  elapsed := fun w => (w.elapsed, w)

namespace Host

variable {m : Type → Type} [Monad m] [Host m]

/-- The text of a file. -/
def readText (path : String) : m (Except FileError String) := do
  return (← read path) >>= decodeText

/-- Makes some notes. -/
def logAll : List LogEntry → m PUnit
  | [] => pure ⟨⟩
  | e :: rest => do
    log e
    logAll rest

end Host

end QueryPipeline
