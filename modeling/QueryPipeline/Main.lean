/-
# The program

The command line with the system itself as its host.
-/
import Std.Time
import QueryPipeline.CommandLine

namespace QueryPipeline

/-- What a run has to remember. -/
structure Settings where
  verbose : IO.Ref Bool
  /-- The clock at the start, in milliseconds. -/
  start : Nat

/-- Runs on the system itself. -/
abbrev Console := ReaderT Settings IO

/-- An error of the system. -/
def FileError.ofSystem : IO.Error → FileError
  | .noFileOrDirectory .. => .notFound
  | .permissionDenied _ code message => if code = 13 then .denied else .other message
  | .alreadyExists .. => .alreadyExists
  | .inappropriateType _ code message =>
    if code = 20 then .notDirectory else if code = 21 then .isDirectory else .other message
  | e => .other (toString e)

/-- The result of an action on files. -/
def attempt {α : Type} (action : IO α) : Console (Except FileError α) := do
  match ← action.toBaseIO with
  | .ok a => return .ok a
  | .error e => return .error (.ofSystem e)

/-- The current date and time of day. -/
def currentDate : IO String := do
  return (← Std.Time.PlainDateTime.now).format "uuuu-MM-dd HH:mm:ss"

/-- Some bytes and everything that a stream still has. -/
partial def readToEnd (stream : IO.FS.Stream) (bytes : ByteArray) : IO ByteArray := do
  let chunk ← stream.read 65536
  if chunk.isEmpty then return bytes else readToEnd stream (bytes ++ chunk)

instance : Host Console where
  read path := attempt (IO.FS.readBinFile path)
  write path text := attempt (IO.FS.writeFile path text)
  createDirectories path := attempt (if path = "" then pure () else IO.FS.createDirAll path)
  names path := do
    match ← attempt (do (← IO.FS.realPath path).readDir) with
    | .ok entries => return entries.toList.map fun entry => entry.fileName
    | .error _ => return []
  input := do
    let stdin ← IO.getStdin
    if ← stdin.isTty then return none else return some (← readToEnd stdin .empty)
  print text := do (← IO.getStdout).putStr text
  complain text := do (← IO.getStderr).putStr text
  setVerbose verbose := do (← read).verbose.set verbose
  log e := do
    if ← (← read).verbose.get then
      (← IO.getStderr).putStr (e.line (← currentDate))
  date := currentDate
  elapsed := do return toString ((← IO.monoMsNow) - (← read).start)

end QueryPipeline

def main (arguments : List String) : IO UInt32 := do
  let settings : QueryPipeline.Settings := ⟨← IO.mkRef false, ← IO.monoMsNow⟩
  let run : QueryPipeline.Console Nat := QueryPipeline.CommandLine.execute arguments
  return (← run.run settings).toUInt32
