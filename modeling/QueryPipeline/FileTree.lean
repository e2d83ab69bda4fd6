/-
# File trees

The files and directories of a system from its root down, with the working directory of
a run.  Paths are texts with steps between slashes; a step is a name, `.` for the
directory itself, or `..` for the one above it.  A path that begins with a slash starts
at the root, and any other at the working directory.  There are no links, so that every
file has one location.  Files and directories say what may be done with them.

* `FileTree` : every name stands in a directory.
* `FileTree.locate` : the location that a path names.
* `FileTree.read`, `FileTree.write` : the content of a file.
* `FileTree.createDirectories` : a directory with all that is missing above it.
* `FileTree.names` : what stands in a directory.
-/
import Std.Data.ExtTreeMap

namespace QueryPipeline

/-- Why a file cannot be read or written. -/
inductive FileError where
  | notFound
  | denied
  | alreadyExists
  | notDirectory
  | isDirectory
  | nullInPath
  | notText
  /-- Anything else, in the words of the system. -/
  | other (message : String)
  deriving DecidableEq

/-- The wording of a file error. -/
def FileError.message : FileError → String
  | notFound => "No such file or directory (os error 2)"
  | denied => "Permission denied (os error 13)"
  | alreadyExists => "File exists (os error 17)"
  | notDirectory => "Not a directory (os error 20)"
  | isDirectory => "Is a directory (os error 21)"
  | nullInPath => "file name contained an unexpected NUL byte"
  | notText => "stream did not contain valid UTF-8"
  | other message => message

/-- The text that some bytes encode. -/
def decodeText (bytes : ByteArray) : Except FileError String :=
  match String.fromUTF8? bytes with
  | some text => .ok text
  | none => .error .notText

/-! ## Paths -/

/-- A path below a directory: no slash between them if the directory ends in one or is empty. -/
def joinPath (directory name : String) : String :=
  if directory = "" then name
  else if directory.toList.getLast? = some '/' then directory ++ name
  else directory ++ "/" ++ name

/-- A path, taken apart. -/
structure Route where
  /-- Whether the path starts at the root. -/
  absolute : Bool
  steps : List String
  /-- Whether the path ends in a slash. -/
  slash : Bool

namespace Route

/-- Takes a path apart.  Repeated slashes count as one.  The empty path leads nowhere. -/
def ofPath (path : String) : Except FileError Route :=
  if path = "" then .error .notFound
  else if path.toList.contains '\x00' then .error .nullInPath
  else
    .ok {
      absolute := path.toList.head? = some '/'
      steps := ((path.toList.splitOn '/').filter (· ≠ [])).map String.ofList
      slash := path.toList.getLast? = some '/' }

/-- The way to the directory above. -/
def above (route : Route) : Route :=
  { route with steps := (route.steps.filter (· ≠ ".")).dropLast }

theorem above_length {route : Route} (h : route.steps ≠ []) :
    route.above.steps.length < route.steps.length := by
  have := List.length_filter_le (· ≠ ".") route.steps
  have := List.length_pos_iff.2 h
  simp only [above, List.length_dropLast]
  omega

end Route

/-! ## Trees -/

/-- The characters that names are made of. -/
def isNameChar (c : Char) : Bool :=
  c != '/' && c != '\x00'

/-- A name that can stand in a directory: it is no step to the directory itself or to the one
above. -/
structure IsName (name : String) : Prop where
  chars : name.toList.all isNameChar
  ne_empty : name ≠ ""
  ne_dot : name ≠ "."
  ne_dots : name ≠ ".."

instance (name : String) : Decidable (IsName name) :=
  decidable_of_iff (name.toList.all isNameChar ∧ name ≠ "" ∧ name ≠ "." ∧ name ≠ "..")
    ⟨fun ⟨h₁, h₂, h₃, h₄⟩ => ⟨h₁, h₂, h₃, h₄⟩, fun ⟨h₁, h₂, h₃, h₄⟩ => ⟨h₁, h₂, h₃, h₄⟩⟩

/-- The names from the root down to a file or directory. -/
abbrev Location := List String

/-- What a run may do with a file or directory. -/
structure Access where
  /-- To read the file, or the names in the directory. -/
  read : Bool := true
  /-- To write the file, or to put names in the directory. -/
  write : Bool := true
  /-- To look up names in the directory. -/
  search : Bool := true
  deriving DecidableEq

/-- What stands at a location. -/
inductive Entry where
  | file (bytes : ByteArray) (access : Access := {})
  | directory (access : Access := {})

namespace Entry

def access : Entry → Access
  | file _ access => access
  | directory access => access

def isDirectory : Entry → Bool
  | file .. => false
  | directory _ => true

end Entry

/-- The files and directories of a system, by location.  All of them have names and stand in
directories, and so the root and whatever is above the working directory are directories too. -/
structure FileTree where
  entries : Std.ExtTreeMap Location Entry
  /-- Where a path starts unless it starts at the root. -/
  workingDirectory : Location
  isDirectory_workingDirectory : (entries[workingDirectory]?).any Entry.isDirectory
  isDirectory_parent : ∀ {here name}, here ++ [name] ∈ entries →
    IsName name ∧ (entries[here]?).any Entry.isDirectory

namespace FileTree

/-- What stands at a location. -/
def lookup (t : FileTree) (l : Location) : Option Entry :=
  t.entries[l]?

/-- What may be done with the directory at a location, if there is one. -/
def directoryAt (t : FileTree) (l : Location) : Option Access :=
  match t.lookup l with
  | some (.directory access) => some access
  | _ => none

/-- The bytes of the file at a location, if there is one. -/
def bytesAt (t : FileTree) (l : Location) : Option ByteArray :=
  match t.lookup l with
  | some (.file bytes _) => some bytes
  | _ => none

/-- Nothing but a root. -/
instance : EmptyCollection FileTree where
  emptyCollection := {
    entries := (∅ : Std.ExtTreeMap Location Entry).insert [] .directory
    workingDirectory := []
    isDirectory_workingDirectory := by
      rw [Std.ExtTreeMap.getElem?_insert_self]
      rfl
    isDirectory_parent := by
      intro here name h
      simp at h }

/-- An entry can be put at a location: under a name, in a directory, and unless it is a directory
itself, not in place of one. -/
def admits (t : FileTree) (l : Location) (e : Entry) : Bool :=
  l.getLast?.any (fun name => decide (IsName name)) && (t.directoryAt l.dropLast).isSome &&
    ((t.directoryAt l).isNone || e.isDirectory)

theorem isSome_directoryAt (t : FileTree) (l : Location) :
    (t.directoryAt l).isSome = (t.entries[l]?).any Entry.isDirectory := by
  rw [directoryAt, lookup]
  cases t.entries[l]? with
  | none => rfl
  | some e => cases e <;> rfl

theorem admits_concat {t : FileTree} {here : Location} {name : String} {e : Entry} :
    t.admits (here ++ [name]) e ↔ IsName name ∧ (t.directoryAt here).isSome ∧
      ((t.directoryAt (here ++ [name])).isSome → e.isDirectory) := by
  rw [admits, List.getLast?_concat, List.dropLast_concat, ← Option.not_isSome]
  cases (t.directoryAt (here ++ [name])).isSome <;> simp [and_assoc]

/-- Directories stay if an entry is put where it can be. -/
theorem isDirectory_insert {t : FileTree} {l there : Location} {e : Entry} (h : t.admits l e)
    (hthere : (t.entries[there]?).any Entry.isDirectory) :
    ((t.entries.insert l e)[there]?).any Entry.isDirectory := by
  rw [Std.ExtTreeMap.getElem?_insert]
  split
  next heq =>
    obtain rfl : l = there := by simpa using heq
    rw [← isSome_directoryAt] at hthere
    rw [admits, ← Option.not_isSome, hthere] at h
    simpa using (Bool.and_eq_true_iff.1 h).2
  next => exact hthere

/-- Puts an entry at a location, if it can be there. -/
def put (t : FileTree) (l : Location) (e : Entry) : FileTree :=
  if h : t.admits l e then
    { t with
      entries := t.entries.insert l e
      isDirectory_workingDirectory := isDirectory_insert h t.isDirectory_workingDirectory
      isDirectory_parent := by
        intro here name hmem
        rcases Std.ExtTreeMap.mem_insert.1 hmem with heq | hmem
        · obtain rfl : l = here ++ [name] := by simpa using heq
          obtain ⟨hname, hhere, -⟩ := admits_concat.1 h
          rw [isSome_directoryAt] at hhere
          exact ⟨hname, isDirectory_insert h hhere⟩
        · obtain ⟨hname, hhere⟩ := t.isDirectory_parent hmem
          exact ⟨hname, isDirectory_insert h hhere⟩ }
  else t

/-- Where a path starts. -/
def start (t : FileTree) (route : Route) : Location :=
  if route.absolute then [] else t.workingDirectory

/-- The location that a step out of a directory names, whether or not anything is there. -/
def next (t : FileTree) (here : Location) (step : String) : Except FileError Location :=
  if (t.directoryAt here).any Access.search then
    .ok (if step = "." then here else if step = ".." then here.dropLast else here ++ [step])
  else .error .denied

/-- Takes a step into a directory. -/
def enter (t : FileTree) (here : Location) (step : String) : Except FileError Location := do
  let there ← t.next here step
  match t.lookup there with
  | none => .error .notFound
  | some (.file ..) => .error .notDirectory
  | some (.directory _) => return there

/-- Follows some steps from a directory.  Every step leads to a directory. -/
def walk (t : FileTree) (here : Location) (steps : List String) : Except FileError Location :=
  steps.foldlM t.enter here

/-- The location that a path names, whether or not anything is there. -/
def locate (t : FileTree) (route : Route) : Except FileError Location :=
  match route.steps.getLast? with
  | none => .ok (t.start route)
  | some last => do
    let here ← t.walk (t.start route) route.steps.dropLast
    t.next here last

/-- The location that a path names, and whether the path ends in a slash. -/
def resolve (t : FileTree) (path : String) : Except FileError (Location × Bool) := do
  let route ← Route.ofPath path
  return (← t.locate route, route.slash)

/-! ## Files -/

/-- What is read at a location. -/
def contentAt (t : FileTree) (l : Location) : Except FileError ByteArray :=
  match t.lookup l with
  | none => .error .notFound
  | some (.directory access) => .error (if access.read then .isDirectory else .denied)
  | some (.file bytes access) => if access.read then .ok bytes else .error .denied

/-- The content of a file. -/
def read (t : FileTree) (path : String) : Except FileError ByteArray := do
  let (there, slash) ← t.resolve path
  if slash && (t.bytesAt there).isSome then .error .notDirectory else t.contentAt there

/-- The text of a file. -/
def text (t : FileTree) (path : String) : Except FileError String :=
  t.read path >>= decodeText

/-- Something may be written at a location: in place of what is there, or under a new name in the
directory. -/
def mayWrite (t : FileTree) (l : Location) : Bool :=
  match t.lookup l with
  | some e => e.access.write
  | none => (t.directoryAt l.dropLast).any Access.write

/-- The location, if a file can be written there. -/
def writableAt (t : FileTree) (l : Location) : Except FileError Location :=
  if (t.directoryAt l).isSome then .error .isDirectory
  else if t.mayWrite l then .ok l
  else .error .denied

/-- The location that can be written by a path. -/
def writable (t : FileTree) (path : String) : Except FileError Location := do
  let (there, slash) ← t.resolve path
  if slash then .error .isDirectory else t.writableAt there

/-- What may be done with what stands at a location.  Where nothing is, all may be done with what will
be there. -/
def accessAt (t : FileTree) (l : Location) : Access :=
  match t.lookup l with
  | none => {}
  | some e => e.access

/-- Writes a text to a file, which need not be there. -/
def write (t : FileTree) (path text : String) : Except FileError FileTree := do
  let there ← t.writable path
  return t.put there (.file text.toUTF8 (t.accessAt there))

/-! ## Directories -/

/-- A path leads to a directory. -/
def isDirectory (t : FileTree) (route : Route) : Bool :=
  match t.locate route with
  | .error _ => false
  | .ok there => (t.directoryAt there).isSome

/-- Makes a directory in one that is there. -/
def makeDirectory (t : FileTree) (route : Route) : Except FileError FileTree := do
  let there ← t.locate route
  if (t.lookup there).isSome then .error .alreadyExists
  else if t.mayWrite there then return t.put there .directory
  else .error .denied

/-- Makes a directory; one that is already there will do. -/
def ensureDirectory (t : FileTree) (route : Route) : FileTree × Except FileError Unit :=
  match t.makeDirectory route with
  | .ok t' => (t', .ok ())
  | .error e => (t, if t.isDirectory route then .ok () else .error e)

/-- Makes a directory, and first those above it that are missing.  What has been made stays, also if
a later step fails. -/
def createDirectories (t : FileTree) (route : Route) : FileTree × Except FileError Unit :=
  if h : route.steps = [] then (t, .ok ())
  else
    match t.makeDirectory route with
    | .error .notFound =>
      have := Route.above_length h
      match createDirectories t route.above with
      | (t', .error e) => (t', .error e)
      | (t', .ok ()) => t'.ensureDirectory route
    | _ => t.ensureDirectory route
termination_by route.steps.length

/-- Takes a step into a directory in a search for names.  A step that could be taken for a pattern is
not looked up but picked out among the names around it, which have to be read. -/
def seek (t : FileTree) (here : Location) (step : String) : Except FileError Location :=
  if step.toList.any "*?[]".toList.contains && !(t.directoryAt here).any Access.read then
    .error .denied
  else t.enter here step

/-- The location of a directory whose names may be read. -/
def find (t : FileTree) (path : String) : Except FileError Location := do
  let route ← Route.ofPath path
  let here ← route.steps.foldlM t.seek (t.start route)
  if (t.directoryAt here).any Access.read then return here else .error .denied

/-- The names in a directory, in order; none if there is no such directory. -/
def names (t : FileTree) (path : String) : List String :=
  match t.find path with
  | .error _ => []
  | .ok here => t.entries.keys.filterMap fun l => if l.dropLast = here then l.getLast? else none

end FileTree

end QueryPipeline
