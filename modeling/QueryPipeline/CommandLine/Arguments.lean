/-
# Arguments

Reading the arguments of a command line.  Options have a long name and perhaps a
letter; some take a value, which follows in the same argument or in the next one.
Letters may be joined in one argument.  After `--` there are no more options.

Arguments are checked one by one, in order.  So the first that makes no sense
decides, and an option that asks for information is heeded if all is well before it.
-/

namespace QueryPipeline

/-- Why a command line makes no sense. -/
inductive UsageError where
  | unknownOption (text : String)
  | repeated (name : String)
  | missingValue (name : String)
  | unexpectedValue (name : String)
  | surplus (text : String)
  | missing (what : String)
  | emptyPath (name : String)
  | unknownSubcommand (name : String)
  deriving DecidableEq

/-- The wording of a usage error. -/
def UsageError.message : UsageError → String
  | unknownOption text => "unknown option '" ++ text ++ "'"
  | repeated name => "the option '--" ++ name ++ "' is given more than once"
  | missingValue name => "the option '--" ++ name ++ "' needs a value"
  | unexpectedValue name => "the option '--" ++ name ++ "' takes no value"
  | surplus text => "unexpected argument '" ++ text ++ "'"
  | missing what => "missing " ++ what
  | emptyPath name => "the path for '" ++ name ++ "' is empty"
  | unknownSubcommand name => "unknown subcommand '" ++ name ++ "'"

namespace Arguments

/-- How an option is used. -/
inductive Usage where
  /-- It is there or not. -/
  | flag
  /-- It takes a path, which must not be empty. -/
  | path
  /-- It asks for information and ends the reading. -/
  | information
  deriving DecidableEq

/-- An option that a command line may have. -/
structure OptionSpec where
  name : String
  letter : Option Char := none
  usage : Usage

/-- An argument that is told by its place. -/
inductive Positional where
  /-- A path, which must not be empty. -/
  | path (name : String)
  /-- Any text. -/
  | text (name : String)
  deriving DecidableEq

/-- The arguments that a command line may have. -/
structure Signature where
  options : List OptionSpec
  positionals : List Positional := []

/-- The options and other arguments read so far. -/
structure Given where
  flags : List String := []
  values : List (String × String) := []
  positionals : List String := []

namespace Given

/-- A flag is set. -/
def has (g : Given) (name : String) : Bool :=
  g.flags.contains name

/-- The value of an option. -/
def value? (g : Given) (name : String) : Option String :=
  g.values.lookup name

/-- Sets a flag, once. -/
def setFlag (g : Given) (name : String) : Except UsageError Given :=
  if g.has name then .error (.repeated name) else .ok { g with flags := name :: g.flags }

/-- Sets the value of an option, once. -/
def setValue (g : Given) (name value : String) : Except UsageError Given :=
  if (g.value? name).isSome then .error (.repeated name)
  else if value = "" then .error (.emptyPath name)
  else .ok { g with values := (name, value) :: g.values }

/-- Adds an argument that is no option, in the first place that is free. -/
def addPositional (s : Signature) (g : Given) (text : String) : Except UsageError Given :=
  match s.positionals[g.positionals.length]? with
  | none => .error (.surplus text)
  | some (.path name) =>
    if text = "" then .error (.emptyPath name)
    else .ok { g with positionals := g.positionals ++ [text] }
  | some (.text _) => .ok { g with positionals := g.positionals ++ [text] }

end Given

/-- What an argument leads to. -/
inductive Progress where
  /-- Reading goes on. -/
  | more (g : Given)
  /-- The next argument is the value of an option. -/
  | pending (g : Given) (name : String)
  /-- Information is asked for. -/
  | information (name : String)

/-- Reads an option by its long name, with the value in the same argument if there is one. -/
def readLong (specs : List OptionSpec) (g : Given) (text : String) (name : List Char)
    (value : Option String) : Except UsageError Progress :=
  match specs.find? fun s => s.name.toList == name with
  | none => .error (.unknownOption text)
  | some spec =>
    match spec.usage, value with
    | .flag, none => (g.setFlag spec.name).map .more
    | .path, some value => (g.setValue spec.name value).map .more
    | .path, none => .ok (.pending g spec.name)
    | .information, none => .ok (.information spec.name)
    | _, some _ => .error (.unexpectedValue spec.name)

/-- Reads an argument behind two hyphens: a name, or a name, an equals sign and a value. -/
def readLongText (specs : List OptionSpec) (g : Given) (text : String) (cs : List Char) :
    Except UsageError Progress :=
  let name := cs.takeWhile (· != '=')
  match cs.dropWhile (· != '=') with
  | [] => readLong specs g text name none
  | _ :: value => readLong specs g text name (some (String.ofList value))

/-- Reads joined letters.  The first that takes a value takes the rest, without an equals sign in
front. -/
def readLetters (specs : List OptionSpec) (g : Given) (text : String) :
    List Char → Except UsageError Progress
  | [] => .ok (.more g)
  | c :: rest =>
    match specs.find? fun s => s.letter == some c with
    | none => .error (.unknownOption text)
    | some spec =>
      match spec.usage with
      | .flag =>
        match g.setFlag spec.name with
        | .error e => .error e
        | .ok g => readLetters specs g text rest
      | .information => .ok (.information spec.name)
      | .path =>
        match rest with
        | [] => .ok (.pending g spec.name)
        | '=' :: value => (g.setValue spec.name (String.ofList value)).map .more
        | value => (g.setValue spec.name (String.ofList value)).map .more

/-- An argument that looks like an option.  A hyphen alone does not. -/
def looksLikeOption (text : String) : Bool :=
  match text.toList with
  | '-' :: _ :: _ => true
  | _ => false

/-- Reads an argument that looks like an option. -/
def readOption (specs : List OptionSpec) (g : Given) (text : String) : Except UsageError Progress :=
  match text.toList with
  | '-' :: '-' :: cs => readLongText specs g text cs
  | '-' :: cs => readLetters specs g text cs
  | _ => .error (.unknownOption text)

/-- What some arguments amount to. -/
inductive Outcome where
  | given (g : Given)
  /-- A subcommand and its arguments follow. -/
  | subcommand (g : Given) (name : String) (rest : List String)
  | information (name : String)

/-- Reads some arguments.  With `subcommands`, the first argument that is no option names a
subcommand, and the rest is for it. -/
def readAll (s : Signature) (subcommands : Bool) (g : Given) :
    List String → Except UsageError Outcome
  | [] => .ok (.given g)
  | text :: rest =>
    if text = "--" then (rest.foldlM (Given.addPositional s) g).map .given
    else if looksLikeOption text then
      match readOption s.options g text with
      | .error e => .error e
      | .ok (.information name) => .ok (.information name)
      | .ok (.more g) => readAll s subcommands g rest
      | .ok (.pending g name) =>
        match rest with
        | [] => .error (.missingValue name)
        | value :: rest =>
          if looksLikeOption value then .error (.missingValue name)
          else
            match g.setValue name value with
            | .error e => .error e
            | .ok g => readAll s subcommands g rest
    else if subcommands then .ok (.subcommand g text rest)
    else
      match g.addPositional s text with
      | .error e => .error e
      | .ok g => readAll s subcommands g rest

end Arguments

end QueryPipeline
