/-
# Invocations

The subcommands of the command line and their options.

* `Invocation.ofArguments` : what a command line asks for.
-/
import QueryPipeline.CommandLine.Arguments

namespace QueryPipeline

/-- What a command line asks for. -/
inductive Invocation where
  /-- Compile a program from a file, or from the standard input. -/
  | compile (file output schema : Option String) (strict formOnly : Bool)
  /-- Run a directory of programs. -/
  | batch (programs expected results : String) (schema : Option String) (strict : Bool)
  /-- Show the field types. -/
  | schema (schema : Option String)
  /-- Show the overview of the manual. -/
  | docs
  /-- Show a page of the manual. -/
  | doc (topic : String)
  deriving DecidableEq

/-- A whole command line. -/
inductive CommandLine where
  | run (verbose : Bool) (invocation : Invocation)
  | version
  | help
  deriving DecidableEq

namespace Invocation

open Arguments

/-- Notes on the progress. -/
def verbose : OptionSpec := ⟨"verbose", some 'v', .flag⟩

/-- How to call the program. -/
def help : OptionSpec := ⟨"help", some 'h', .information⟩

/-- The version of the program. -/
def version : OptionSpec := ⟨"version", some 'V', .information⟩

/-- A descriptor file. -/
def schemaOption : OptionSpec := ⟨"schema", some 's', .path⟩

/-- Strict order. -/
def strictFlag : OptionSpec := ⟨"strict", none, .flag⟩

/-- The arguments before a subcommand. -/
def globalSignature : Signature :=
  ⟨[verbose, help, version], []⟩

/-- The arguments of `compile`. -/
def compileSignature : Signature :=
  ⟨[verbose, help, ⟨"output", some 'o', .path⟩, schemaOption, strictFlag, ⟨"syntax-only", none, .flag⟩],
    [.path "file"]⟩

/-- The arguments of `batch`. -/
def batchSignature : Signature :=
  ⟨[verbose, help, ⟨"programs", none, .path⟩, ⟨"expected", none, .path⟩, ⟨"results", none, .path⟩,
    schemaOption, strictFlag], []⟩

/-- The arguments of `schema`. -/
def schemaSignature : Signature :=
  ⟨[verbose, help, schemaOption], []⟩

/-- The arguments of `docs`. -/
def docsSignature : Signature :=
  ⟨[verbose, help], []⟩

/-- The arguments of `doc`. -/
def docSignature : Signature :=
  ⟨[verbose, help], [.text "topic"]⟩

/-- The subcommand `compile`. -/
def ofCompile (g : Given) : Except UsageError Invocation :=
  .ok (compile g.positionals.head? (g.value? "output") (g.value? "schema") (g.has "strict")
    (g.has "syntax-only"))

/-- The subcommand `batch`. -/
def ofBatch (g : Given) : Except UsageError Invocation :=
  .ok (batch ((g.value? "programs").getD "tests/programs") ((g.value? "expected").getD "tests/expected")
    ((g.value? "results").getD "target/test-results") (g.value? "schema") (g.has "strict"))

/-- The subcommand `schema`. -/
def ofSchema (g : Given) : Except UsageError Invocation :=
  .ok (schema (g.value? "schema"))

/-- The subcommand `docs`. -/
def ofDocs (_ : Given) : Except UsageError Invocation :=
  .ok docs

/-- The subcommand `doc`, which needs a topic. -/
def ofDoc (g : Given) : Except UsageError Invocation :=
  match g.positionals with
  | [] => .error (.missing "topic")
  | topic :: _ => .ok (doc topic)

/-- A subcommand: the arguments it may have and what it makes of them. -/
structure Subcommand where
  signature : Signature
  invocation : Given → Except UsageError Invocation

/-- The subcommands, by name. -/
def subcommands : List (String × Subcommand) := [
  ("compile", ⟨compileSignature, ofCompile⟩),
  ("batch", ⟨batchSignature, ofBatch⟩),
  ("schema", ⟨schemaSignature, ofSchema⟩),
  ("docs", ⟨docsSignature, ofDocs⟩),
  ("doc", ⟨docSignature, ofDoc⟩)]

/-- What a subcommand makes of its arguments, when `before` was read in front of it. -/
def ofSubcommand (s : Subcommand) (before : Given) (arguments : List String) :
    Except UsageError CommandLine :=
  match readAll s.signature false {} arguments with
  | .error e => .error e
  | .ok (.information _) => .ok .help
  | .ok (.subcommand _ name _) => .error (.surplus name)
  | .ok (.given g) => (s.invocation g).map (.run (before.has "verbose" || g.has "verbose"))

/-- The subcommand `help`: it stands alone or before the name of one subcommand. -/
def ofHelp : List String → Except UsageError CommandLine
  | [] => .ok .help
  | name :: rest =>
    if name ≠ "help" ∧ (subcommands.lookup name).isNone then .error (.unknownSubcommand name)
    else
      match rest with
      | [] => .ok .help
      | surplus :: _ => .error (.unknownSubcommand surplus)

/-- What a command line asks for. -/
def ofArguments (arguments : List String) : Except UsageError CommandLine :=
  match readAll globalSignature true {} arguments with
  | .error e => .error e
  | .ok (.information name) => .ok (if name = version.name then .version else .help)
  | .ok (.given _) => .error (.missing "subcommand")
  | .ok (.subcommand before name rest) =>
    match subcommands.lookup name with
    | some s => ofSubcommand s before rest
    | none => if name = "help" then ofHelp rest else .error (.unknownSubcommand name)

end Invocation

end QueryPipeline
