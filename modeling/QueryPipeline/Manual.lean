/-
# The manual

The built-in documentation: an overview and a page on each topic.  Topics have
several names, which may be written in capitals and with hyphens.
-/

namespace QueryPipeline.Manual

/-- A text of some lines, each ended by a line feed. -/
def page (lines : List String) : String :=
  String.join (lines.map fun line => line ++ "\n")

/-- The list of topics, with a summary of the language. -/
def overview : String := page [
  "MINIQUERY DOCUMENTATION",
  "",
  "MiniQuery is a pipeline language for loading JSON records, filtering them,",
  "reshaping them, and saving the result. Programs compile to a Node.js script.",
  "",
  "DOCUMENTATION TOPICS",
  "",
  "  commands          LOAD, FILTER, SELECT and SAVE AS",
  "  paths             Field paths and how nested access is compiled",
  "  types             Declared field types and the checks FILTER is subject to",
  "  output            Shape of the generated JavaScript",
  "",
  "QUICK REFERENCE",
  "",
  "  LOAD \"in.json\"               Read a JSON array",
  "  FILTER .idade > 18           Keep matching records",
  "  SELECT .nome, .cliente.idade Keep only these fields",
  "  SAVE AS \"out.json\"           Write the current dataset",
  "",
  "Run 'miniquery doc <topic>' for detailed documentation."]

/-- The page on the four stages. -/
def commandsPage : String := page [
  "COMMANDS - The Four Pipeline Stages",
  "",
  "LOAD",
  "  LOAD \"<path>\"",
  "    Reads the file and parses it as JSON. The path may not be empty.",
  "",
  "FILTER",
  "  FILTER <value> <operator> <value>",
  "    Keeps the records for which the comparison holds. Values are field",
  "    paths, numbers, or double-quoted strings.",
  "",
  "    Operators: ==  !=  <  >  <=  >=",
  "",
  "    Example:",
  "      FILTER .cliente.idade >= 18",
  "      FILTER .nome == \"Maria\"",
  "",
  "    Consecutive filters narrow the same dataset.",
  "",
  "SELECT",
  "  SELECT <path>[, <path>...]",
  "    Replaces every record with an object holding the listed fields.",
  "",
  "    Example:",
  "      SELECT .nome, .cliente.idade",
  "      => \x7b nome: ..., cliente_idade: ... \x7d",
  "",
  "SAVE AS",
  "  SAVE AS \"<path>\"",
  "    Writes the current dataset as JSON indented by two spaces. The path",
  "    may not be empty.",
  "",
  "    Strings have no escape sequences and may not span lines."]

/-- The page on field paths. -/
def pathsPage : String := page [
  "PATHS - Addressing Fields",
  "",
  "  .field",
  "  .parent.child",
  "    A path starts with '.' and names one field per segment. Segments use",
  "    letters, digits and underscores and cannot start with a digit. No",
  "    spaces are allowed inside a path.",
  "",
  "NESTED ACCESS",
  "  Every segment after the first is compiled with optional chaining:",
  "",
  "    .cliente.idade   =>  item.cliente?.idade",
  "    .idade           =>  item.idade",
  "",
  "  A record without 'cliente' therefore yields undefined instead of an",
  "  exception."]

/-- The page on field types and their checks. -/
def typesPage : String := page [
  "TYPES - Declared Field Types",
  "",
  "  The compiler does not look at your data. Field types come from a table",
  "  that is installed on every LOAD. The built-in table is:",
  "",
  "    .idade           number",
  "    .nome            string",
  "    .email           string",
  "    .cliente.idade   number",
  "    .cliente.nome    string",
  "    .valor           number",
  "",
  "  Replace it with --schema <file.json>:",
  "",
  "    \x7b \".preco\": \"number\", \".produto.nome\": \"string\" \x7d",
  "",
  "CHECKS",
  "  Incompatible type",
  "    FILTER .idade > \"abc\"     number compared with a string",
  "",
  "  Operator invalid for strings",
  "    FILTER .nome > \"M\"        only == and != apply to strings",
  "",
  "  Paths missing from the table are unknown and never rejected.",
  "",
  "STRICT MODE",
  "  --strict also reports commands before LOAD, a second LOAD, and FILTER",
  "  after SELECT."]

/-- The page on the generated script. -/
def outputPage : String := page [
  "OUTPUT - Generated JavaScript",
  "",
  "  LOAD \"a.json\"",
  "    const input = JSON.parse(fs.readFileSync('a.json', 'utf-8'));",
  "",
  "  FILTER .idade > 18",
  "    const filteredData = input.filter(item => item.idade > 18);",
  "",
  "  FILTER .nome == \"Ana\"   (a second filter)",
  "    filteredData = filteredData.filter(item => item.nome === \"Ana\");",
  "",
  "  SELECT .nome, .cliente.idade",
  "    const result = filteredData.map(item => (\x7b nome: item.nome, cliente_idade: item.cliente?.idade \x7d));",
  "",
  "  SAVE AS \"b.json\"",
  "    fs.writeFileSync('b.json', JSON.stringify(result, null, 2));",
  "",
  "  '==' and '!=' are emitted as '===' and '!=='."]

/-- What a page of the manual is about. -/
inductive Topic where
  | commands
  | paths
  | types
  | output
  deriving DecidableEq

namespace Topic

/-- The page of a topic. -/
def content : Topic → String
  | commands => commandsPage
  | paths => pathsPage
  | types => typesPage
  | output => outputPage

/-- The names of the topics. -/
def names : List (String × Topic) := [
  ("commands", commands), ("command", commands), ("syntax", commands),
  ("paths", paths), ("path", paths), ("json_paths", paths),
  ("types", types), ("type", types), ("schema", types),
  ("output", output), ("javascript", output), ("js", output)]

/-- The form in which names are compared: small letters, and underscores for hyphens.  Only ASCII
capitals have to be turned small: no other character has a small form made of the letters that
occur in the names. -/
def fold (name : String) : String :=
  String.ofList (name.toList.map fun c => if c = '-' then '_' else c.toLower)

/-- The topic with a given name. -/
def ofName? (name : String) : Option Topic :=
  names.lookup (fold name)

end Topic

end QueryPipeline.Manual
