import Outreach.Configuration.Environment
import Outreach.Configuration.Verbosity
import Outreach.Execution.Identifier
import Outreach.Program.Option

/-!
# The command line of the program

A command line names a command: to run a funnel, to check one, to list the types of nodes, or to
show a snapshot. Some options go with every command and may stand before or behind its name; the
ones behind it win. What is not said on the command line may be said by the environment.
-/

namespace Outreach

/-- What is said of a run. -/
structure RunOrder where
  file : String
  assignments : List String
  /-- Variables as the text of an object. -/
  object : Option String
  triggerId : Option String
  /-- The address of the table that keeps the snapshots. -/
  table : Option String
  skipsValidation : Bool
  deriving DecidableEq, Repr

/-- What the program is to do. -/
inductive Command where
  | run (order : RunOrder)
  | validate (file : String)
  | listTypes
  | inspect (id : Identifier) (table : Option String)
  deriving DecidableEq, Repr

/-- A command line that was understood. -/
structure Invocation where
  /-- Whether results are written as values. -/
  asJson : Bool
  /-- Whether nothing but errors is written. -/
  isQuiet : Bool
  logging : Logging
  /-- The file that holds the configuration. -/
  configuration : Option String
  command : Command
  deriving DecidableEq, Repr

namespace Invocation

/-- The options that go with every command. -/
def generalOptions : List CommandOption :=
  [⟨"json", none, .nothing⟩, ⟨"quiet", none, .nothing⟩, ⟨"verbose", some 'v', .count⟩,
    ⟨"log-json", none, .nothing⟩, ⟨"otel", none, .nothing⟩, ⟨"config", none, .path⟩,
    ⟨"help", some 'h', .help⟩, ⟨"version", some 'V', .help⟩]

/-- The address of a table as an option. -/
def tableOption : CommandOption :=
  ⟨"cache-db", none, .value⟩

/-- The options of a run. -/
def runOptions : List CommandOption :=
  [⟨"var", none, .values⟩, ⟨"vars", none, .value⟩, ⟨"trigger", none, .value⟩, tableOption,
    ⟨"skip-validation", none, .nothing⟩]

/-- The names of the commands. -/
def commandNames : List String :=
  ["run", "validate", "check", "node-types", "inspect", "help"]

/-- The variables of the environment that the program looks at. -/
def environmentNames : List String :=
  ["MAX_CONCURRENT_EXECUTIONS", "EXECUTION_TIMEOUT", "MAX_RETRY_ATTEMPTS", "RETRY_DELAY",
    "MAX_FLOW_NODES", "MAX_FLOW_DEPTH", "FLOW_CACHE_TTL", "WHATSAPP_SERVICE_URL",
    "WHATSAPP_API_TOKEN", "DELIVERY_TIMEOUT", "AI_API_URL", "AI_API_KEY", "AI_MODEL",
    "CONTACT_SERVICE_URL", "ANALYTICS_SERVICE_URL", "FUNNEL_OTEL", "FUNNEL_CONFIG",
    "FUNNEL_CACHE_DB", "FUNNEL_DATA_DIR", "HOME"]

/-- Whether a word names a file. -/
def isPath (word : String) : Bool :=
  !word.isEmpty

/-- Whether a word is an identifier. -/
def isIdentifier (word : String) : Bool :=
  (Identifier.read word).isOk

/-- What is said of options before and behind the name of the command. -/
structure Levels where
  outer : Given
  inner : Given

namespace Levels

/-- Whether an option was given. -/
def has (levels : Levels) (name : String) : Bool :=
  levels.inner.has name || levels.outer.has name

/-- How often an option was given; behind the name of the command alone, if it was given there. -/
def count (levels : Levels) (name : String) : Nat :=
  if levels.inner.has name then levels.inner.count name else levels.outer.count name

/-- The value of an option. -/
def value? (levels : Levels) (name : String) : Option String :=
  (levels.inner.value? name).or (levels.outer.value? name)

end Levels

/-- Refuses an environment that says something without sense in place of an option that was not
given. -/
def checkEnvironment (env : Environment) (given : Given) : Except Refusal Unit :=
  let spans := given.has "otel" || (env "FUNNEL_OTEL").all fun v => v = "true" ∨ v = "false"
  let file := given.has "config" || (env "FUNNEL_CONFIG").all isPath
  if spans && file then .ok () else .error .misuse

/-- The address of a table, or what the environment says about it. -/
def table? (env : Environment) (given : Given) : Option String :=
  (given.value? tableOption.name).or (env "FUNNEL_CACHE_DB")

/-- What asking for help about some words comes to. -/
def helpOn : List String → Refusal
  | [] => .help
  | [name] => if commandNames.contains name then .help else .misuse
  | _ => .misuse

/-- The command of a name and of what follows the name. -/
def readCommand (env : Environment) (name : String) (rest : List String) :
    Except Refusal (Command × Given) := do
  let scan (own : List CommandOption) (places : List (String → Bool)) :=
    CommandLine.scan (own ++ generalOptions) [] places .nothing rest
  match name with
  | "run" =>
    let given ← scan runOptions [isPath]
    match given.words with
    | [file] =>
      let order : RunOrder := {
        file, assignments := given.values "var", object := given.value? "vars",
        triggerId := given.value? "trigger", table := table? env given,
        skipsValidation := given.has "skip-validation" }
      .ok (.run order, given)
    | _ => .error .misuse
  | "validate" | "check" =>
    let given ← scan [] [isPath]
    match given.words with
    | [file] => .ok (.validate file, given)
    | _ => .error .misuse
  | "node-types" =>
    let given ← scan [] []
    .ok (.listTypes, given)
  | "inspect" =>
    let given ← scan [tableOption] [isIdentifier]
    match given.words.map Identifier.read with
    | [.ok id] => .ok (.inspect id (table? env given), given)
    | _ => .error .misuse
  | _ => .error (helpOn rest)

/-- What is logged. -/
def loggingOf (levels : Levels) (env : Environment) : Logging :=
  let count := levels.count "verbose"
  let logging := Logging.ofVerbosity count
  { logging with
    filter := if levels.has "quiet" && count = 0 then "error" else logging.filter
    asObjects := levels.has "log-json"
    exportsSpans := levels.has "otel" || env "FUNNEL_OTEL" = some "true" }

/-- Reads a command line. -/
def read (env : Environment) (words : List String) : Except Refusal Invocation := do
  let outer ← CommandLine.scan generalOptions commandNames [] .nothing words
  match outer.next with
  | none => .error .misuse
  | some (name, rest) =>
    let (command, inner) ← readCommand env name rest
    checkEnvironment env inner
    checkEnvironment env outer
    let levels : Levels := ⟨outer, inner⟩
    .ok {
      asJson := levels.has "json"
      isQuiet := levels.has "quiet"
      logging := loggingOf levels env
      configuration := (levels.value? "config").or (env "FUNNEL_CONFIG")
      command }

end Invocation

end Outreach
