import Outreach.Configuration.File
import Outreach.Funnel.File
import Outreach.Funnel.Validation
import Outreach.Program.Assignment
import Outreach.Program.Invocation
import Outreach.Program.Performance
import Outreach.Program.Report
import Outreach.Store.File
import Outreach.Store.Memory

/-!
# Carrying out a command line

A command line is carried out in a world that says what time it is, what the environment holds, what
is found in files and which services can be reached. What comes of it is an exit code, what is
written, a complaint if something went wrong, and perhaps the new text of a file with a table.

A run of a command line is broken off when it has waited `Performance.waitLimit` times, a million, and
is shown as running then. Without this limit it would go on until its time is over, and for ever if
its waits cost no time.
-/

namespace Outreach

/-- What is found at a path. -/
inductive Finding where
  | text (contents : String)
  /-- Nothing; perhaps a file can be made there. -/
  | absent (canBeMade : Bool)
  | unreadable (reason : String)
  deriving DecidableEq, Repr

namespace Finding

/-- The text of a file, or why it cannot be read. -/
def contents : Finding → Except String String
  | text contents => .ok contents
  | absent _ => .error "No such file or directory (os error 2)"
  | unreadable reason => .error reason

end Finding

/-- The world around the program. -/
structure World where
  now : Instant
  /-- Something random. -/
  seed : Nat
  environment : Environment
  find : String → Finding
  network : Network

/-- What the program says when something went wrong. -/
structure Complaint where
  message : String
  causes : List String
  deriving DecidableEq, Repr

namespace Complaint

/-- A complaint that says everything. -/
def plain (message : String) : Complaint :=
  ⟨message, []⟩

/-- The text of a complaint. -/
def render (c : Complaint) : String :=
  let behind := if c.causes.isEmpty then []
    else ["", "Caused by:"] ++ c.causes.map fun cause => "    " ++ cause
  String.intercalate "\n" (("Error: " ++ c.message) :: behind)

end Complaint

/-- What the program writes. -/
inductive Output where
  | nothing
  | lines (list : List String)
  | value (value : Json)
  | execution (e : Execution)

namespace Output

/-- The text of what is written. -/
def render : Output → String
  | .nothing => ""
  | .lines list => String.join (list.map fun line => line ++ "\n")
  | .value v => v.pretty ++ "\n"
  | .execution e => e.toJson.pretty ++ "\n"

end Output

/-- What comes of a command line. -/
structure Outcome where
  code : Nat
  output : Output
  complaint : Option Complaint
  /-- The execution that is shown. -/
  about : Option Identifier
  /-- A file that is written, with its text. -/
  written : Option (String × String)
  /-- The milliseconds that it took. -/
  elapsed : Nat

namespace Outcome

/-- A command that was carried out, perhaps with a complaint. -/
def of (output : Output) (complaint : Option Complaint) : Outcome :=
  ⟨if complaint.isSome then 1 else 0, output, complaint, none, none, 0⟩

/-- A complaint instead of anything else. -/
def failure (complaint : Complaint) : Outcome :=
  of .nothing (some complaint)

/-- What comes of a command line that is not carried out. -/
def refusal : Refusal → Outcome
  | .misuse => ⟨2, .nothing, none, none, none, 0⟩
  | .help => ⟨0, .nothing, none, none, none, 0⟩

end Outcome

/-- A table that was opened, with the path of its file if it has one. -/
structure OpenTable where
  path : Option String
  rows : TableStore

namespace OpenTable

/-- The file that is written when the work with a table is over. -/
def written (table : OpenTable) (rows : TableStore) : Option (String × String) :=
  table.path.map fun path => (path, rows.render)

end OpenTable

namespace World

/-- The address of the table where none is given. -/
def usualTable (w : World) : String :=
  let directory := (w.environment "FUNNEL_DATA_DIR").getD
    ((w.environment "HOME").getD "." ++ "/.funnel")
  TablePlace.scheme ++ "//" ++ directory ++ "/funnel.db"

/-- Opens the table at an address and drops what has expired in it. -/
def openTable (w : World) (address : String) : Except TableFault OpenTable := do
  match ← TablePlace.ofAddress address with
  | .memory => .ok ⟨none, []⟩
  | .file path isReadOnly =>
    match w.find path, isReadOnly with
    | .text text, false =>
      let rows ← TableStore.ofText text
      .ok ⟨some path, (rows.purge w.now.milliseconds).2⟩
    | .text _, true => .error .readOnly
    | .absent true, false => .ok ⟨some path, []⟩
    | _, _ => .error .unreachable

/-- The configuration of an invocation. -/
def configuration (w : World) (path : Option String) : Except Complaint Configuration :=
  (Configuration.load (path.map fun p => (p, (w.find p).contents)) w.environment).mapError
    fun fault => ⟨fault.message, fault.causes⟩

/-- The funnel of a file. -/
def funnel (w : World) (path : String) : Except Complaint Funnel :=
  (Funnel.load path (w.find path).contents).mapError fun fault =>
    ⟨"failed to load funnel from " ++ path, [fault.message]⟩

/-- Where runs take place under a configuration. -/
def stage (w : World) (c : Configuration) : Stage :=
  ⟨c.limits, c.addresses, w.network, w.now, w.seed⟩

end World

namespace Complaint

/-- The complaint about a funnel that must not be run. -/
def notRunnable (f : Funnel) (v : Verdict) : Complaint :=
  .plain ("funnel '" ++ f.id ++ "' is invalid:\n  - " ++ String.intercalate "\n  - " v.errors ++
    "\n(use --skip-validation to run anyway)")

/-- The complaint about a funnel that was examined. -/
def notValid (f : Funnel) (v : Verdict) : Complaint :=
  .plain ("funnel '" ++ f.id ++ "' failed validation with " ++ Numeral.text v.errors.length ++
    " error(s)")

/-- The complaint about a run. -/
def failedRun (e : Execution) : Complaint :=
  .plain ("execution " ++ e.id.render ++ " failed")

/-- The complaint about a snapshot that is not there. -/
def noSnapshot (id : Identifier) (address : String) : Complaint :=
  .plain ("no snapshot for execution " ++ id.render ++ " (expired or never persisted to " ++
    address ++ ")")

end Complaint

/-- Runs a call against a store, and says what comes of it and what the store holds then. A run that
has waited too often is shown as it is, still running. -/
def Stage.play {σ : Type} (stage : Stage) (access : StoreAccess σ) (store : σ) (call : Call)
    (shown : Execution → Output) : Outcome × σ :=
  let done := Performance.ofCall stage access store call
  match done.run? with
  | none => (.of .nothing none, done.system.store)
  | some run =>
    let e := run.execution
    let complaint := if e.status = .failed then some (Complaint.failedRun e) else none
    ({ Outcome.of (shown e) complaint with about := some e.id, elapsed := done.clock },
      done.system.store)

namespace World

/-- Runs a funnel. -/
def run (w : World) (c : Configuration) (asJson isQuiet : Bool) (order : RunOrder) :
    Except Complaint Outcome := do
  let f ← w.funnel order.file
  let stage := w.stage c
  let verdict := f.validate stage.engine.registry c.limits
  if !verdict.isValid && !order.skipsValidation then throw (Complaint.notRunnable f verdict)
  let vars ← (Assignment.vars order.object order.assignments).mapError fun fault =>
    (⟨fault.message, fault.causes⟩ : Complaint)
  let call : Call := ⟨f, order.triggerId, vars⟩
  let shown (e : Execution) : Output :=
    if asJson then .execution e else if isQuiet then .nothing else .lines (Report.run f.id e)
  match order.table with
  | none => return (stage.play MemoryStore.access [] call shown).1
  | some address =>
    let table ← (w.openTable address).mapError fun fault => Complaint.plain fault.message
    let (outcome, rows) :=
      stage.play (TableStore.access Instant.ofMilliseconds) table.rows call shown
    return { outcome with written := table.written rows }

/-- Examines a funnel. -/
def validate (w : World) (c : Configuration) (asJson isQuiet : Bool) (file : String) :
    Except Complaint Outcome := do
  let f ← w.funnel file
  let verdict := f.validate (w.stage c).engine.registry c.limits
  let output : Output :=
    if asJson then .value (Report.examinationValue f verdict)
    else if isQuiet then .nothing
    else .lines (Report.examination f verdict)
  return .of output (if verdict.isValid then none else some (Complaint.notValid f verdict))

/-- Lists the types of nodes. -/
def listTypes (w : World) (c : Configuration) (asJson : Bool) : Outcome :=
  let list := (w.stage c).engine.registry.types
  .of (if asJson then .value (Report.typesValue list) else .lines (Report.types list)) none

/-- Shows a snapshot. -/
def inspect (w : World) (asJson : Bool) (id : Identifier) (address : String) :
    Except Complaint Outcome := do
  let table ← (w.openTable address).mapError fun fault => Complaint.plain fault.message
  let outcome : Outcome := match table.rows.get w.now.milliseconds (Execution.keyOf id) with
    | .error fault => .failure (.plain fault.message)
    | .ok none => .failure (Complaint.noSnapshot id address)
    | .ok (some e) =>
      let output : Output := if asJson then .execution e else .lines (Report.snapshot e)
      { Outcome.of output none with about := some e.id }
  return { outcome with written := table.written table.rows }

end World

namespace Invocation

/-- The files that a command may look at. -/
def paths (i : Invocation) (w : World) : List String :=
  let table (address : String) : List String :=
    match TablePlace.ofAddress address with
    | .ok (.file path _) => [path]
    | _ => []
  i.configuration.toList ++ match i.command with
    | .run order => order.file :: (order.table.map table).getD []
    | .validate file => [file]
    | .listTypes => []
    | .inspect _ address => table (address.getD w.usualTable)

/-- Carries out an invocation, or complains before anything has been written. -/
def perform? (i : Invocation) (w : World) : Except Complaint Outcome := do
  let c ← w.configuration i.configuration
  match i.command with
  | .run order => w.run c i.asJson i.isQuiet order
  | .validate file => w.validate c i.asJson i.isQuiet file
  | .listTypes => return w.listTypes c i.asJson
  | .inspect id address => w.inspect i.asJson id (address.getD w.usualTable)

/-- Carries out an invocation. -/
def perform (i : Invocation) (w : World) : Outcome :=
  match i.perform? w with
  | .ok outcome => outcome
  | .error complaint => .failure complaint

end Invocation

namespace World

/-- Carries out a command line. -/
def perform (w : World) (words : List String) : Outcome :=
  match Invocation.read w.environment words with
  | .ok invocation => invocation.perform w
  | .error refused => .refusal refused

end World

end Outreach
