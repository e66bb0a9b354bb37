import Outreach.Execution.Identifier
import Outreach.Execution.Status
import Outreach.Time.Instant
import Outreach.Variables.Path

/-!
# Executions

An execution is the record of one run of a funnel: its status, its variables, what was logged and
which errors were recorded. Logs and errors only grow, variables are added or replaced and never
removed.
-/

namespace Outreach

/-- The reading of the clock and the supply of new identifiers at one point of a run. -/
structure Moment where
  now : Instant
  fresh : Nat → Identifier

/-- How much a log entry matters. -/
inductive Level where
  | debug
  | info
  | warn
  | error
  deriving DecidableEq, Repr

namespace Level

/-- Every level, in order. -/
def all : List Level :=
  [debug, info, warn, error]

/-- The written form. -/
def label : Level → String
  | debug => "debug"
  | info => "info"
  | warn => "warn"
  | error => "error"

end Level

/-- Something that was noted during a run. -/
structure LogEntry where
  id : Identifier
  timestamp : Instant
  level : Level
  node : Option String
  message : String
  data : Option Json

/-- Something that went wrong during a run, at a node or outside of them. -/
structure ErrorEntry where
  id : Identifier
  timestamp : Instant
  node : Option String
  message : String
  stack : Option String
  isRetryable : Bool

/-- The record of one run. -/
structure Execution where
  id : Identifier
  funnelId : String
  triggerId : Option String
  status : Status
  vars : Variables
  currentNode : Option String
  logs : List LogEntry
  errors : List ErrorEntry
  startedAt : Instant
  endedAt : Option Instant
  metadata : Members Json

namespace Execution

/-- What the keys of stored executions begin with. -/
def keyStart : String := "execution:"

/-- The key under which an execution with an identifier is stored. -/
def keyOf (id : Identifier) : String :=
  keyStart ++ id.render

/-- The key under which an execution is stored. -/
def key (e : Execution) : String :=
  keyOf e.id

/-- A new execution, not yet running. -/
def create (moment : Moment) (funnelId : String) (triggerId : Option String) (vars : Variables) :
    Execution where
  id := moment.fresh 0
  funnelId
  triggerId
  status := .pending
  vars
  currentNode := none
  logs := []
  errors := []
  startedAt := moment.now
  endedAt := none
  metadata := []

/-- Whether a run is under way. -/
def isRunning (e : Execution) : Bool :=
  e.status == .running

/-- Moves to another status; an execution that ends notes when. -/
def move? (e : Execution) (moment : Moment) (next : Status) : Except IllegalMove Execution :=
  if e.status.canMoveTo next then
    .ok { e with
      status := next,
      endedAt := if next.isTerminal then some moment.now else e.endedAt }
  else .error ⟨e.status, next⟩

/-- Moves to another status where that is allowed. -/
def move (e : Execution) (moment : Moment) (next : Status) : Execution :=
  match e.move? moment next with
  | .ok moved => moved
  | .error _ => e

/-- Puts variables on top of those that are there. -/
def mergeVariables (e : Execution) (added : Variables) : Execution :=
  { e with vars := e.vars.merge added }

/-- The number of entries so far; the next entry takes the identifier behind it. -/
def entryCount (e : Execution) : Nat :=
  e.logs.length + e.errors.length

/-- Adds a log entry. -/
def log (e : Execution) (moment : Moment) (level : Level) (node : Option String) (message : String)
    (data : Option Json) : Execution :=
  { e with logs := e.logs ++
      [⟨moment.fresh (e.entryCount + 1), moment.now, level, node, message, data⟩] }

/-- Adds an error. -/
def recordError (e : Execution) (moment : Moment) (node : Option String) (message : String)
    (stack : Option String) (isRetryable : Bool) : Execution :=
  { e with errors := e.errors ++
      [⟨moment.fresh (e.entryCount + 1), moment.now, node, message, stack, isRetryable⟩] }

/-- The number of errors recorded against a node. -/
def errorsAt (e : Execution) (node : String) : Nat :=
  e.errors.countP fun entry => entry.node == some node

/-- The milliseconds from start to end, if there is an end. -/
def duration? (e : Execution) : Option Int :=
  e.endedAt.map e.startedAt.millisecondsTo

end Execution

end Outreach
