import Outreach.Engine.Budget
import Outreach.Engine.Fault
import Outreach.Engine.Onward
import Outreach.Executor.Basic

/-!
# Traversals

A traversal walks through a funnel from one node on, each branch to its end before the next one
begins. It stands still wherever it has to wait: while a node is at work, while it pauses before it
tries a node again, and while a snapshot of the execution is written. `Traversal.resume` takes it
from one such point to the next, and `trace` holds what can be seen of it from outside: the attempts
at nodes and the snapshots.

Nodes that are still to be visited lie on a stack. A cancellation is noticed before a node is tried
and after it has been.
-/

namespace Outreach

/-- What an engine is set up with. -/
structure Engine where
  registry : Registry
  limits : Limits

/-- What is to be done after a node. -/
inductive Step where
  /-- Go on with these nodes, in order. -/
  | proceed (next : List Node)
  /-- The node ended the run. -/
  | finish
  /-- The run was cancelled before the node was tried again. -/
  | halt

/-- Where a traversal stands still. -/
inductive Point where
  /-- A snapshot is being written. -/
  | saving (node : Node) (step : Step)
  /-- A node is at work. -/
  | working (node : Node) (isExempt : Bool) (task : Task)
  /-- It waits before it tries a node again. -/
  | pausing (node : Node)
  /-- It has come to its end. -/
  | ended (outcome : Except EngineFault Unit)

/-- What can be seen of a run from outside. -/
inductive Sighting where
  /-- An attempt at a node, with the execution that it sees. -/
  | attempt (node : Node) (seen : Execution)
  /-- A snapshot that is written. -/
  | snapshot (execution : Execution)

/-- A walk through a funnel. -/
structure Traversal where
  execution : Execution
  pending : List Node
  budget : Budget
  point : Point
  trace : List Sighting

/-- What a traversal learns when it is resumed: the time, whether its run is cancelled, how long it
waited, and what the services reply. -/
structure Wake where
  moment : Moment
  cancelled : Bool
  spent : Nat
  reply : (request : Request) → Reply request

namespace Execution

/-- Takes note of a cancellation. -/
def observe (e : Execution) (moment : Moment) (cancelled : Bool) : Execution :=
  if cancelled && e.isRunning then
    (e.move moment .cancelled).log moment .warn none "execution cancelled" none
  else e

/-- Notes that a node is being tried. -/
def enter (e : Execution) (moment : Moment) (node : Node) : Execution :=
  { e with currentNode := some node.id }.log moment .info (some node.id)
    ("executing node '" ++ node.label ++ "'") (some (.record [("type", .string node.type.label)]))

/-- Takes over the result of an attempt. -/
def take (e : Execution) (moment : Moment) (node : Node) (result : ActionResult) : Execution :=
  (e.mergeVariables (result.vars.getD [])).log moment .info (some node.id)
    ("node '" ++ node.label ++ "' finished")
    (some (.record [("success", .bool result.success), ("shouldContinue", .bool result.shouldContinue),
      ("data", .orNull result.data)]))

/-- Notes that a node failed for good. -/
def giveUp (e : Execution) (moment : Moment) (node : Node) (fault : EngineFault) : Execution :=
  e.log moment .error (some node.id) ("node failed: " ++ fault.message)
    (some (.record [("attempts", .nat (e.errorsAt node.id)), ("retryable", .bool fault.isRetryable)]))

/-- Notes that a node will be tried again. -/
def noteRetry (e : Execution) (moment : Moment) (limits : Limits) (node : Node) (fault : EngineFault) :
    Execution :=
  e.log moment .warn (some node.id)
    ("retrying node (retry " ++ Numeral.text (e.errorsAt node.id) ++ " of " ++
      Numeral.text limits.retries ++ "): " ++ fault.message)
    (some (.record [("delayMs", .nat limits.retryDelay)]))

/-- Ends a run that a node asked to end. -/
def stop (e : Execution) (moment : Moment) (node : Node) : Execution :=
  if e.isRunning then
    (e.move moment .completed).log moment .info (some node.id)
      "execution completed: node stopped the flow" none
  else e

end Execution

namespace Traversal

/-- Something more that can be seen. -/
def see (t : Traversal) (sighting : Sighting) : Traversal :=
  { t with trace := t.trace ++ [sighting] }

/-- Comes to an end. -/
def finish (t : Traversal) (outcome : Except EngineFault Unit) : Traversal :=
  { t with point := .ended outcome }

/-- Writes a snapshot after a node, a cancellation noticed. -/
def settle (t : Traversal) (wake : Wake) (node : Node) (step : Step) : Traversal :=
  let e := t.execution.observe wake.moment wake.cancelled
  { t with execution := e, point := .saving node step }.see (.snapshot e)

/-- Records a fault at a node, and pauses before another attempt or gives up. -/
def fail (engine : Engine) (t : Traversal) (wake : Wake) (node : Node) (fault : EngineFault) :
    Traversal :=
  let e := t.execution.recordError wake.moment (some node.id) fault.message none fault.isRetryable
  if engine.limits.allowsRetry fault (e.errorsAt node.id) then
    { t with execution := e.noteRetry wake.moment engine.limits node fault, point := .pausing node }
  else { t with execution := e.giveUp wake.moment node fault }.finish (.error fault)

/-- Takes over the result of an attempt at a node. -/
def conclude (engine : Engine) (f : Funnel) (t : Traversal) (wake : Wake) (node : Node)
    (result : ActionResult) : Traversal :=
  let e := t.execution.take wake.moment node result
  if !result.success then
    { t with execution := e }.fail engine wake node
      (.nodeFailed node.id (result.error.getD "node execution failed"))
  else if !result.shouldContinue then { t with execution := e }.settle wake node .finish
  else
    let (next, e) := f.onward wake.moment node result.nextNode e
    { t with execution := e }.settle wake node (.proceed next)

/-- Waits for a node at work, or takes over its result. -/
def work (engine : Engine) (f : Funnel) (t : Traversal) (wake : Wake) (node : Node) (isExempt : Bool)
    (task : Task) : Traversal :=
  match task with
  | .done result => t.conclude engine f wake node result
  | task => { t with point := .working node isExempt task }

/-- Tries a node. -/
def attempt (engine : Engine) (f : Funnel) (t : Traversal) (wake : Wake) (node : Node) : Traversal :=
  let e := t.execution.enter wake.moment node
  let t := { t with execution := e }.see (.attempt node e)
  match engine.registry.executor? node.type with
  | none => t.fail engine wake node (.noExecutor node.id node.type)
  | some executor =>
    t.work engine f wake node executor.isExempt (executor.perform wake.moment.now node e)

/-- Goes on with the topmost pending node, unless the run is no longer under way. -/
def advance (engine : Engine) (f : Funnel) (t : Traversal) (wake : Wake) : Traversal :=
  match t.pending with
  | [] => t.finish (.ok ())
  | node :: rest =>
    let e := t.execution.observe wake.moment wake.cancelled
    let t := { t with execution := e, pending := rest }
    if e.isRunning then t.attempt engine f wake node else t.finish (.ok ())

/-- Does what is to be done after a node. -/
def proceed (engine : Engine) (f : Funnel) (t : Traversal) (wake : Wake) (node : Node) :
    Step → Traversal
  | .proceed next => { t with pending := next ++ t.pending }.advance engine f wake
  | .finish => { t with execution := t.execution.stop wake.moment node }.finish (.ok ())
  | .halt => t.finish (.ok ())

/-- The work that is left when its wait is over. -/
def continueTask (task : Task) (wake : Wake) : Task :=
  match task with
  | .done result => .done result
  | .sleep _ next => next wake.moment.now
  | .ask request next => next wake.moment.now (wake.reply request)

/-- Whether a wait is charged to the budget. -/
def isCharged : Point → Bool
  | .working _ isExempt _ => !isExempt
  | .pausing _ => true
  | .saving _ _ | .ended _ => false

/-- What is left of the budget after a wait, if it fits. -/
def charge (t : Traversal) (wait : Nat) : Option Budget :=
  if isCharged t.point then t.budget.charge wait else some t.budget

/-- How much of a wait passes before it ends or is cut. -/
def cut (t : Traversal) (wait : Nat) : Nat :=
  if isCharged t.point then t.budget.cut wait else wait

/-- From one point at which a traversal waits to the next. A wait that does not fit into the budget
ends the traversal; at a node at work it is an error of the node as well. -/
def resume (engine : Engine) (f : Funnel) (wake : Wake) (t : Traversal) : Traversal :=
  match t.point with
  | .ended _ => t
  | .saving node step => t.proceed engine f wake node step
  | .working node isExempt task =>
    match t.charge wake.spent with
    | none => t.fail engine wake node (.timeout t.budget.limit)
    | some budget =>
      { t with budget }.work engine f wake node isExempt (continueTask task wake)
  | .pausing node =>
    match t.charge wake.spent with
    | none => t.finish (.error (.timeout t.budget.limit))
    | some budget =>
      let e := t.execution.observe wake.moment wake.cancelled
      let t := { t with budget, execution := e }
      if e.isRunning then t.attempt engine f wake node else t.settle wake node .halt

/-- A traversal that has nothing to do yet. -/
def ready (e : Execution) : Traversal where
  execution := e
  pending := []
  budget := .unlimited
  point := .ended (.ok ())
  trace := []

/-- Sets out from a node. -/
def start (engine : Engine) (f : Funnel) (t : Traversal) (wake : Wake) (node : Node)
    (budget : Budget) : Traversal :=
  { t with pending := [node], budget }.advance engine f wake

end Traversal

end Outreach
