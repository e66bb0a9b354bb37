import Outreach.Engine.Traversal

/-!
# Walks by recursion

A walk through a funnel told as a recursion on nodes, without a stack: to visit a node is to try it
until it works, and then to visit each node that comes after it, the branch of one to its end before
the branch of the next. A fault at a node ends the whole walk and never touches the node before it;
once the execution is no longer running, nothing more is visited.

A visit reads the wakes that a walk is resumed with from a list, one for each wait. It breaks off
where the list ends, so a list that ends early tells the beginning of a walk. Nothing bounds the
recursion but the list: `Node.visit` is the least function with its equation.
-/

namespace Outreach

/-- What a visit reads and changes: besides the execution, the budget and the sightings, the latest
wake and the wakes that are still to come. -/
structure Scene where
  execution : Execution
  budget : Budget
  wake : Wake
  coming : List Wake
  trace : List Sighting

/-- Why a visit breaks off before its end. -/
inductive Break where
  /-- It waits, and no wake is left. -/
  | waiting
  /-- A fault ended the whole walk. -/
  | fault (fault : EngineFault)

/-- Part of a walk: it has a value or breaks off; either way what was seen until then remains. -/
abbrev Visit := ExceptT Break (StateT Scene Option)

namespace Visit

variable {α : Type}

/-- Something happens to the execution at the present moment. -/
def happen (change : Execution → Moment → Execution) : Visit Unit :=
  modify fun s => { s with execution := change s.execution s.wake.moment }

/-- Something can be seen from outside. -/
def reveal (sighting : Execution → Sighting) : Visit Unit :=
  modify fun s => { s with trace := s.trace ++ [sighting s.execution] }

/-- Takes note of a cancellation. -/
def observe : Visit Unit :=
  modify fun s => { s with execution := s.execution.observe s.wake.moment s.wake.cancelled }

/-- Whether the run is still under way. -/
def isRunning : Visit Bool :=
  return (← get).execution.isRunning

/-- Waits for the next wake. -/
def await : Visit Unit := do
  match (← get).coming with
  | [] => throw .waiting
  | wake :: coming => modify fun s => { s with wake, coming }

/-- Waits for the next wake; the time that it took is charged, and may not fit into the budget. -/
def awaitCharged : Visit (Except EngineFault Unit) := do
  await
  let s ← get
  match s.budget.charge s.wake.spent with
  | some budget =>
    set { s with budget }
    return .ok ()
  | none => return .error (.timeout s.budget.limit)

/-- Waits for an executor, which may be exempt from the budget. -/
def awaitExecutor : (isExempt : Bool) → Visit (Except EngineFault Unit)
  | true => do
    await
    return .ok ()
  | false => awaitCharged

/-- Does the work of a node to its end. -/
def carryOut (isExempt : Bool) : Task → Visit (Except EngineFault ActionResult)
  | .done result => return .ok result
  | .sleep _ next => do
    match ← awaitExecutor isExempt with
    | .ok () => carryOut isExempt (next (← get).wake.moment.now)
    | .error fault => return .error fault
  | .ask request next => do
    match ← awaitExecutor isExempt with
    | .ok () =>
      let wake := (← get).wake
      carryOut isExempt (next wake.moment.now (wake.reply request))
    | .error fault => return .error fault

variable (engine : Engine) (f : Funnel)

/-- What a result that an executor came to means for the walk. -/
def judge (node : Node) (result : ActionResult) : Visit (Except EngineFault Step) := do
  happen fun e moment => e.take moment node result
  if !result.success then
    return .error (.nodeFailed node.id (result.error.getD "node execution failed"))
  else if !result.shouldContinue then return .ok .finish
  else
    let s ← get
    let (next, execution) := f.onward s.wake.moment node result.nextNode s.execution
    set { s with execution }
    return .ok (.proceed next)

/-- Tries a node once. -/
def attempt (node : Node) : Visit (Except EngineFault Step) := do
  happen fun e moment => e.enter moment node
  reveal (.attempt node)
  let s ← get
  match engine.registry.executor? node.type with
  | none => return .error (.noExecutor node.id node.type)
  | some executor =>
    match ← carryOut executor.isExempt (executor.perform s.wake.moment.now node s.execution) with
    | .ok result => judge f node result
    | .error fault => return .error fault

end Visit

namespace Node

open Visit

variable (engine : Engine) (f : Funnel)

/-- Tries a node until it works, it may not be tried again, or the run is cancelled. -/
def persist (node : Node) : Visit Step := do
  match ← attempt engine f node with
  | .ok step => return step
  | .error fault =>
    happen fun e moment => e.recordError moment (some node.id) fault.message none fault.isRetryable
    if engine.limits.allowsRetry fault ((← get).execution.errorsAt node.id) then
      happen fun e moment => e.noteRetry moment engine.limits node fault
      match ← awaitCharged with
      | .ok () =>
        observe
        if ← isRunning then node |>.persist else return .halt
      | .error timeout => throw (.fault timeout)
    else
      happen fun e moment => e.giveUp moment node fault
      throw (.fault fault)
partial_fixpoint

/-- Visits a node and everything behind it. -/
def visit (node : Node) : Visit Unit := do
  observe
  if ← isRunning then
    let step ← node.persist engine f
    observe
    reveal .snapshot
    await
    match step with
    | .proceed next =>
      next.forM fun n => do
        if ← isRunning then n |>.visit
    | .finish => happen fun e moment => e.stop moment node
    | .halt => return ()
partial_fixpoint

end Node

end Outreach
