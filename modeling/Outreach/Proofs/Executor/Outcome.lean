import Outreach.Executor.BuiltIn
import Outreach.Proofs.System.Returns
import Outreach.Proofs.Walk.Cancellation

/-!
# How the built-in executors call upon services

A built-in executor asks a service at most once. Where it has to ask one, nothing but the settings
and the variables decide whether it does (`NodeType.IsHindered`), and nothing but the reply decides
whether it worked. What comes of it is a success without an error, or a failure that leaves nothing
behind but its error (`Executor.builtIn_outcome`).
-/

namespace Outreach

/-! ## Carrying out a task -/

/-- A request to a service, and what came back. -/
structure Exchange where
  request : Request
  reply : Reply request

namespace Task

/-- The requests that a task makes when its waits end as told, with their replies. -/
def calls : Task → (Nat → Wake) → List Exchange
  | .done _, _ => []
  | .sleep _ next, wake => (next (wake 0).moment.now).calls fun k => wake (k + 1)
  | .ask request next, wake =>
    let reply := (wake 0).reply request
    ⟨request, reply⟩ :: (next (wake 0).moment.now reply).calls fun k => wake (k + 1)

/-- The result that a task comes to when its waits end as told. -/
def result : Task → (Nat → Wake) → ActionResult
  | .done result, _ => result
  | .sleep _ next, wake => (next (wake 0).moment.now).result fun k => wake (k + 1)
  | .ask request next, wake =>
    (next (wake 0).moment.now ((wake 0).reply request)).result fun k => wake (k + 1)

/-- A traversal that goes on with a task after a wait is still on the way to its result. -/
theorem result_continueTask (task : Task) (wake : Nat → Wake) :
    (Traversal.continueTask task (wake 0)).result (fun k => wake (k + 1)) = task.result wake := by
  cases task <;> rfl

end Task

/-! ## Results -/

namespace ActionResult

/-- It worked, and no error is told of. -/
structure IsSuccess (r : ActionResult) : Prop where
  success : r.success = true
  error : r.error = none

/-- It did not work: an error is told of, the run does not go on from here, and there is nothing to
put into its variables and no node to jump to. -/
structure IsFailure (r : ActionResult) : Prop where
  success : r.success = false
  shouldContinue : r.shouldContinue = false
  error : ∃ text, r.error = some text
  vars : r.vars = none
  nextNode : r.nextNode = none

theorem isSuccess_proceed : proceed.IsSuccess := ⟨rfl, rfl⟩

theorem isSuccess_finish : finish.IsSuccess := ⟨rfl, rfl⟩

theorem isFailure_failure (text : String) : (failure text).IsFailure :=
  ⟨rfl, rfl, ⟨text, rfl⟩, rfl, rfl⟩

variable {r : ActionResult}

theorem IsSuccess.withVariables (h : r.IsSuccess) (added : Variables) :
    (r.withVariables added).IsSuccess := ⟨h.success, h.error⟩

theorem IsSuccess.withVariable (h : r.IsSuccess) (name : String) (value : Json) :
    (r.withVariable name value).IsSuccess := h.withVariables _

theorem IsSuccess.withData (h : r.IsSuccess) (data : Json) : (r.withData data).IsSuccess :=
  ⟨h.success, h.error⟩

theorem IsFailure.withData (h : r.IsFailure) (data : Json) : (r.withData data).IsFailure :=
  ⟨h.success, h.shouldContinue, h.error, h.vars, h.nextNode⟩

end ActionResult

namespace Exchange

/-- Whether a service did what it was asked; of an HTTP endpoint the status says so. -/
def worked : Exchange → Bool
  | ⟨.send _, .ok _⟩ | ⟨.complete _, .ok _⟩ | ⟨.updateContact _ _, .ok _⟩ | ⟨.track _, .ok _⟩ => true
  | ⟨.dispatch _, .ok reply⟩ => 200 ≤ reply.status && reply.status ≤ 299
  | _ => false

end Exchange

/-! ## Which nodes ask -/

/-- Settings that cannot be read hinder, and settings that can be read if something is the case. -/
def Node.IsHindered {α : Type} (n : Node) (layout : Layout α) (obstacle : α → Prop) : Prop :=
  match n.settingsAs layout with
  | .ok settings => obstacle settings
  | .error _ => True

namespace NodeType

/-- Whether a request is the one that nodes of a type make. -/
def asks : NodeType → Request → Bool
  | .sendMessage, .send _ | .sendWhatsapp, .send _ | .sendEmail, .send _ | .sendSms, .send _
  | .aiResponse, .complete _ | .webhook, .dispatch _ | .apiCall, .dispatch _
  | .updateContact, .updateContact _ _ | .trackEvent, .track _ => true
  | _, _ => false

/-- Whether nodes of a type need a service. -/
def needsService : NodeType → Bool
  | .sendMessage | .sendWhatsapp | .sendEmail | .sendSms | .aiResponse | .webhook | .apiCall
  | .updateContact | .trackEvent => true
  | .trigger | .condition | .delay | .finish | .custom _ => false

/-- A message without a text, without a recipient or without a sender. -/
def IsUndeliverable (channels : List Channel) (n : Node) (vars : Variables)
    (settings : MessageSettings) : Prop :=
  settings.body? = none ∨
    Text.isBlankText (Template.interpolate (settings.recipient.getD "") vars) = true ∨
    settings.channelFor n.type ∉ channels

/-- A contact whose identifier is blank or not known in full. -/
def IsUnknownContact (vars : Variables) (settings : ContactSettings) : Prop :=
  let contact := Template.interpolate settings.contact vars
  Text.isBlankText contact = true ∨ Template.mayHoldPlaceholder contact = true

/-- What keeps the executor of a type from doing anything at a node. -/
def IsHindered (channels : List Channel) (n : Node) (vars : Variables) : NodeType → Prop
  | .sendMessage | .sendWhatsapp | .sendEmail | .sendSms =>
    n.IsHindered MessageSettings.layout (IsUndeliverable channels n vars)
  | .aiResponse => n.IsHindered CompletionSettings.layout fun _ => False
  | .webhook | .apiCall => n.IsHindered HttpSettings.layout fun _ => False
  | .updateContact => n.IsHindered ContactSettings.layout (IsUnknownContact vars)
  | .trackEvent => n.IsHindered EventSettings.layout fun _ => False
  | .condition => n.IsHindered BranchSettings.layout fun _ => False
  | .delay => n.IsHindered DelaySettings.layout fun _ => False
  | .finish => n.IsHindered EndSettings.layout fun _ => False
  | .trigger | .custom _ => False

end NodeType

/-! ## One executor after the other -/

/-- A task that fails at once if it is hindered, and otherwise comes to a success without asking
anything. -/
inductive Task.IsQuiet (hindered : Prop) : Task → Prop
  | refused {r : ActionResult} (h : hindered) (hr : r.IsFailure) : IsQuiet hindered (.done r)
  | done {r : ActionResult} (h : ¬ hindered) (hr : r.IsSuccess) : IsQuiet hindered (.done r)
  | sleep {time : Nat} {next : Instant → Task} (h : ¬ hindered)
    (hnext : ∀ now, ∃ r, next now = .done r ∧ r.IsSuccess) : IsQuiet hindered (.sleep time next)

/-- A task that fails at once if it is hindered, and otherwise asks once and comes to a success
exactly if that worked. -/
inductive Task.AsksOnce (asks : Request → Bool) (hindered : Prop) : Task → Prop
  | refused {r : ActionResult} (h : hindered) (hr : r.IsFailure) : AsksOnce asks hindered (.done r)
  | ask {request : Request} {next : Instant → Reply request → Task} (h : ¬ hindered)
    (hasks : asks request = true)
    (hnext : ∀ now reply, ∃ r, next now reply = .done r ∧
      if Exchange.worked ⟨request, reply⟩ then r.IsSuccess else r.IsFailure) :
    AsksOnce asks hindered (.ask request next)

namespace Task

variable {asks : Request → Bool} {hindered : Prop} {task : Task}

/-- A quiet task asks nothing. -/
theorem IsQuiet.calls_eq_nil (h : task.IsQuiet hindered) (wake : Nat → Wake) :
    task.calls wake = [] := by
  cases h with
  | refused | done => rfl
  | sleep _ hnext =>
    obtain ⟨r, hdone, -⟩ := hnext (wake 0).moment.now
    simp only [calls, hdone]

/-- A quiet task works unless it is hindered. -/
theorem IsQuiet.outcome (h : task.IsQuiet hindered) (wake : Nat → Wake) :
    (hindered ∧ (task.result wake).IsFailure) ∨ (¬ hindered ∧ (task.result wake).IsSuccess) := by
  cases h with
  | refused hhindered hr => exact .inl ⟨hhindered, hr⟩
  | done hfree hr => exact .inr ⟨hfree, hr⟩
  | sleep hfree hnext =>
    obtain ⟨r, hdone, hr⟩ := hnext (wake 0).moment.now
    refine .inr ⟨hfree, ?_⟩
    rwa [result, hdone]

/-- A task that asks once fails without asking if it is hindered, and otherwise has its one reply
decide. -/
theorem AsksOnce.outcome (h : task.AsksOnce asks hindered) (wake : Nat → Wake) :
    (hindered ∧ task.calls wake = [] ∧ (task.result wake).IsFailure) ∨
      (¬ hindered ∧ ∃ call, task.calls wake = [call] ∧ asks call.request = true ∧
        if call.worked then (task.result wake).IsSuccess else (task.result wake).IsFailure) := by
  cases h with
  | refused hhindered hr => exact .inl ⟨hhindered, rfl, hr⟩
  | @ask request _ hfree hasks hnext =>
    obtain ⟨r, hdone, hr⟩ := hnext (wake 0).moment.now ((wake 0).reply request)
    refine .inr ⟨hfree, ⟨request, (wake 0).reply request⟩, ?_, hasks, ?_⟩
    · simp only [calls, hdone]
    · rwa [result, hdone]

end Task

namespace Executor

variable {channels : List Channel} {n : Node} {asks : Request → Bool}

/-- What is the case of the failure at settings that cannot be read, and of the work on settings
that can be read, is the case of the whole task. -/
theorem withSettings_of {α : Type} {layout : Layout α} {work : α → Task} {obstacle : α → Prop}
    (shape : Prop → Task → Prop) (hunread : ∀ text, shape True (.done (.failure text)))
    (hread : ∀ settings, shape (obstacle settings) (work settings)) :
    shape (n.IsHindered layout obstacle) (withSettings layout n work) := by
  unfold withSettings Node.IsHindered
  cases n.settingsAs layout with
  | ok settings => exact hread settings
  | error fault => exact hunread fault.message

theorem isQuiet_withSettings {α : Type} {layout : Layout α} {work : α → Task}
    (h : ∀ settings, (work settings).IsQuiet False) :
    (withSettings layout n work).IsQuiet (n.IsHindered layout fun _ => False) :=
  withSettings_of Task.IsQuiet
    (fun text => .refused trivial (ActionResult.isFailure_failure text)) h

theorem asksOnce_withSettings {α : Type} {layout : Layout α} {work : α → Task}
    {obstacle : α → Prop} (h : ∀ settings, (work settings).AsksOnce asks (obstacle settings)) :
    (withSettings layout n work).AsksOnce asks (n.IsHindered layout obstacle) :=
  withSettings_of (Task.AsksOnce asks)
    (fun text => .refused trivial (ActionResult.isFailure_failure text)) h

open ActionResult (isSuccess_proceed isSuccess_finish isFailure_failure)

theorem isQuiet_trigger (now : Instant) (e : Execution) :
    (trigger.perform now n e).IsQuiet False :=
  .done id ((isSuccess_proceed.withVariable _ _).withData _)

theorem isSuccess_choose (settings : BranchSettings) (vars : Variables) :
    (Branch.choose settings vars).IsSuccess := by
  unfold Branch.choose
  dsimp only
  cases settings.condition.evaluate vars <;> dsimp only <;> split <;> exact ⟨rfl, rfl⟩

theorem isQuiet_branch (now : Instant) (e : Execution) :
    (branch.perform now n e).IsQuiet (n.IsHindered BranchSettings.layout fun _ => False) :=
  isQuiet_withSettings fun settings => .done id (isSuccess_choose settings e.vars)

theorem isQuiet_delay (now : Instant) (e : Execution) :
    (delay.perform now n e).IsQuiet (n.IsHindered DelaySettings.layout fun _ => False) :=
  isQuiet_withSettings fun _ => .sleep id fun _ => ⟨_, rfl, isSuccess_proceed.withData _⟩

theorem isQuiet_finish (now : Instant) (e : Execution) :
    (finish.perform now n e).IsQuiet (n.IsHindered EndSettings.layout fun _ => False) :=
  isQuiet_withSettings fun _ => .done id (isSuccess_finish.withVariables _)

theorem asksOnce_messaging (hasks : ∀ message, asks (.send message) = true) (now : Instant)
    (e : Execution) : ((messaging channels).perform now n e).AsksOnce asks
      (n.IsHindered MessageSettings.layout (NodeType.IsUndeliverable channels n e.vars)) := by
  refine asksOnce_withSettings fun settings => ?_
  unfold NodeType.IsUndeliverable
  split
  next hbody => exact .refused (.inl hbody) (isFailure_failure _)
  next body hbody =>
    dsimp only
    split
    next hblank => exact .refused (.inr (.inl hblank)) (isFailure_failure _)
    next hblank =>
      split
      next hsender =>
        refine .ask (by simp_all) (hasks _) fun now reply => ⟨_, rfl, ?_⟩
        cases reply with
        | ok receipt => exact (isSuccess_proceed.withVariable _ _).withData _
        | error fault => exact isFailure_failure _
      next hsender =>
        exact .refused (.inr (.inr (by simpa using hsender))) (isFailure_failure _)

theorem asksOnce_completing (hasks : ∀ completion, asks (.complete completion) = true)
    (now : Instant) (e : Execution) : (completing.perform now n e).AsksOnce asks
      (n.IsHindered CompletionSettings.layout fun _ => False) := by
  refine asksOnce_withSettings fun settings => .ask id (hasks _) fun now reply => ⟨_, rfl, ?_⟩
  cases reply with
  | ok reply => exact (isSuccess_proceed.withVariable _ _).withData _
  | error fault => exact isFailure_failure _

theorem asksOnce_http (hasks : ∀ call, asks (.dispatch call) = true) (now : Instant)
    (e : Execution) : (http.perform now n e).AsksOnce asks
      (n.IsHindered HttpSettings.layout fun _ => False) := by
  refine asksOnce_withSettings fun settings => .ask id (hasks _) fun now reply => ⟨_, rfl, ?_⟩
  cases reply with
  | ok reply =>
    have hworked : Exchange.worked ⟨.dispatch (Http.call settings e.vars), .ok reply⟩ =
        reply.isSuccess := by
      simp only [Exchange.worked, HttpReply.isSuccess, Nat.lt_succ_iff]
    rw [hworked]
    dsimp only [Http.settle]
    split
    next =>
      split
      next => exact (isSuccess_proceed.withData _).withVariable _ _
      next => exact isSuccess_proceed.withData _
    next => exact (isFailure_failure _).withData _
  | error fault => exact isFailure_failure _

theorem asksOnce_contact (hasks : ∀ contact fields, asks (.updateContact contact fields) = true)
    (now : Instant) (e : Execution) : (contact.perform now n e).AsksOnce asks
      (n.IsHindered ContactSettings.layout (NodeType.IsUnknownContact e.vars)) := by
  refine asksOnce_withSettings fun settings => ?_
  unfold NodeType.IsUnknownContact
  dsimp only
  split
  next hunknown => exact .refused (by simpa using hunknown) (isFailure_failure _)
  next hknown =>
    refine .ask (by simpa using hknown) (hasks _ _) fun now reply => ⟨_, rfl, ?_⟩
    cases reply with
    | ok stored => exact (isSuccess_proceed.withVariable _ _).withData _
    | error fault => exact isFailure_failure _

theorem asksOnce_tracking (hasks : ∀ event, asks (.track event) = true) (now : Instant)
    (e : Execution) : (tracking.perform now n e).AsksOnce asks
      (n.IsHindered EventSettings.layout fun _ => False) := by
  refine asksOnce_withSettings fun settings => .ask id (hasks _) fun now reply => ⟨_, rfl, ?_⟩
  cases reply with
  | ok => exact isSuccess_proceed.withVariable _ _
  | error fault => exact isFailure_failure _

variable {type : NodeType} {x : Executor}

/-- The executor of a type that needs a service asks it once. -/
theorem asksOnce_builtIn (hx : builtIn? channels type = some x) (hneeds : type.needsService = true)
    (now : Instant) (e : Execution) :
    (x.perform now n e).AsksOnce type.asks (type.IsHindered channels n e.vars) := by
  cases type with
  | sendMessage | sendWhatsapp | sendEmail | sendSms =>
    cases hx
    exact asksOnce_messaging (fun _ => rfl) now e
  | aiResponse =>
    cases hx
    exact asksOnce_completing (fun _ => rfl) now e
  | webhook | apiCall =>
    cases hx
    exact asksOnce_http (fun _ => rfl) now e
  | updateContact =>
    cases hx
    exact asksOnce_contact (fun _ _ => rfl) now e
  | trackEvent =>
    cases hx
    exact asksOnce_tracking (fun _ => rfl) now e
  | trigger | condition | delay | finish | custom => exact nomatch hneeds

/-- The executor of a type that needs no service asks nothing. -/
theorem isQuiet_builtIn (hx : builtIn? channels type = some x)
    (hneeds : type.needsService = false) (now : Instant) (e : Execution) :
    (x.perform now n e).IsQuiet (type.IsHindered channels n e.vars) := by
  cases type with
  | trigger =>
    cases hx
    exact isQuiet_trigger now e
  | condition =>
    cases hx
    exact isQuiet_branch now e
  | delay =>
    cases hx
    exact isQuiet_delay now e
  | finish =>
    cases hx
    exact isQuiet_finish now e
  | custom => exact nomatch hx
  | sendMessage | sendWhatsapp | sendEmail | sendSms | aiResponse | webhook | apiCall
  | updateContact | trackEvent => exact nomatch hneeds

/-- An attempt that did not work leaves the variables of the run as they were. -/
theorem vars_conclude_of_failed {r : ActionResult} (hr : r.IsSuccess ∨ r.IsFailure)
    (hfailed : r.success = false) (engine : Engine) (f : Funnel) (t : Traversal) (wake : Wake) :
    (t.conclude engine f wake n r).execution.vars = t.execution.vars := by
  rcases hr with hr | hr
  · exact absurd (hr.success.symm.trans hfailed) (by decide)
  · rw [Traversal.vars_conclude, hr.vars]
    rfl

/-- **A built-in executor, whatever the services do, comes to a success without an error or to a
failure that tells an error and changes no variable. It asks a service at most once, and not at all
where settings, message or contact hinder it; and where it needs a service, it asks exactly if
nothing hinders it and succeeds exactly if what it asked for worked.** -/
theorem builtIn_outcome (hx : builtIn? channels type = some x) (now : Instant) (n : Node)
    (e : Execution) (wake : Nat → Wake) :
    let task := x.perform now n e
    let r := task.result wake
    (r.IsSuccess ∨ r.IsFailure) ∧
      (r.success = false → ∀ (engine : Engine) (f : Funnel) (t : Traversal) (wake : Wake),
        (t.conclude engine f wake n r).execution.vars = t.execution.vars) ∧
      (task.calls wake).length ≤ 1 ∧
      (type.IsHindered channels n e.vars → task.calls wake = [] ∧ r.IsFailure) ∧
      (type.needsService = true →
        (task.calls wake = [] ↔ type.IsHindered channels n e.vars) ∧
        (r.success = true ↔ ∃ call, task.calls wake = [call] ∧ type.asks call.request = true ∧
          call.worked = true)) := by
  intro task r
  cases hneeds : type.needsService with
  | false =>
    have hquiet := isQuiet_builtIn (n := n) hx hneeds now e
    have hcalls : task.calls wake = [] := hquiet.calls_eq_nil wake
    have hr : r.IsSuccess ∨ r.IsFailure := (hquiet.outcome wake).symm.imp And.right And.right
    refine ⟨hr, vars_conclude_of_failed hr, by simp [hcalls], fun hhindered => ⟨hcalls, ?_⟩, nofun⟩
    exact (hquiet.outcome wake).elim And.right fun h => absurd hhindered h.1
  | true =>
    -- Either something hinders the executor and nothing is asked, or one answer decides.
    rcases (asksOnce_builtIn (n := n) hx hneeds now e).outcome wake with
      ⟨hhindered, hcalls, hr⟩ | ⟨hfree, call, hcalls, hasks, hr⟩
    · refine ⟨.inr hr, vars_conclude_of_failed (.inr hr), by simp [task, hcalls],
        fun _ => ⟨hcalls, hr⟩, fun _ => ⟨by simp [task, hcalls, hhindered], ?_⟩⟩
      have hfailed : r.success = false := hr.success
      simp [task, hcalls, hfailed]
    · obtain ⟨hboth, hsuccess⟩ : (r.IsSuccess ∨ r.IsFailure) ∧ r.success = call.worked := by
        split at hr
        next hworked => exact ⟨.inl hr, hr.success.trans hworked.symm⟩
        next hworked => exact ⟨.inr hr, hr.success.trans (Bool.eq_false_of_not_eq_true hworked).symm⟩
      refine ⟨hboth, vars_conclude_of_failed hboth, by simp [task, hcalls],
        fun hhindered => absurd hhindered hfree, fun _ => ⟨by simp [task, hcalls, hfree], ?_⟩⟩
      simp [task, hcalls, hsuccess, hasks]

/-- A request that its endpoint never answers is made once, and fails; without an address none is
made. -/
theorem webhook_outcome :
    let node (settings : Json) : Node := ⟨"a", .webhook, "", settings, [], none⟩
    let task (settings : Json) : Task :=
      http.perform default (node settings) (.create Wake.outage.moment "f" none [])
    let called := task (.object [("url", .string "http://a.example")])
    let refused := task .null
    (called.result fun _ => .outage).IsFailure ∧ (called.calls fun _ => .outage).length = 1 ∧
      (refused.result fun _ => .outage).IsFailure ∧ (refused.calls fun _ => .outage) = [] := by
  intro node task called refused
  obtain ⟨hcalled, -⟩ := @builtIn_outcome [] .webhook http rfl
    default (node (.object [("url", .string "http://a.example")]))
    (.create Wake.outage.moment "f" none []) fun _ => .outage
  obtain ⟨-, -, -, hhindered, -⟩ := @builtIn_outcome [] .webhook http rfl
    default (node .null) (.create Wake.outage.moment "f" none []) fun _ => .outage
  obtain ⟨hcalls, hfailed⟩ := hhindered trivial
  refine ⟨hcalled.resolve_left fun h => ?_, rfl, hfailed, hcalls⟩
  exact absurd h.success (by decide)

end Executor

end Outreach
