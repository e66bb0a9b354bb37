import Outreach.Executor.BuiltIn
import Outreach.Proofs.Funnel.Routes
import Outreach.Proofs.System.Ledger
import Outreach.Proofs.System.Registration

/-!
# What is left of a run that has returned

Whatever has happened to a system, a run in it that has returned left everything in order
(`System.returned_in_order`): its execution says how it ended, it is registered no longer, it has
reported exactly once, and its execution is the last snapshot that it offered to the store.
-/

namespace Outreach

namespace System

variable {σ : Type}

/-- A system in which all is in order: its runs come from calls, only those under way are registered,
and all that it stored and reported is accounted for. -/
structure InOrder (access : StoreAccess σ) (engine : Engine) (store : σ) (s : System σ) : Prop where
  runs : s.RunsCalls engine
  lists : s.manager.Lists s.jobs
  accounts : ∃ l : Ledger, l.Accounts access engine store s

variable (access : StoreAccess σ) (engine : Engine) (store : σ)

theorem inOrder_create : (create engine.limits store).InOrder access engine store := by
  have hlists : (create engine.limits store).manager.Lists [] := ⟨by simp, by simp, nofun⟩
  have haccounts : Ledger.Accounts access engine store (create engine.limits store) ⟨[], []⟩ :=
    ⟨rfl, rfl, fun _ => by simp [create, Ledger.offeredBy],
      fun _ => by simp [create, Ledger.reportsOf]⟩
  exact ⟨by simp [RunsCalls, create], hlists, ⟨_, haccounts⟩⟩

/-- **Whatever happens to a system, it stays in order.** -/
theorem inOrder_performAll (actions : List Action) :
    ((create engine.limits store).performAll access engine actions).InOrder access engine store :=
  performAll_keeps _ (inOrder_create access engine store)
    (fun _ _ hchange hs => ⟨hchange.runsCalls hs.runs, hchange.lists hs.runs hs.lists,
      hchange.accounts hs.runs hs.accounts⟩) actions

/-- **A run that has returned left everything in order**, whatever the funnels, the executors, the
limits, the store and the cancellations were and however the runs took turns. Its execution has ended
and says how. No registration has its token, and should its identifier be registered, then by another
run. There is a ledger of all that was offered to the store and reported, in which this run has one
report, of a failure with the text of its fault or else of its status, and in which it offered its
execution last. -/
theorem returned_in_order (actions : List Action) {job : Nat} {r : Run}
    (hjob : ((create engine.limits store).performAll access engine actions).jobs[job]? =
      some (.begun r))
    (hreturned : r.phase = .returned) :
    let s := (create engine.limits store).performAll access engine actions
    r.execution.EndsBy r.outcome ∧
      (∀ entry ∈ s.manager.active, r.token ≠ some entry.token) ∧
      (s.manager.isActive r.execution.id = true →
        ∃ (other : Nat) (r' : Run), other ≠ job ∧ s.jobs[other]? = some (.begun r') ∧
          r'.IsUnderWay ∧ r'.execution.id = r.execution.id) ∧
      ∃ l : Ledger, l.Accounts access engine store s ∧
        l.reportsOf job = [.due r.execution.status r.outcome] ∧
        (l.offeredBy job).getLast? = some r.execution := by
  intro s
  have hs : s.InOrder access engine store := inOrder_performAll access engine store actions
  have hclosed : r.IsClosed := .inr hreturned
  obtain ⟨moment, call, hr⟩ := hs.runs hjob
  obtain ⟨l, hl⟩ := hs.accounts
  have hends : r.execution.EndsBy r.outcome := hr.endsBy hclosed
  refine ⟨hends, fun entry hentry => hs.lists.token_ne_of_isClosed hjob hclosed hentry,
    hs.lists.exists_other_of_isActive hjob hclosed, l, hl, ?_, ?_⟩
  · rw [hl.reported, hjob, ← hends.report_eq]
    exact Job.reports_begun_of_eq hreturned
  · rw [hl.offered, hjob]
    exact hr.getLast?_snapshots hclosed

end System

/-- What is learned when no time passes and no service can be reached. -/
def Wake.outage : Wake where
  moment := ⟨default, fun _ => default⟩
  cancelled := false
  spent := 0
  reply
    | .send _ | .dispatch _ | .complete _ | .updateContact _ _ | .track _ => .error .timeout
    | .delegate _ _ => ⟨.failure "", none, false⟩

/-- Two calls that got the same identifier, the second of which returns at once. -/
def Action.collision : List Action :=
  let call : Call := ⟨.straight, none, []⟩
  [.call call, .call call, .grant Wake.outage.moment, .grant Wake.outage.moment,
    .resume 1 .outage]

/-- The run whose identifier was taken has failed, and reports it, though the store cannot be
reached; the run that took it is under way still. -/
theorem System.refused_returned_in_order :
    let access : StoreAccess Unit := .failing Unit (.storage "")
    let engine : Engine := ⟨.builtIn [], .standard⟩
    let s := (create engine.limits ()).performAll access engine Action.collision
    ∃ r, s.jobs[1]? = some (.begun r) ∧ r.phase = .returned ∧
      r.execution.EndsBy (.error (.alreadyActive default)) ∧
      (∀ entry ∈ s.manager.active, r.token ≠ some entry.token) ∧
      ∃ l : Ledger, l.Accounts access engine () s ∧
        l.reportsOf 1 = [.failed .failed (EngineFault.alreadyActive default).message] ∧
        (l.offeredBy 1).getLast? = some r.execution := by
  intro access engine s
  have hjob : s.jobs[1]? = some (.begun _) := rfl
  obtain ⟨hends, htoken, -, l, hl, hreport, hlast⟩ :=
    returned_in_order access engine () Action.collision hjob rfl
  exact ⟨_, hjob, rfl, hends, htoken, l, hl, hreport, hlast⟩

end Outreach
