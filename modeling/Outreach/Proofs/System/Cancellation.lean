import Outreach.Proofs.Run.Cancellation
import Outreach.Proofs.Run.Timing
import Outreach.Proofs.System.Returns

/-!
# Cancelling a run of a system

A request to cancel an identifier reaches the run that is registered under it. Its token is tripped
then and stays so, whatever happens to the system (`System.Change.subsides`): the run tries nothing
more (`System.tries_nothing_once_cancelled`), and it returns cancelled, unless there was nothing left
to be noticed by or a fault came first (`System.cancelled_resolves`).
-/

namespace Outreach

open Relation (ReflTransGen)

/-- A run that a request to cancel its identifier reaches: it holds the registration that is found. -/
def Run.IsReachable (r : Run) (m : Manager) : Prop :=
  ∃ entry, m.find? r.execution.id = some entry ∧ r.Holds entry

namespace Manager

variable {m : Manager} {token : Nat}

theorem isTripped_iff : m.isTripped token = true ↔ m.tokens[token]? = some true := by
  rw [isTripped, List.getD_eq_getElem?_getD]
  cases m.tokens[token]? <;> simp

theorem isTripped_cancel_of_isTripped (h : m.isTripped token = true) (id : Identifier) :
    (m.cancel id).isTripped token = true := by
  rw [isTripped_iff] at h ⊢
  obtain ⟨hlt, -⟩ := List.getElem?_eq_some_iff.mp h
  unfold cancel
  split
  next entry _ =>
    by_cases hsame : entry.token = token
    · simp [hsame, hlt]
    · simpa [List.getElem?_set_ne hsame] using h
  next => exact h

/-- A cancellation trips the token that is registered. -/
theorem isTripped_cancel {id : Identifier} {entry : ActiveRun} (hfind : m.find? id = some entry)
    (hissued : entry.token < m.tokens.length) : (m.cancel id).isTripped entry.token = true := by
  rw [cancel, hfind]
  simp [isTripped, hissued]

theorem isTripped_start (h : m.isTripped token = true) (moment : Moment) (call : Call) :
    (Run.start moment call m).2.isTripped token = true := by
  have hstart := Run.opensOrCloses_start moment call m
  generalize Run.start moment call m = next at hstart ⊢
  cases hstart with
  | opens =>
    rw [isTripped_iff] at h ⊢
    obtain ⟨hlt, -⟩ := List.getElem?_eq_some_iff.mp h
    exact (List.getElem?_append_left hlt).trans h
  | closes => exact h

/-- A run that goes on leaves the tokens alone. -/
theorem isTripped_walksOrCloses {next : Run × Manager} (h : Run.WalksOrCloses m next)
    (token : Nat) : next.2.isTripped token = m.isTripped token := by
  cases h with
  | walks => rfl
  | closes => rfl

/-- Whoever is registered is reached by a request to cancel it. -/
theorem Lists.exists_isReachable {jobs : List Job} (h : m.Lists jobs)
    {id : Identifier} (hactive : m.isActive id = true) :
    ∃ (job : Nat) (r : Run), jobs[job]? = some (.begun r) ∧ r.execution.id = id ∧ r.IsReachable m := by
  obtain ⟨entry, hfind⟩ := Option.isSome_iff_exists.mp hactive
  have hid : entry.id = id := by simpa using List.find?_some hfind
  obtain ⟨job, r, hjob, hholds⟩ := h.active entry (List.mem_of_find?_eq_some hfind)
  have hsame : r.execution.id = id := hholds.id.trans hid
  exact ⟨job, r, hjob, hsame, entry, hsame ▸ hfind, hholds⟩

end Manager

namespace Run

variable {r : Run} {m m' : Manager}

theorem isCancelled_iff :
    r.isCancelled m = true ↔ ∃ token, r.token = some token ∧ m.isTripped token = true := by
  rw [isCancelled]
  cases r.token <;> simp

/-- A run is still cancelled when no token was tripped back. -/
theorem isCancelled_mono (h : r.isCancelled m = true)
    (hkeep : ∀ token, m.isTripped token = true → m'.isTripped token = true) :
    r.isCancelled m' = true := by
  obtain ⟨token, htoken, htripped⟩ := isCancelled_iff.mp h
  exact isCancelled_iff.mpr ⟨token, htoken, hkeep token htripped⟩

/-- A run that is reached is cancelled. -/
theorem IsReachable.isCancelled {jobs : List Job} (h : r.IsReachable m) (hlists : m.Lists jobs)
    {job : Nat} (hjob : jobs[job]? = some (.begun r)) :
    r.isCancelled (m.cancel r.execution.id) = true := by
  obtain ⟨entry, hfind, hholds⟩ := h
  have hissued : entry.token < m.tokens.length := hlists.issued hjob hholds.token
  exact isCancelled_iff.mpr ⟨entry.token, hholds.token, Manager.isTripped_cancel hfind hissued⟩

end Run

namespace System

variable {σ : Type} {access : StoreAccess σ} {engine : Engine} {s s' : System σ} {job : Nat}
  {r : Run}

/-- A run in its place, cancelled, that has only subsided since it was `r`. -/
structure HasCancelled (engine : Engine) (s : System σ) (job : Nat) (r r' : Run) : Prop where
  place : s.jobs[job]? = some (.begun r')
  cancelled : r'.isCancelled s.manager = true
  subsides : ReflTransGen (Run.Subsides engine) r r'

/-- **A cancelled run only subsides**, whatever happens to its system, and it stays cancelled. -/
theorem Change.hasCancelled (h : s.Change access engine s') {r' : Run}
    (hs : s.HasCancelled engine job r r') : ∃ r'', s'.HasCancelled engine job r r'' := by
  obtain ⟨hjob, hcancelled, hsubsides⟩ := hs
  cases h with
  | rest => exact ⟨r', hjob, hcancelled, hsubsides⟩
  | call =>
    obtain ⟨hlt, -⟩ := List.getElem?_eq_some_iff.mp hjob
    exact ⟨r', (List.getElem?_append_left hlt).trans hjob, hcancelled, hsubsides⟩
  | cancel id =>
    have hkept := Run.isCancelled_mono hcancelled fun _ htripped =>
      Manager.isTripped_cancel_of_isTripped htripped id
    exact ⟨r', hjob, hkept, hsubsides⟩
  | @begin other call manager moment hwaiting hslot =>
    obtain rfl := Manager.acquire?_eq_some hslot
    have hother : other ≠ job := by
      rintro rfl
      simp [hjob] at hwaiting
    have hkept := Run.isCancelled_mono hcancelled fun _ htripped =>
      Manager.isTripped_start (m := { s.manager with taken := s.manager.taken + 1 }) htripped
        moment call
    exact ⟨r', (List.getElem?_set_ne hother).trans hjob, hkept, hsubsides⟩
  | @goOn other running wake hrunning hgoing =>
    have hkept := Run.isCancelled_mono hcancelled fun token htripped =>
      (Manager.isTripped_walksOrCloses (hgoing.resume engine wake s.manager) token).trans htripped
    by_cases hsame : other = job
    · subst hsame
      obtain rfl : r' = running := by simpa [hjob] using hrunning
      obtain ⟨hlt, -⟩ := List.getElem?_eq_some_iff.mp hjob
      refine ⟨_, List.getElem?_set_self hlt, ?_, hsubsides.tail ⟨wake, _, hcancelled, rfl⟩⟩
      rw [Run.isCancelled, Run.token_resume]
      exact hkept
    · exact ⟨r', (List.getElem?_set_ne hsame).trans hjob, hkept, hsubsides⟩
  | @finish other closing wake hplace hclosing =>
    by_cases hsame : other = job
    · subst hsame
      obtain rfl : r' = closing := by simpa [hjob] using hplace
      obtain ⟨hlt, -⟩ := List.getElem?_eq_some_iff.mp hjob
      refine ⟨_, List.getElem?_set_self hlt, hcancelled, hsubsides.tail ⟨wake, _, hcancelled, ?_⟩⟩
      rw [Run.resume_of_closing hclosing]
    · exact ⟨r', (List.getElem?_set_ne hsame).trans hjob, hcancelled, hsubsides⟩

theorem HasCancelled.performAll {r' : Run} (hs : s.HasCancelled engine job r r')
    (access : StoreAccess σ) (actions : List Action) :
    ∃ r'', (s.performAll access engine actions).HasCancelled engine job r r'' :=
  performAll_keeps (P := fun s => ∃ r', s.HasCancelled engine job r r') s ⟨r', hs⟩
    (fun _ _ hchange ⟨_, hs⟩ => hchange.hasCancelled hs) actions

/-! ## Resuming one run -/

theorem performAll_append (s : System σ) (actions more : List Action) :
    s.performAll access engine (actions ++ more) =
      (s.performAll access engine actions).performAll access engine more :=
  List.foldl_append

theorem jobs_resume (hjob : s.jobs[job]? = some (.begun r)) (wake : Wake) :
    (s.resume access engine job wake).jobs[job]? =
      some (.begun (r.resume engine wake s.manager).1) := by
  obtain ⟨hlt, -⟩ := List.getElem?_eq_some_iff.mp hjob
  unfold resume
  rw [hjob]
  dsimp only
  split
  next hreturned => rw [Run.resume_of_returned hreturned, hjob]
  next => split <;> exact List.getElem?_set_self hlt

/-- A system whose run at one place was resumed at one wake after the other. -/
def resumed (access : StoreAccess σ) (engine : Engine) (s : System σ) (job : Nat)
    (wakes : Nat → Wake) (count : Nat) : System σ :=
  s.performAll access engine ((List.range count).map fun wait => .resume job (wakes wait))

/-- The run at the place goes on at these wakes, with the manager as it is then. -/
theorem jobs_resumed (hjob : s.jobs[job]? = some (.begun r)) (wakes : Nat → Wake) (count : Nat) :
    (s.resumed access engine job wakes count).jobs[job]? = some (.begun (r.after engine
      (fun wait => (wakes wait, (s.resumed access engine job wakes wait).manager)) count)) := by
  induction count with
  | zero => exact hjob
  | succ count ih =>
    have hlast : s.resumed access engine job wakes (count + 1) =
        (s.resumed access engine job wakes count).resume access engine job (wakes count) := by
      rw [resumed, List.range_succ, List.map_append, performAll_append]
      rfl
    rw [hlast]
    exact jobs_resume ih (wakes count)

/-- **A cancelled run returns** as soon as it was resumed often enough. -/
theorem HasCancelled.exists_returned {r' : Run} (hs : s.HasCancelled engine job r r')
    {moment : Moment} {call : Call} (hr : r'.ComesFrom engine moment call) (wakes : Nat → Wake) :
    ∃ count last, (s.resumed access engine job wakes count).jobs[job]? = some (.begun last) ∧
      last.phase = .returned := by
  let course : Course :=
    fun wait => (wakes wait, (s.resumed access engine job wakes wait).manager)
  have hcancelled (wait : Nat) : r'.isCancelled (course wait).2 = true := by
    obtain ⟨last, hlast⟩ := hs.performAll access
      ((List.range wait).map fun wait => .resume job (wakes wait))
    have htoken : last.token = r'.token :=
      (Run.token_of_subsides hlast.subsides).trans (Run.token_of_subsides hs.subsides).symm
    rw [Run.isCancelled, ← htoken]
    exact hlast.cancelled
  obtain ⟨count, hreturned⟩ := hr.returns_of_cancelled hcancelled
  exact ⟨count, _, jobs_resumed hs.place wakes count, hreturned⟩

end System

/-- What is learned when an errand leaves a variable behind. -/
def Wake.errandDone : Wake :=
  { Wake.outage with
    reply
      | .delegate _ _ => ⟨ActionResult.proceed.withVariable "done" (.bool true), none, false⟩
      | request => Wake.outage.reply request }

/-- What happens until an errand is under way. -/
def Action.errand : List Action :=
  [.call ⟨.errands, none, []⟩, .grant Wake.outage.moment, .resume 0 .outage]

/-! ## Cancellations -/

namespace System

variable {σ : Type} {access : StoreAccess σ} {engine : Engine} {store : σ} {s : System σ}
  {job : Nat} {r : Run}

/-- When a run was reached, it has only subsided since, whatever has happened to its system. -/
theorem InOrder.hasCancelled (h : s.InOrder access engine store)
    (hjob : s.jobs[job]? = some (.begun r)) (hreach : r.IsReachable s.manager)
    (more : List Action) :
    ∃ r', (s.performAll access engine (.cancel r.execution.id :: more)).HasCancelled engine job
      r r' :=
  HasCancelled.performAll (s := s.perform access engine (.cancel r.execution.id))
    ⟨hjob, hreach.isCancelled h.lists hjob, .refl⟩ access more

variable (access engine store)

/-- **A cancelled run tries nothing more**, whatever the funnels, the executors, the limits and the
store are, wherever the run waits when it is cancelled and however the runs take turns. Whoever is
registered is reached by a request to cancel it. From then on nothing is tried on the way of the run
that is reached, and its variables stay as they are; or else the work at a node that was under way
comes to its result, and the variables of this result are the last change. -/
theorem tries_nothing_once_cancelled (actions : List Action) :
    let s := (create engine.limits store).performAll access engine actions
    (∀ id, s.manager.isActive id = true → ∃ (job : Nat) (r : Run),
        s.jobs[job]? = some (.begun r) ∧ r.execution.id = id ∧ r.IsReachable s.manager) ∧
      ∀ (job : Nat) (r : Run), s.jobs[job]? = some (.begun r) → r.IsReachable s.manager →
        ∀ more further, ∃ r' r'' : Run,
          (s.performAll access engine (.cancel r.execution.id :: more)).jobs[job]? =
            some (.begun r') ∧
          (s.performAll access engine (.cancel r.execution.id :: more ++ further)).jobs[job]? =
            some (.begun r'') ∧
          r.walk.FadesInto r'.walk ∧ r'.walk.FadesInto r''.walk := by
  intro s
  have hs : s.InOrder access engine store := inOrder_performAll access engine store actions
  refine ⟨fun id hactive => hs.lists.exists_isReachable hactive, ?_⟩
  intro job r hjob hreach more further
  obtain ⟨r', hr'⟩ := hs.hasCancelled hjob hreach more
  have hsince : HasCancelled engine _ job r' r' := ⟨hr'.place, hr'.cancelled, .refl⟩
  obtain ⟨r'', hr''⟩ := hsince.performAll access further
  rw [performAll_append]
  exact ⟨r', r'', hr'.place, hr''.place, Run.fadesInto_of_subsides hr'.subsides,
    Run.fadesInto_of_subsides hr''.subsides⟩

/-- An errand that is under way when its run is cancelled leaves its variable behind, and nothing else
happens in the run any more. -/
theorem errand_is_last :
    let access : StoreAccess Unit := .failing Unit (.storage "")
    let engine : Engine := ⟨.errands, .standard⟩
    let s := (create engine.limits ()).performAll access engine Action.errand
    let actions : List Action := [.cancel default, .resume 0 .errandDone]
    ∃ r : Run, s.jobs[0]? = some (.begun r) ∧ r.IsReachable s.manager ∧ r.execution.vars = [] ∧
      ∀ further, ∃ last : Run,
        (s.performAll access engine (actions ++ further)).jobs[0]? = some (.begun last) ∧
          last.tried = [Funnel.errand] ∧ last.execution.vars = [("done", .bool true)] := by
  intro access engine s actions
  have hjob : s.jobs[0]? = some (.begun _) := rfl
  have hreach : ∀ r : Run, s.jobs[0]? = some (.begun r) → r.IsReachable s.manager := by
    rintro _ ⟨⟩
    exact ⟨_, rfl, rfl, rfl, .inr rfl⟩
  refine ⟨_, hjob, hreach _ hjob, rfl, fun further => ?_⟩
  obtain ⟨r', last, hr', hlast, -, hfades⟩ :=
    (tries_nothing_once_cancelled access engine () Action.errand).2 0 _ hjob (hreach _ hjob)
      [.resume 0 .errandDone] further
  obtain ⟨rfl⟩ : Job.begun _ = .begun r' := Option.some.inj hr'
  refine ⟨last, hlast, hfades.tried_eq, ?_⟩
  cases hfades with
  | rests _ hvars => exact hvars
  | concludes hwork => cases hwork

/-- **How a cancelled run ends**, whatever the funnels, the executors, the limits and the store are. A
run that is running when a request to cancel it reaches it returns as soon as it was resumed often
enough after whatever has happened by then. When it has closed, it is completed exactly if it had
nothing left to try when it was cancelled, it is failed exactly if a fault ended it that could come
before the cancellation was noticed, and otherwise it is cancelled. -/
theorem cancelled_resolves (actions : List Action) {job : Nat} {r : Run}
    (hjob : ((create engine.limits store).performAll access engine actions).jobs[job]? =
      some (.begun r))
    (hreach : r.IsReachable ((create engine.limits store).performAll access engine actions).manager)
    (hrun : r.execution.status = .running) (more : List Action) :
    let s := ((create engine.limits store).performAll access engine actions).performAll access engine
      (.cancel r.execution.id :: more)
    ∃ r' : Run, s.jobs[job]? = some (.begun r') ∧ (r'.IsClosed → r.Resolves engine r') ∧
      ∀ wakes : Nat → Wake, ∃ (count : Nat) (last : Run),
        (s.resumed access engine job wakes count).jobs[job]? = some (.begun last) ∧
          last.phase = .returned := by
  intro s
  have hs := inOrder_performAll access engine store actions
  obtain ⟨moment, call, hr⟩ := hs.runs hjob
  obtain ⟨r', hr'⟩ := hs.hasCancelled hjob hreach more
  obtain ⟨entry, -, hholds⟩ := hreach
  refine ⟨r', hr'.place, fun hclosed => ?_, fun wakes => ?_⟩
  · exact hr.resolves hholds.underWay (Execution.isRunning_of_status hrun) hr'.subsides hclosed
  · exact hr'.exists_returned (hr.subsides hr'.subsides) wakes

/-- A run that is cancelled while its errand is under way has something left to try: it is cancelled,
unless it fails. -/
theorem errand_resolves :
    let access : StoreAccess Unit := .failing Unit (.storage "")
    let engine : Engine := ⟨.errands, .standard⟩
    let s := (create engine.limits ()).performAll access engine Action.errand
    ∃ r : Run, s.jobs[0]? = some (.begun r) ∧ r.IsReachable s.manager ∧
      r.execution.status = .running ∧ ∀ more, ∃ r' : Run,
        (s.performAll access engine (.cancel default :: more)).jobs[0]? = some (.begun r') ∧
          (r'.IsClosed →
            (r'.execution.status = .cancelled ↔ ∀ fault, r'.outcome ≠ .error fault)) := by
  intro access engine s
  have hjob : s.jobs[0]? = some (.begun _) := rfl
  have hreach : ∀ r : Run, s.jobs[0]? = some (.begun r) → r.IsReachable s.manager := by
    rintro _ ⟨⟩
    exact ⟨_, rfl, rfl, rfl, .inr rfl⟩
  refine ⟨_, hjob, hreach _ hjob, rfl, fun more => ?_⟩
  obtain ⟨r', hr', hresolves, -⟩ :=
    cancelled_resolves access engine () Action.errand hjob (hreach _ hjob) rfl more
  refine ⟨r', hr', fun hclosed => ?_⟩
  rw [(hresolves hclosed).cancelled]
  refine and_iff_right fun harriving => ?_
  exact Traversal.not_isArriving_of_work? rfl harriving.2

/-- A run whose errand fails for good after the run was cancelled has failed and is not cancelled. -/
theorem failed_errand_fails :
    let access : StoreAccess Unit := .failing Unit (.storage "")
    let engine : Engine := ⟨.errands, { Limits.standard with retries := 0 }⟩
    let s := (create engine.limits ()).performAll access engine Action.errand
    ∃ r r' : Run, s.jobs[0]? = some (.begun r) ∧ r.execution.status = .running ∧
      s.manager.isActive r.execution.id = true ∧
      (s.performAll access engine [.cancel r.execution.id, .resume 0 .outage,
        .resume 0 .outage]).jobs[0]? = some (.begun r') ∧
      r'.phase = .returned ∧ r'.execution.status = .failed :=
  ⟨_, _, rfl, rfl, rfl, rfl, rfl, rfl⟩

end System

end Outreach
