import Outreach.Proofs.System.Alone
import Outreach.Store.Memory

/-!
# Runs that are refused

A call that draws the identifier of a registered run is refused. Its run tries nothing and has failed
at once. But like every run that closes it forgets its identifier and writes its execution under it,
and both belong to the run that was there before: this one goes on, and no request to cancel it can
reach it any more (`System.refused_disowns`).
-/

namespace Outreach

/-- The execution of a call whose identifier is taken when it gets its slot. -/
def Execution.refused (moment : Moment) (call : Call) : Execution :=
  (ofCall moment call).abort moment (.alreadyActive (moment.fresh 0))

namespace Execution

variable (moment : Moment) (call : Call)

theorem id_refused : (refused moment call).id = moment.fresh 0 :=
  ((ofCall moment call).keeps_settle moment (.error (.alreadyActive (moment.fresh 0)))).id

theorem status_refused : (refused moment call).status = .failed :=
  (abort_of_isRunning moment (isBusy_ofCall moment call).running _).1

end Execution

/-! ## The run that is refused -/

namespace Run

/-- A run that has closed with an execution, and could be seen to do nothing but write it. -/
structure IsRefused (r : Run) (e : Execution) : Prop where
  closed : r.IsClosed
  execution : r.execution = e
  trace : r.walk.trace = [.snapshot e]

theorem IsRefused.resume {r : Run} {e : Execution} (h : r.IsRefused e) (engine : Engine)
    (wake : Wake) (m : Manager) : (r.resume engine wake m).1.IsRefused e := by
  have hwalk := h.closed.walk_resume engine wake m
  refine ⟨h.closed.resume engine wake m, ?_, ?_⟩
  · exact (congrArg Traversal.execution hwalk).trans h.execution
  · exact (congrArg Traversal.trace hwalk).trans h.trace

/-- A run whose identifier is taken is refused, and forgets who has taken it. -/
theorem start_of_isActive {moment : Moment} {call : Call} {m : Manager}
    (h : m.isActive (moment.fresh 0) = true) :
    (start moment call m).1.phase = .closing ∧
      (start moment call m).1.IsRefused (.refused moment call) ∧
      (start moment call m).2 = m.deregister (moment.fresh 0) := by
  have hstart := opensOrCloses_start moment call m
  generalize start moment call m = next at hstart ⊢
  cases hstart with
  | opens hfree => cases h.symm.trans hfree
  | closes =>
    refine ⟨rfl, ⟨.inl rfl, rfl, rfl⟩, ?_⟩
    exact congrArg m.deregister (Execution.id_refused moment call)

end Run

/-! ## Tokens that nobody can reach -/

namespace Manager

/-- A token that no registration has, tripped or not. -/
structure IsLost (m : Manager) (token : Nat) (tripped : Bool) : Prop where
  issued : token < m.tokens.length
  unregistered : ∀ entry ∈ m.active, entry.token ≠ token
  tripped : m.isTripped token = tripped

namespace IsLost

variable {m m' : Manager} {token : Nat} {tripped : Bool}

theorem of_active_subset (h : m.IsLost token tripped) (htokens : m'.tokens = m.tokens)
    (hactive : m'.active ⊆ m.active) : m'.IsLost token tripped := by
  refine ⟨htokens ▸ h.issued, fun entry hentry => h.unregistered entry (hactive hentry), ?_⟩
  rw [isTripped, htokens]
  exact h.tripped

theorem cancel (h : m.IsLost token tripped) (id : Identifier) :
    (m.cancel id).IsLost token tripped := by
  refine ⟨(length_tokens_cancel id).symm ▸ h.issued, (active_cancel id).symm ▸ h.unregistered, ?_⟩
  unfold Manager.cancel
  split
  next entry hfind =>
    have hother : entry.token ≠ token := h.unregistered entry (List.mem_of_find?_eq_some hfind)
    have htripped := h.tripped
    rw [isTripped, List.getD_eq_getElem?_getD] at htripped ⊢
    rwa [List.getElem?_set_ne hother]
  next => exact h.tripped

theorem start (h : m.IsLost token tripped) (moment : Moment) (call : Call) :
    (Run.start moment call m).2.IsLost token tripped := by
  have hsame := isTripped_start_of_lt h.issued moment call
  have hstart := Run.opensOrCloses_start moment call m
  generalize Run.start moment call m = next at hsame hstart ⊢
  cases hstart with
  | opens =>
    refine ⟨?_, fun entry hentry => ?_, hsame.trans h.tripped⟩
    · simpa using Nat.lt_succ_of_lt h.issued
    · rcases mem_insert.mp hentry with rfl | hentry
      · exact Nat.ne_of_gt h.issued
      · exact h.unregistered entry hentry
  | closes => exact h.of_active_subset rfl (List.filter_subset_self _)

theorem goOn (h : m.IsLost token tripped) {next : Run × Manager} (hnext : Run.WalksOrCloses m next) :
    next.2.IsLost token tripped := by
  cases hnext with
  | walks => exact h
  | closes => exact h.of_active_subset rfl (List.filter_subset_self _)

end IsLost

/-- The token of a run that is reached is lost when its identifier is forgotten. -/
theorem Lists.isLost_deregister {m : Manager} {jobs : List Job} (h : m.Lists jobs) {job : Nat}
    {r : Run} (hjob : jobs[job]? = some (.begun r)) {entry : ActiveRun} (hholds : r.Holds entry) :
    (m.deregister entry.id).IsLost entry.token (m.isTripped entry.token) := by
  refine ⟨h.issued hjob hholds.token, fun other hother hsame => ?_, rfl⟩
  obtain ⟨hother, hkept⟩ := List.mem_filter.mp hother
  obtain ⟨place, r', hplace, hholds'⟩ := h.active other hother
  obtain rfl : job = place := h.apart hjob hplace hholds.token (hsame ▸ hholds'.token)
  obtain rfl : r = r' := by simpa [hjob] using hplace
  have hid : other.id = entry.id := hholds'.id.symm.trans hholds.id
  simp [hid] at hkept

end Manager

namespace System

variable {σ : Type} {access : StoreAccess σ} {engine : Engine} {s s' : System σ} {job : Nat}
  {r : Run}

/-- **A token that is lost stays lost**, and tripped or not as it was. -/
theorem Change.isLost (h : s.Change access engine s') {token : Nat} {tripped : Bool}
    (hs : s.manager.IsLost token tripped) : s'.manager.IsLost token tripped := by
  cases h with
  | rest => exact hs
  | call => exact hs
  | cancel id => exact hs.cancel id
  | @begin _ call _ moment _ hslot =>
    obtain rfl := Manager.acquire?_eq_some hslot
    have hacquired : Manager.IsLost { s.manager with taken := s.manager.taken + 1 } token tripped :=
      hs.of_active_subset rfl (List.Subset.refl _)
    exact hacquired.start moment call
  | goOn wake _ hgoing => exact hs.goOn (hgoing.resume engine wake s.manager)
  | finish => exact hs.of_active_subset rfl (List.Subset.refl _)

/-- What a run keeps from each wait to the next it keeps at its place. -/
theorem Change.keeps_run (h : s.Change access engine s') {P : Run → Prop}
    (hkeep : ∀ r wake manager, P r → P (r.resume engine wake manager).1)
    (hs : ∃ r, s.jobs[job]? = some (.begun r) ∧ P r) :
    ∃ r, s'.jobs[job]? = some (.begun r) ∧ P r := by
  obtain ⟨r, hjob, hr⟩ := hs
  obtain ⟨hlt, -⟩ := List.getElem?_eq_some_iff.mp hjob
  cases h with
  | rest => exact ⟨r, hjob, hr⟩
  | call => exact ⟨r, (List.getElem?_append_left hlt).trans hjob, hr⟩
  | cancel => exact ⟨r, hjob, hr⟩
  | @begin other _ _ _ hwaiting _ =>
    have hne : other ≠ job := by
      rintro rfl
      simp [hjob] at hwaiting
    exact ⟨r, (List.getElem?_set_ne hne).trans hjob, hr⟩
  | @goOn other running wake hrunning _ =>
    by_cases hsame : other = job
    · subst hsame
      obtain rfl : r = running := by simpa [hjob] using hrunning
      exact ⟨_, List.getElem?_set_self hlt, hkeep r wake s.manager hr⟩
    · exact ⟨r, (List.getElem?_set_ne hsame).trans hjob, hr⟩
  | @finish other closing wake hplace hclosing =>
    by_cases hsame : other = job
    · subst hsame
      obtain rfl : r = closing := by simpa [hjob] using hplace
      have hreturned := hkeep r wake s.manager hr
      rw [Run.resume_of_closing hclosing] at hreturned
      exact ⟨_, List.getElem?_set_self hlt, hreturned⟩
    · exact ⟨r, (List.getElem?_set_ne hsame).trans hjob, hr⟩

theorem performAll_keeps_run (s : System σ) {P : Run → Prop}
    (hkeep : ∀ r wake manager, P r → P (r.resume engine wake manager).1)
    (hjob : s.jobs[job]? = some (.begun r)) (hr : P r) (actions : List Action) :
    ∃ r, (s.performAll access engine actions).jobs[job]? = some (.begun r) ∧ P r :=
  performAll_keeps (P := fun s => ∃ r, s.jobs[job]? = some (.begun r) ∧ P r) s ⟨r, hjob, hr⟩
    (fun _ _ hchange hs => hchange.keeps_run hkeep hs) actions

/-! ## The system afterwards -/

/-- What refusing a call leaves of a system. -/
theorem grant_of_isActive (h : s.grantsTo job = true) {moment : Moment}
    (htaken : s.manager.isActive (moment.fresh 0) = true) (access : StoreAccess σ)
    (engine : Engine) :
    ∃ call refused, s.jobs[job]? = some (.waiting call) ∧ refused.phase = .closing ∧
      refused.IsRefused (.refused moment call) ∧
      (s.grant access engine moment).jobs = s.jobs.set job (.begun refused) ∧
      (s.grant access engine moment).manager =
        { s.manager with taken := s.manager.taken + 1 }.deregister (moment.fresh 0) ∧
      (s.grant access engine moment).store =
        (access.set s.store moment.now.milliseconds (Execution.keyOf (moment.fresh 0))
          (.refused moment call) engine.limits.keepFor).2 := by
  obtain ⟨call, manager, hjob, hslot, hgrant⟩ := grant_of_grantsTo h access engine moment
  obtain rfl := Manager.acquire?_eq_some hslot
  have htaken : Manager.isActive { s.manager with taken := s.manager.taken + 1 }
    (moment.fresh 0) = true := htaken
  obtain ⟨hphase, hrefused, hmanager⟩ : _ ∧ (Run.start moment call _).1.IsRefused _ ∧ _ :=
    Run.start_of_isActive htaken
  rw [hgrant]
  refine ⟨call, _, hjob, hphase, hrefused, rfl, hmanager, ?_⟩
  have hkey : (Execution.refused moment call).key = Execution.keyOf (moment.fresh 0) :=
    congrArg Execution.keyOf (Execution.id_refused moment call)
  simp [place, keep, hrefused.trace, Sighting.snapshot?, hkey]

end System

/-- What is left of a run when a call was refused for its sake: it goes on, but whether it is
cancelled is settled for good. -/
structure Run.IsDisowned (r r' : Run) (m m' : Manager) : Prop where
  token : r'.token = r.token
  cancelled : r'.isCancelled m' = r.isCancelled m

namespace System

variable {σ : Type} {access : StoreAccess σ} {engine : Engine} {s : System σ} {job : Nat}
  {r : Run}

/-- A run whose token is lost is disowned, whatever happens to its system. -/
theorem exists_isDisowned {token : Nat} {m : Manager} (htoken : r.token = some token)
    (hjob : s.jobs[job]? = some (.begun r))
    (hlost : s.manager.IsLost token (m.isTripped token)) (actions : List Action) :
    ∃ r', (s.performAll access engine actions).jobs[job]? = some (.begun r') ∧
      r.IsDisowned r' m (s.performAll access engine actions).manager := by
  have hkeep (r' : Run) (wake : Wake) (manager : Manager) (hr' : r'.token = some token) :
      (r'.resume engine wake manager).1.token = some token :=
    (Run.token_resume ..).trans hr'
  obtain ⟨r', hjob', htoken'⟩ := s.performAll_keeps_run hkeep hjob htoken actions
  have hkeep (s s' : System σ) (hchange : s.Change access engine s')
      (hs : s.manager.IsLost token (m.isTripped token)) :
      s'.manager.IsLost token (m.isTripped token) := hchange.isLost hs
  have hlast := performAll_keeps s hlost hkeep actions
  refine ⟨r', hjob', htoken'.trans htoken.symm, ?_⟩
  rw [Run.isCancelled, Run.isCancelled, htoken', htoken]
  exact hlast.tripped

variable (access engine)

/-- **A call whose identifier is taken is refused, and disowns the run that has taken it**, whatever
the funnels, the executors, the limits and the store are and however the runs take turns. The refused
run starts no executor: nothing can be seen of it, now or later, but that it writes its execution,
which has failed, and it returns when it is resumed. The run that owned the identifier is under way
and could be reached by a request to cancel it until then. Now its registration is gone and the others
are as they were; the store was asked to keep the failed execution under its key; and whether it is
cancelled does not change any more, whatever happens. -/
theorem refused_disowns (store : σ) (actions : List Action) {moment : Moment}
    (hgrants : ((create engine.limits store).performAll access engine actions).grantsTo job = true)
    (htaken : ((create engine.limits store).performAll access engine actions).manager.isActive
      (moment.fresh 0) = true) :
    let s := (create engine.limits store).performAll access engine actions
    let refusing (more : List Action) := s.performAll access engine (.grant moment :: more)
    ∃ (call : Call) (owner : Nat) (r : Run), s.jobs[job]? = some (.waiting call) ∧
      s.jobs[owner]? = some (.begun r) ∧ r.execution.id = moment.fresh 0 ∧
      r.IsReachable s.manager ∧
      (Execution.refused moment call).status = .failed ∧
      (∀ wake, ∃ refused, (refusing [.resume job wake]).jobs[job]? = some (.begun refused) ∧
        refused.phase = .returned) ∧
      (∀ entry, entry ∈ (refusing []).manager.active ↔
        entry ∈ s.manager.active ∧ entry.id ≠ moment.fresh 0) ∧
      (refusing []).store = (access.set s.store moment.now.milliseconds
        (Execution.keyOf (moment.fresh 0)) (.refused moment call) engine.limits.keepFor).2 ∧
      ∀ more,
        (∃ refused, (refusing more).jobs[job]? = some (.begun refused) ∧
          refused.IsRefused (.refused moment call)) ∧
        ∃ r', (refusing more).jobs[owner]? = some (.begun r') ∧
          r.IsDisowned r' s.manager (refusing more).manager := by
  intro s refusing
  have hs : s.InOrder access engine store := inOrder_performAll access engine store actions
  obtain ⟨call, refused, hjob, hphase, hrefused, hjobs, hmanager, hstore⟩ :=
    grant_of_isActive hgrants htaken access engine
  obtain ⟨owner, r, howner, hid, hreach⟩ := hs.lists.exists_isReachable htaken
  obtain ⟨hlt, -⟩ := List.getElem?_eq_some_iff.mp hjob
  have hne : job ≠ owner := by
    rintro rfl
    cases hjob.symm.trans howner
  have hplace : (s.grant access engine moment).jobs[job]? = some (.begun refused) := by
    rw [hjobs]
    exact List.getElem?_set_self hlt
  have hother : (s.grant access engine moment).jobs[owner]? = some (.begun r) := by
    rw [hjobs]
    exact (List.getElem?_set_ne hne).trans howner
  obtain ⟨entry, hfind, hholds⟩ := id hreach
  have hentry : entry.id = moment.fresh 0 := hholds.id.symm.trans hid
  have hlost : (s.grant access engine moment).manager.IsLost entry.token
      (s.manager.isTripped entry.token) := by
    have hforgotten := hs.lists.isLost_deregister howner hholds
    rw [hentry] at hforgotten
    rw [hmanager]
    exact hforgotten.of_active_subset rfl (List.Subset.refl _)
  refine ⟨call, owner, r, hjob, howner, hid, hreach, Execution.status_refused moment call, ?_, ?_,
    hstore, ?_⟩
  · intro wake
    refine ⟨_, jobs_resume hplace wake, ?_⟩
    rw [Run.resume_of_closing hphase]
  · intro other
    have hactive : (refusing []).manager.active =
        s.manager.active.filter fun run => run.id != moment.fresh 0 :=
      congrArg Manager.active hmanager
    rw [hactive, List.mem_filter, bne_iff_ne]
  · intro more
    have hkeep (r : Run) (wake : Wake) (manager : Manager)
        (hr : r.IsRefused (.refused moment call)) := hr.resume engine wake manager
    exact ⟨performAll_keeps_run _ hkeep hplace hrefused more,
      exists_isDisowned hholds.token hother hlost more⟩

end System

/-- Two calls that get the same identifier one after the other. -/
def Action.rivals : List Action :=
  let call : Call := ⟨.straight, none, []⟩
  [.call call, .call call, .grant Wake.outage.moment]

/-- The run that was there first goes on uncancelled after a request to cancel it, for which it is
resumed in vain. -/
theorem System.rival_disowned :
    let engine : Engine := ⟨.builtIn [], .standard⟩
    let s := (create engine.limits []).performAll MemoryStore.access engine Action.rivals
    let refusing (more : List Action) :=
      s.performAll MemoryStore.access engine (.grant Wake.outage.moment :: more)
    s.grantsTo 1 = true ∧ s.manager.isActive default = true ∧
      (∃ refused, (refusing [.resume 1 .outage]).jobs[1]? = some (.begun refused) ∧
        refused.phase = .returned) ∧
      ∃ r r', s.jobs[0]? = some (.begun r) ∧ r.isCancelled s.manager = false ∧
        (refusing [.cancel default, .resume 0 .outage]).jobs[0]? = some (.begun r') ∧
        r'.isCancelled (refusing [.cancel default, .resume 0 .outage]).manager = false := by
  intro engine s refusing
  have hgrants : s.grantsTo 1 = true := by decide
  have htaken : s.manager.isActive (Wake.outage.moment.fresh 0) = true := by decide
  obtain ⟨call, owner, r, -, howner, -, -, -, hreturns, -, -, hmore⟩ :=
    refused_disowns MemoryStore.access engine [] Action.rivals hgrants htaken
  obtain ⟨first, waiting, hjobs, hgoesOn⟩ : ∃ first waiting,
      s.jobs = [.begun first, .waiting waiting] ∧ first.isCancelled s.manager = false :=
    ⟨_, _, rfl, rfl⟩
  rw [hjobs] at howner
  obtain ⟨rfl, rfl⟩ : owner = 0 ∧ r = first := by
    match owner, howner with
    | 0, howner => exact ⟨rfl, by simpa using howner.symm⟩
    | 1, howner => simp at howner
    | _ + 2, howner => simp at howner
  obtain ⟨-, r', hafter, hdisowned⟩ := hmore [.cancel default, .resume 0 .outage]
  exact ⟨hgrants, htaken, hreturns .outage, r, r', congrArg (·[0]?) hjobs, hgoesOn, hafter,
    hdisowned.cancelled.trans hgoesOn⟩

/-- **The run that was there first does not stay untouched.** It is under way, registered and kept in
the store as running; once the other call is refused it is still under way, but no longer registered,
a request to cancel it changes nothing, and it is kept as failed. -/
theorem System.owner_disowned :
    let engine : Engine := ⟨.builtIn [], .standard⟩
    let s := (create engine.limits []).performAll MemoryStore.access engine Action.rivals
    let s' := s.performAll MemoryStore.access engine [.grant Wake.outage.moment, .resume 1 .outage]
    let refused : Execution := .refused Wake.outage.moment ⟨.straight, none, []⟩
    let kept (s : System MemoryStore) :=
      (Members.get? (Execution.keyOf default) s.store).map MemoryEntry.snapshot
    ∃ r : Run, s.jobs[0]? = some (.begun r) ∧ r.execution.id = default ∧
      r.execution.status = .running ∧ s.manager.isActive default = true ∧
      kept s = some (.ofExecution r.execution) ∧
      s'.jobs[0]? = some (.begun r) ∧ s'.manager.isActive default = false ∧
      s'.manager.cancel default = s'.manager ∧
      kept s' = some (.ofExecution refused) ∧ refused.status = .failed :=
  ⟨_, rfl, rfl, rfl, rfl, rfl, rfl, rfl, rfl, rfl, rfl⟩

end Outreach
