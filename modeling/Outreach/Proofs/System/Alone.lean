import Outreach.Proofs.System.Occupancy

/-!
# A run among others and the same run alone

The runs of a system share its manager, its slots and its store, and their snapshots can be read
from outside. What of all this concerns one call (`System.ownActions`) can happen to a system that
has no other call. Step by step the run stands there where it stands among the others
(`System.Mirrors.happen`), so that it comes to the same execution (`System.mirrors_happenAll`).
-/

namespace Outreach

/-- What happens to a system whose snapshots can be read from outside. -/
inductive Happening where
  | act (action : Action)
  /-- The latest snapshot of an execution is read. -/
  | read (now : Nat) (id : Identifier)

namespace System

variable {σ : Type} (access : StoreAccess σ) (engine : Engine)

/-- What a happening does to a system. The store may change when it is read. -/
def happen (s : System σ) : Happening → System σ
  | .act action => s.perform access engine action
  | .read now id => { s with store := (access.get s.store now (Execution.keyOf id)).2 }

/-- What happenings do one after the other. -/
def happenAll (s : System σ) (happenings : List Happening) : System σ :=
  happenings.foldl (happen access engine) s

/-- Whether the next slot goes to the call at a place. -/
def grantsTo (s : System σ) (job : Nat) : Bool :=
  s.manager.acquire?.isSome && s.jobs.findIdx? Job.isWaiting == some job

/-- What of a happening concerns the call at a place, and the run that draws an identifier for it:
as an action in a system in which this call comes first. -/
def ownAction? (s : System σ) (job : Nat) (id : Identifier) : Happening → Option Action
  | .act (.call call) => if s.jobs.length = job then some (.call call) else none
  | .act (.grant moment) => if s.grantsTo job then some (.grant moment) else none
  | .act (.resume other wake) => if other = job then some (.resume 0 wake) else none
  | .act (.cancel other) => if other = id then some (.cancel id) else none
  | .read _ _ => none

/-- All that concerns the call at a place. -/
def ownActions (job : Nat) (id : Identifier) : System σ → List Happening → List Action
  | _, [] => []
  | s, happening :: rest =>
    (s.ownAction? job id happening).toList ++
      ownActions job id (s.happen access engine happening) rest

end System

/-- The identifier of a run without others is its own. -/
theorem Job.ownsId_zero {jobs : List Job} (h : jobs.length ≤ 1) : Job.OwnsId jobs 0 := by
  intro r _ other r' hother _
  obtain ⟨hlt, -⟩ := List.getElem?_eq_some_iff.mp hother
  exact Nat.lt_one_iff.mp (hlt.trans_le h)

/-! ## Two runs in step -/

namespace Run

variable {m m' n n' : Manager} {r r' : Run} {engine : Engine}

/-- A run that stands where another stands, and is cancelled if the other is. -/
structure Mirrors (m m' : Manager) (r r' : Run) : Prop where
  funnel : r'.funnel = r.funnel
  phase : r'.phase = r.phase
  walk : r'.walk = r.walk
  cancelled : r'.isCancelled m' = r.isCancelled m

/-- Only the token of a run matters to whether it is cancelled. -/
theorem isCancelled_congr
    (h : ∀ token, r.token = some token → n.isTripped token = m.isTripped token) :
    r.isCancelled n = r.isCancelled m := by
  rw [isCancelled, isCancelled]
  cases htoken : r.token with
  | none => rfl
  | some token => exact h token htoken

theorem isCancelled_of_tokens (h : n.tokens = m.tokens) (r : Run) :
    r.isCancelled n = r.isCancelled m :=
  isCancelled_congr fun token _ => by rw [Manager.isTripped, Manager.isTripped, h]

/-- A run learns nothing from the manager but whether it is cancelled. -/
theorem resume_withToken {token : Option Nat}
    (h : isCancelled { r with token } m' = r.isCancelled m) (engine : Engine) (wake : Wake) :
    (resume engine wake { r with token } m').1 = { (r.resume engine wake m).1 with token } := by
  have hfollow (moment : Moment) (walk : Traversal) :
      (follow { r with token } moment walk m').1 =
        { (r.follow moment walk m).1 with token } := by
    unfold follow
    dsimp only
    split <;> rfl
  unfold resume
  rw [h]
  dsimp only
  split
  next =>
    split
    next => rfl
    next => exact hfollow ..
  next => exact hfollow ..
  next => rfl
  next => rfl

/-- Runs in step stay in step when they are resumed at the same wake. -/
theorem Mirrors.resume (h : r.Mirrors m m' r') (wake : Wake) (hm : n.tokens = m.tokens)
    (hm' : n'.tokens = m'.tokens) :
    (r.resume engine wake m).1.Mirrors n n' (r'.resume engine wake m').1 := by
  have hsame : r' = { r with token := r'.token } := by
    obtain ⟨hfunnel, hphase, hwalk, -⟩ := h
    cases r
    cases r'
    cases hfunnel
    cases hphase
    cases hwalk
    rfl
  have hcancelled : isCancelled { r with token := r'.token } m' = r.isCancelled m :=
    hsame ▸ h.cancelled
  have hnext := resume_withToken hcancelled engine wake
  rw [← hsame] at hnext
  have hkept : (r'.resume engine wake m').1.isCancelled n' =
      (r.resume engine wake m).1.isCancelled n := by
    rw [isCancelled_of_tokens hm', isCancelled_of_tokens hm, isCancelled, isCancelled, token_resume,
      token_resume]
    exact h.cancelled
  rw [hnext] at hkept ⊢
  exact ⟨rfl, rfl, rfl, hkept⟩

/-- A run that begins with its identifier free begins like any other run of its call. -/
theorem mirrors_start {moment : Moment} {call : Call}
    (h : m.isActive (Execution.ofCall moment call).id = false)
    (h' : m'.isActive (Execution.ofCall moment call).id = false) :
    (start moment call m).1.Mirrors (start moment call m).2 (start moment call m').2
      (start moment call m').1 := by
  have hfresh {m : Manager} (h : m.isActive (Execution.ofCall moment call).id = false) :
      (start moment call m).1 = ⟨call.funnel, some m.tokens.length, .opening,
          (Traversal.ready (Execution.ofCall moment call)).see
            (.snapshot (Execution.ofCall moment call))⟩ ∧
        (start moment call m).1.isCancelled (start moment call m).2 = false := by
    have hstart := opensOrCloses_start moment call m
    generalize start moment call m = next at hstart ⊢
    cases hstart with
    | opens => exact ⟨rfl, by simp [isCancelled, Manager.isTripped]⟩
    | closes htaken => cases h.symm.trans htaken
  obtain ⟨hrun, hgoing⟩ := hfresh h
  obtain ⟨hrun', hgoing'⟩ := hfresh h'
  have hboth := hgoing'.trans hgoing.symm
  rw [hrun, hrun'] at hboth ⊢
  exact ⟨rfl, rfl, rfl, hboth⟩

/-- Runs leave the tokens alone. -/
theorem tokens_resume (engine : Engine) (wake : Wake) (r : Run) (m : Manager) :
    (r.resume engine wake m).2.tokens = m.tokens := by
  by_cases hgoing : r.IsUnderWay
  · have hnext := hgoing.resume engine wake m
    generalize r.resume engine wake m = next at hnext
    cases hnext with
    | walks | closes => rfl
  · rcases isClosed_of_not_isUnderWay hgoing with hphase | hphase <;>
      simp [Run.resume, hphase]

end Run

/-! ## The manager among others -/

namespace Manager

variable {m : Manager}

/-- A run that begins leaves the tokens of the others alone. -/
theorem isTripped_start_of_lt {token : Nat} (h : token < m.tokens.length) (moment : Moment)
    (call : Call) : (Run.start moment call m).2.isTripped token = m.isTripped token := by
  have hstart := Run.opensOrCloses_start moment call m
  generalize Run.start moment call m = next at hstart ⊢
  cases hstart with
  | opens => simp [isTripped, List.getD_eq_getElem?_getD, List.getElem?_append_left h]
  | closes => rfl

/-- A run that begins leaves the registrations of other identifiers alone. -/
theorem mem_active_start {entry : ActiveRun} (h : entry ∈ m.active) {moment : Moment} {call : Call}
    (hid : entry.id ≠ (Run.start moment call m).1.execution.id) :
    entry ∈ (Run.start moment call m).2.active := by
  have hstart := Run.opensOrCloses_start moment call m
  generalize Run.start moment call m = next at hid hstart ⊢
  cases hstart with
  | opens => exact mem_insert.mpr (.inr h)
  | closes => exact List.mem_filter.mpr ⟨h, bne_iff_ne.mpr hid⟩

variable {jobs : List Job} {job other : Nat}

namespace Knows

theorem begin (h : m.Knows jobs job) (hlists : m.Lists jobs) {moment : Moment} {call : Call}
    (hother : jobs[other]? = some (.waiting call))
    (hown : Job.OwnsId (jobs.set other (.begun (Run.start moment call m).1)) job) :
    (Run.start moment call m).2.Knows
      (jobs.set other (.begun (Run.start moment call m).1)) job := by
  intro r hjob hgoing
  obtain ⟨hlt, -⟩ := List.getElem?_eq_some_iff.mp hother
  rcases Job.getElem?_set_eq_begun hjob with ⟨rfl, rfl⟩ | ⟨hne, hbefore⟩
  · have hfree := hlists.not_isActive hother hown
    obtain ⟨-, entry, hentry, hactive⟩ := Run.start_of_not_isActive hfree
    refine ⟨entry, ?_, hentry⟩
    rw [hactive]
    exact mem_insert.mpr (.inl rfl)
  · obtain ⟨entry, hmem, hentry⟩ := h hbefore hgoing
    refine ⟨entry, mem_active_start hmem fun hsame => ?_, hentry⟩
    rw [(Run.registration?_eq_some hentry).2] at hsame
    exact hne (hown hjob (List.getElem?_set_self hlt) hsame.symm)

theorem goOn (h : m.Knows jobs job) {running : Run} (hother : jobs[other]? = some (.begun running))
    (hrunning : running.IsUnderWay) {next : Run × Manager} (hnext : Run.WalksOrCloses m next)
    (hsame : next.1.registration? = running.registration?)
    (hown : Job.OwnsId (jobs.set other (.begun next.1)) job) :
    next.2.Knows (jobs.set other (.begun next.1)) job := by
  intro r hjob hgoing
  obtain ⟨hlt, -⟩ := List.getElem?_eq_some_iff.mp hother
  rcases Job.getElem?_set_eq_begun hjob with ⟨rfl, rfl⟩ | ⟨hne, hbefore⟩
  · obtain ⟨entry, hmem, hentry⟩ := h hother hrunning
    cases hnext with
    | walks => exact ⟨entry, hmem, hsame.trans hentry⟩
    | closes hphase => exact absurd hgoing (Run.IsClosed.not_isUnderWay (.inl hphase))
  · obtain ⟨entry, hmem, hentry⟩ := h hbefore hgoing
    cases hnext with
    | walks => exact ⟨entry, hmem, hentry⟩
    | closes =>
      -- Another run closes, and another identifier is forgotten.
      refine ⟨entry, List.mem_filter.mpr ⟨hmem, bne_iff_ne.mpr fun hforgotten => ?_⟩, hentry⟩
      rw [(Run.registration?_eq_some hentry).2] at hforgotten
      exact hne (hown hjob (List.getElem?_set_self hlt) hforgotten.symm)

end Knows

end Manager

namespace System

variable {σ : Type} {access : StoreAccess σ} {engine : Engine} {s s' : System σ} {job : Nat}

/-- **A run whose identifier is its own stays registered until it closes**, whatever happens to its
system. -/
theorem Change.knows (h : s.Change access engine s') (hruns : s.RunsCalls engine)
    (hlists : s.manager.Lists s.jobs) (hs : s.manager.Knows s.jobs job)
    (hown : Job.OwnsId s'.jobs job) : s'.manager.Knows s'.jobs job := by
  cases h with
  | rest => exact hs
  | call => exact fun _ hjob => hs (Job.getElem?_append_eq_begun hjob)
  | cancel =>
    rw [Manager.Knows, Manager.active_cancel]
    exact hs
  | begin moment hwaiting hslot =>
    obtain rfl := Manager.acquire?_eq_some hslot
    have hacquired : Manager.Knows { s.manager with taken := s.manager.taken + 1 } s.jobs job := hs
    exact hacquired.begin (hlists.congr rfl rfl) hwaiting hown
  | goOn wake hrunning hgoing =>
    obtain ⟨moment, call, hr⟩ := hruns hrunning
    exact hs.goOn hrunning hgoing (hgoing.resume engine wake s.manager)
      (hr.registration?_resume wake s.manager) hown
  | finish wake hplace hclosing =>
    intro r hjob hgoing
    rcases Job.getElem?_set_eq_begun hjob with ⟨-, rfl⟩ | ⟨-, hbefore⟩
    · exact absurd hgoing (Run.IsClosed.not_isUnderWay (.inr rfl))
    · exact hs hbefore hgoing

/-! ## One action -/

/-- The next slot goes to the call at the place. -/
theorem grant_of_grantsTo (h : s.grantsTo job = true) (access : StoreAccess σ) (engine : Engine)
    (moment : Moment) : ∃ call manager, s.jobs[job]? = some (.waiting call) ∧
      s.manager.acquire? = some manager ∧
      s.grant access engine moment = s.place access engine moment.now.milliseconds job 0
        (Run.start moment call manager).1 (Run.start moment call manager).2 := by
  obtain ⟨hslot, hfirst⟩ := Bool.and_eq_true_iff.mp h
  obtain ⟨manager, hslot⟩ := Option.isSome_iff_exists.mp hslot
  have hfirst : s.jobs.findIdx? Job.isWaiting = some job := by simpa using hfirst
  obtain ⟨hlt, hwaiting, -⟩ := List.findIdx?_eq_some_iff_getElem.mp hfirst
  have hjob : s.jobs[job]? = some s.jobs[job] := List.getElem?_eq_getElem hlt
  cases hplace : s.jobs[job] with
  | begun r => simp [hplace, Job.isWaiting] at hwaiting
  | waiting call =>
    rw [hplace] at hjob
    refine ⟨call, manager, hjob, hslot, ?_⟩
    rw [grant, hfirst, hslot]
    dsimp only
    rw [hjob]

/-- The next slot goes to another call, or to none. -/
theorem grant_of_not_grantsTo (h : s.grantsTo job = false) (access : StoreAccess σ)
    (engine : Engine) (moment : Moment) :
    (s.grant access engine moment).jobs[job]? = s.jobs[job]? ∧
      ∀ token < s.manager.tokens.length,
        (s.grant access engine moment).manager.isTripped token = s.manager.isTripped token := by
  unfold grant
  split
  next other manager hfirst hslot =>
    have hne : other ≠ job := by
      rintro rfl
      simp [grantsTo, hfirst, hslot] at h
    obtain rfl := Manager.acquire?_eq_some hslot
    split
    next call hother =>
      refine ⟨List.getElem?_set_ne hne, fun _ hlt => ?_⟩
      exact Manager.isTripped_start_of_lt (m := { s.manager with taken := s.manager.taken + 1 }) hlt
        moment call
    next => exact ⟨rfl, fun _ _ => rfl⟩
  next => exact ⟨rfl, fun _ _ => rfl⟩

/-- A run goes on at its place; otherwise nothing happens. -/
theorem resume_cases (s : System σ) (access : StoreAccess σ) (engine : Engine) (job : Nat)
    (wake : Wake) :
    s.resume access engine job wake = s ∨ ∃ r, s.jobs[job]? = some (.begun r) ∧
      (s.resume access engine job wake).jobs =
        s.jobs.set job (.begun (r.resume engine wake s.manager).1) ∧
      (s.resume access engine job wake).manager.tokens = s.manager.tokens := by
  unfold resume
  split
  next r hjob =>
    split
    next => exact .inl rfl
    next =>
      refine .inr ⟨r, hjob, ?_⟩
      dsimp only
      split <;> exact ⟨rfl, r.tokens_resume engine wake s.manager⟩
  next => exact .inl rfl

theorem jobs_resume_of_ne {other : Nat} (hne : other ≠ job) (s : System σ) (access : StoreAccess σ)
    (engine : Engine) (wake : Wake) :
    (s.resume access engine other wake).jobs[job]? = s.jobs[job]? := by
  rcases s.resume_cases access engine other wake with hsame | ⟨r, -, hjobs, -⟩
  · rw [hsame]
  · rw [hjobs, List.getElem?_set_ne hne]

theorem tokens_resume (s : System σ) (access : StoreAccess σ) (engine : Engine) (job : Nat)
    (wake : Wake) : (s.resume access engine job wake).manager.tokens = s.manager.tokens := by
  rcases s.resume_cases access engine job wake with hsame | ⟨r, -, -, htokens⟩
  · rw [hsame]
  · exact htokens

theorem resume_of_not_begun (h : ∀ r, s.jobs[job]? ≠ some (.begun r)) (access : StoreAccess σ)
    (engine : Engine) (wake : Wake) : s.resume access engine job wake = s := by
  rcases s.resume_cases access engine job wake with hsame | ⟨r, hjob, -, -⟩
  · exact hsame
  · exact absurd hjob (h r)

/-- A run that is alone is alone after it has gone on. -/
theorem jobs_resume_alone {r : Run} (h : s.jobs = [.begun r]) (access : StoreAccess σ)
    (engine : Engine) (wake : Wake) : (s.resume access engine 0 wake).jobs =
      [.begun (r.resume engine wake s.manager).1] := by
  have hjob : s.jobs[0]? = some (.begun r) := by rw [h]; rfl
  rcases s.resume_cases access engine 0 wake with hsame | ⟨r', hplace, hjobs, -⟩
  · have hnext : (s.resume access engine 0 wake).jobs[0]? = some (.begun _) :=
      jobs_resume hjob wake
    rw [hsame, hjob] at hnext
    rw [hsame, h, Option.some.inj hnext]
  · obtain rfl : r = r' := by simpa [hjob] using hplace
    rw [hjobs, h]
    rfl

/-! ## One happening -/

variable {τ : Type} {access' : StoreAccess τ} {t : System τ} {id : Identifier}

/-- A system in which a manager is in order and knows the run at a place. -/
structure Tends (engine : Engine) (s : System σ) (job : Nat) : Prop where
  runs : s.RunsCalls engine
  lists : s.manager.Lists s.jobs
  counts : s.manager.Counts engine.limits.concurrent s.jobs
  knows : s.manager.Knows s.jobs job

theorem Change.tends (h : s.Change access engine s') (hs : s.Tends engine job)
    (hown : Job.OwnsId s'.jobs job) : s'.Tends engine job :=
  ⟨h.runsCalls hs.runs, h.lists hs.runs hs.lists, h.counts hs.counts,
    h.knows hs.runs hs.lists hs.knows hown⟩

/-- A system in which a call comes alone, and its run stands where it stands in another system. -/
inductive Mirrors (s : System σ) (t : System τ) (job : Nat) : Prop
  | absent (hjob : s.jobs[job]? = none) (halone : t.jobs = [])
  | waiting {call : Call} (hjob : s.jobs[job]? = some (.waiting call))
    (halone : t.jobs = [.waiting call])
  | begun {r r' : Run} (hjob : s.jobs[job]? = some (.begun r)) (halone : t.jobs = [.begun r'])
    (hr : r.Mirrors s.manager t.manager r')

namespace Mirrors

/-- Nothing happens to the call alone when nothing happens to it among the others. -/
theorem congr (h : s.Mirrors t job) (hjobs : s'.jobs[job]? = s.jobs[job]?)
    (hcancelled : ∀ r, s.jobs[job]? = some (.begun r) →
      r.isCancelled s'.manager = r.isCancelled s.manager) : s'.Mirrors t job := by
  cases h with
  | absent hjob halone => exact .absent (hjobs.trans hjob) halone
  | waiting hjob halone => exact .waiting (hjobs.trans hjob) halone
  | begun hjob halone hr =>
    have hkept := hr.cancelled.trans (hcancelled _ hjob).symm
    exact .begun (hjobs.trans hjob) halone ⟨hr.funnel, hr.phase, hr.walk, hkept⟩

theorem ownsId_zero (h : s.Mirrors t job) : Job.OwnsId t.jobs 0 := by
  cases h with
  | absent _ halone | waiting _ halone | begun _ halone =>
    rw [halone]
    exact Job.ownsId_zero (by simp)

theorem call (h : s.Mirrors t job) (call : Call) :
    (s.perform access engine (.call call)).Mirrors
      (t.performAll access' engine (s.ownAction? job id (.act (.call call))).toList) job := by
  rw [ownAction?]
  by_cases hlast : s.jobs.length = job
  · rw [if_pos hlast]
    subst hlast
    cases h with
    | absent _ halone =>
      have halone' : t.jobs ++ [.waiting call] = [.waiting call] := by rw [halone]; rfl
      exact .waiting List.getElem?_concat_length halone'
    | waiting hjob | begun hjob => simp at hjob
  · rw [if_neg hlast]
    refine h.congr ?_ fun _ _ => rfl
    rcases Nat.lt_or_gt_of_ne hlast with hlt | hgt
    · rw [List.getElem?_eq_none (Nat.le_of_lt hlt)]
      exact List.getElem?_eq_none (by simpa [perform] using Nat.succ_le_of_lt hlt)
    · exact List.getElem?_append_left hgt

theorem grant (h : s.Mirrors t job) (hs : s.Tends engine job) (ht : t.Tends engine 0)
    (moment : Moment) (hown : Job.OwnsId (s.grant access engine moment).jobs job) :
    (s.perform access engine (.grant moment)).Mirrors
      (t.performAll access' engine (s.ownAction? job id (.act (.grant moment))).toList) job := by
  rw [ownAction?]
  cases hgrants : s.grantsTo job with
  | false =>
    obtain ⟨hjobs, htripped⟩ := grant_of_not_grantsTo hgrants access engine moment
    exact h.congr hjobs fun r hjob => Run.isCancelled_congr fun token htoken =>
      htripped token (hs.lists.issued hjob htoken)
  | true =>
    obtain ⟨call, manager, hjob, hslot, hgrant⟩ := grant_of_grantsTo hgrants access engine moment
    have halone : t.jobs = [.waiting call] := by
      cases h with
      | absent hnone => simp [hjob] at hnone
      | begun hbegun => simp [hjob] at hbegun
      | waiting hwaiting halone =>
        obtain ⟨rfl⟩ : Job.waiting call = .waiting _ := Option.some.inj (hjob.symm.trans hwaiting)
        exact halone
    have hgrants' : t.grantsTo 0 = true := by
      have hfree : t.manager.taken < t.manager.capacity := by
        rw [ht.counts.taken, ht.counts.capacity, halone]
        exact Nat.lt_of_lt_of_le Nat.zero_lt_one (Nat.le_max_right _ _)
      rw [grantsTo, halone, Manager.acquire?, if_pos hfree]
      rfl
    obtain ⟨call', manager', hjob', hslot', hgrant'⟩ :=
      grant_of_grantsTo hgrants' access' engine moment
    obtain rfl : call = call' := by simpa [halone] using hjob'
    have hlists : manager.Lists s.jobs := by
      obtain rfl := Manager.acquire?_eq_some hslot
      exact hs.lists.congr rfl rfl
    have hlists' : manager'.Lists t.jobs := by
      obtain rfl := Manager.acquire?_eq_some hslot'
      exact ht.lists.congr rfl rfl
    rw [hgrant] at hown
    have hstart := Run.mirrors_start (hlists.not_isActive hjob hown)
      (hlists'.not_isActive hjob' (Job.ownsId_zero (by simp [halone])))
    have hgranted : t.performAll access' engine [.grant moment] =
      t.grant access' engine moment := rfl
    obtain ⟨hlt, -⟩ := List.getElem?_eq_some_iff.mp hjob
    rw [if_pos rfl, Option.toList_some, hgranted, hgrant', perform, hgrant]
    exact .begun (List.getElem?_set_self hlt) (by rw [place, halone]; rfl) hstart

theorem resume (h : s.Mirrors t job) (other : Nat) (wake : Wake) :
    (s.perform access engine (.resume other wake)).Mirrors
      (t.performAll access' engine (s.ownAction? job id (.act (.resume other wake))).toList)
      job := by
  rw [ownAction?]
  by_cases hsame : other = job
  · rw [if_pos hsame]
    subst hsame
    have hresumed : t.performAll access' engine [.resume 0 wake] =
      t.resume access' engine 0 wake := rfl
    rw [Option.toList_some, hresumed, perform]
    cases h with
    | absent hjob halone =>
      rw [resume_of_not_begun (by simp [hjob]), resume_of_not_begun (by simp [halone])]
      exact .absent hjob halone
    | waiting hjob halone =>
      rw [resume_of_not_begun (by simp [hjob]), resume_of_not_begun (by simp [halone])]
      exact .waiting hjob halone
    | begun hjob halone hr =>
      exact .begun (jobs_resume hjob wake) (jobs_resume_alone halone ..)
        (hr.resume wake (tokens_resume ..) (tokens_resume ..))
  · rw [if_neg hsame]
    exact h.congr (jobs_resume_of_ne hsame ..) fun r _ =>
      Run.isCancelled_of_tokens (tokens_resume ..) r

theorem cancel (h : s.Mirrors t job) (hs : s.Tends engine job) (ht : t.Tends engine 0)
    (hown : Job.OwnsId s.jobs job) (hid : ∀ r, s.jobs[job]? = some (.begun r) → r.execution.id = id)
    (other : Identifier) :
    (s.perform access engine (.cancel other)).Mirrors
      (t.performAll access' engine (s.ownAction? job id (.act (.cancel other))).toList) job := by
  have hown' := h.ownsId_zero
  rw [ownAction?]
  by_cases hsame : other = id
  · rw [if_pos hsame]
    subst hsame
    cases h with
    | absent hjob halone => exact .absent hjob halone
    | waiting hjob halone => exact .waiting hjob halone
    | @begun r r' hjob halone hr =>
      have hjob' : t.jobs[0]? = some (.begun r') := by rw [halone]; rfl
      refine .begun hjob halone ⟨hr.funnel, hr.phase, hr.walk, Bool.eq_iff_iff.mpr ?_⟩
      have hcancel := hs.lists.isCancelled_cancel hs.knows hown hjob other
      have hcancel' := ht.lists.isCancelled_cancel ht.knows hown' hjob' other
      have hid' : r'.execution.id = r.execution.id := by
        rw [Run.execution, Run.execution, hr.walk]
      rw [hr.cancelled, hid', Run.IsUnderWay, hr.phase] at hcancel'
      exact hcancel'.trans hcancel.symm
  · rw [if_neg hsame]
    refine h.congr rfl fun r hjob => Bool.eq_iff_iff.mpr ?_
    have hcancel := hs.lists.isCancelled_cancel hs.knows hown hjob other
    rw [hid r hjob] at hcancel
    exact hcancel.trans (or_iff_left fun hor => hsame hor.1.symm)

end Mirrors

/-- The call stands alone as among the others after whatever happens. -/
theorem Mirrors.happen (h : s.Mirrors t job) (hs : s.Tends engine job) (ht : t.Tends engine 0)
    {happening : Happening} (hown : Job.OwnsId (s.happen access engine happening).jobs job)
    (hid : ∀ r, s.jobs[job]? = some (.begun r) → r.execution.id = id) :
    (s.happen access engine happening).Mirrors
      (t.performAll access' engine (s.ownAction? job id happening).toList) job := by
  cases happening with
  | read => exact h.congr rfl fun _ _ => rfl
  | act action =>
    rw [System.happen] at hown ⊢
    cases action with
    | call call => exact h.call call
    | grant moment => exact h.grant hs ht moment hown
    | resume other wake => exact h.resume other wake
    | cancel other => exact h.cancel hs ht hown hid other

/-! ## All that happens -/

/-- What every change keeps, and what does not depend on the store, holds whatever has happened. -/
theorem happenAll_keeps {P : System σ → Prop} (s : System σ) (hs : P s)
    (hkeep : ∀ s s', s.Change access engine s' → P s → P s')
    (hread : ∀ (s : System σ) (now : Nat) (key : String),
      P s → P { s with store := (access.get s.store now key).2 })
    (happenings : List Happening) : P (s.happenAll access engine happenings) := by
  induction happenings generalizing s with
  | nil => exact hs
  | cons happening rest ih =>
    cases happening with
    | act action => exact ih _ (hkeep _ _ (s.perform_change action) hs)
    | read now id => exact ih _ (hread s now (Execution.keyOf id) hs)

theorem happenAll_concat (s : System σ) (happenings : List Happening) (happening : Happening) :
    s.happenAll access engine (happenings ++ [happening]) =
      (s.happenAll access engine happenings).happen access engine happening :=
  List.foldl_append

theorem ownActions_concat (s : System σ) (happenings : List Happening) (happening : Happening) :
    s.ownActions access engine job id (happenings ++ [happening]) =
      s.ownActions access engine job id happenings ++
        ((s.happenAll access engine happenings).ownAction? job id happening).toList := by
  induction happenings generalizing s with
  | nil => simp [ownActions, happenAll]
  | cons first rest ih =>
    rw [List.cons_append, ownActions, ih, ownActions, List.append_assoc]
    rfl

theorem runsCalls_happenAll (store : σ) (happenings : List Happening) :
    ((create engine.limits store).happenAll access engine happenings).RunsCalls engine :=
  happenAll_keeps (P := fun s => s.RunsCalls engine) _ (by simp [RunsCalls, create])
    (fun _ _ hchange hs => hchange.runsCalls hs) (fun _ _ _ hs => hs) happenings

/-- Whatever has happened, the manager is in order and knows a run whose identifier is its own. -/
theorem tends_happenAll (store : σ) (happenings : List Happening)
    (hown : Job.OwnsId ((create engine.limits store).happenAll access engine happenings).jobs job) :
    ((create engine.limits store).happenAll access engine happenings).Tends engine job := by
  have hcreated : (create engine.limits store).Tends engine job :=
    ⟨by simp [RunsCalls, create], ⟨by simp [create], by simp [create], nofun⟩,
      ⟨rfl, rfl, Nat.zero_le _⟩, by simp [Manager.Knows, create]⟩
  let P (s : System σ) := s.RunsCalls engine ∧ (Job.OwnsId s.jobs job → s.Tends engine job)
  have hkeep (s s' : System σ) (hchange : s.Change access engine s') (hs : P s) : P s' :=
    ⟨hchange.runsCalls hs.1, fun hown =>
      hchange.tends (hs.2 (hchange.ownsId hs.1 hown)) hown⟩
  have hread (s : System σ) (now : Nat) (key : String) (hs : P s) :
      P { s with store := (access.get s.store now key).2 } := by
    refine ⟨hs.1, fun hown => ?_⟩
    obtain ⟨hruns, hlists, hcounts, hknows⟩ := hs.2 hown
    exact ⟨hruns, hlists, hcounts, hknows⟩
  have hkept : P ((create engine.limits store).happenAll access engine happenings) :=
    happenAll_keeps _ ⟨hcreated.runs, fun _ => hcreated⟩ hkeep hread happenings
  exact hkept.2 hown

theorem tends_performAll (store : σ) (actions : List Action)
    (hown : Job.OwnsId ((create engine.limits store).performAll access engine actions).jobs job) :
    ((create engine.limits store).performAll access engine actions).Tends engine job := by
  have hsame : (create engine.limits store).performAll access engine actions =
      (create engine.limits store).happenAll access engine (actions.map .act) := by
    rw [happenAll, List.foldl_map]
    rfl
  rw [hsame] at hown ⊢
  exact tends_happenAll store _ hown

/-- **A run stands alone where it stands among the others**, whatever happens to them, if no other
run drew its identifier. -/
theorem mirrors_happenAll (access : StoreAccess σ) (access' : StoreAccess τ) (engine : Engine)
    (store : σ) (store' : τ) (happenings : List Happening)
    (hown : Job.OwnsId ((create engine.limits store).happenAll access engine happenings).jobs job)
    (hid : ∀ r, ((create engine.limits store).happenAll access engine happenings).jobs[job]? =
      some (.begun r) → r.execution.id = id) :
    ((create engine.limits store).happenAll access engine happenings).Mirrors
      ((create engine.limits store').performAll access' engine
        ((create engine.limits store).ownActions access engine job id happenings)) job := by
  induction happenings using List.reverseRecOn with
  | nil => exact .absent rfl rfl
  | append_singleton rest happening ih =>
    let s := (create engine.limits store).happenAll access engine rest
    rw [happenAll_concat] at hown hid ⊢
    have hruns : s.RunsCalls engine := runsCalls_happenAll store rest
    -- What is known of the run after the last happening was so before.
    have hbefore : Job.OwnsId s.jobs job ∧
        ∀ r, s.jobs[job]? = some (.begun r) → r.execution.id = id := by
      cases happening with
      | read => exact ⟨hown, hid⟩
      | act action =>
        have hchange : s.Change access engine (s.perform access engine action) :=
          s.perform_change action
        refine ⟨hchange.ownsId hruns hown, fun r hjob => ?_⟩
        obtain ⟨r', hjob', hsame, -⟩ := hchange.exists_begun hruns hjob
        exact hsame.symm.trans (hid r' hjob')
    have hmirrors := ih hbefore.1 hbefore.2
    rw [ownActions_concat, performAll_append]
    exact hmirrors.happen (tends_happenAll store rest hbefore.1)
      (tends_performAll store' _ hmirrors.ownsId_zero) hown hbefore.2

end System

end Outreach
