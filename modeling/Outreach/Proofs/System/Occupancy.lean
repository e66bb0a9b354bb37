import Outreach.Proofs.System.Cancellation

/-!
# Slots and registrations

A run holds a slot from its beginning until it returns, and a registration until it closes. Whatever
happens to a system, its manager counts exactly the slots that are held (`System.Change.counts`). If
no two runs drew the same identifier, it also has one registration for each run under way and no
others (`System.Change.registers`), and a request to cancel an identifier reaches the run that drew
it and no other (`Manager.Lists.isCancelled_cancel`). `System.occupancy_exact` puts this together.
-/

namespace Outreach

instance Run.decidableIsUnderWay (r : Run) : Decidable r.IsUnderWay :=
  inferInstanceAs (Decidable (_ ∨ _))

/-- The registration of a run that has a token. -/
def Run.registration? (r : Run) : Option ActiveRun :=
  r.token.map fun token =>
    ⟨r.execution.id, r.execution.funnelId, r.execution.startedAt, token⟩

namespace Job

/-- Whether a call has a slot: it has begun and not returned. -/
def holdsSlot : Job → Bool
  | .waiting _ => false
  | .begun r => r.phase != .returned

/-- Whether a call has returned. -/
def isReturned : Job → Bool
  | .waiting _ => false
  | .begun r => r.phase == .returned

/-- The run of a call, if it is under way. -/
def underWay? : Job → Option Run
  | .waiting _ => none
  | .begun r => if r.IsUnderWay then some r else none

/-- No other run drew the identifier of the run at a place. -/
def OwnsId (jobs : List Job) (job : Nat) : Prop :=
  ∀ ⦃r : Run⦄, jobs[job]? = some (.begun r) → ∀ ⦃other : Nat⦄ ⦃r' : Run⦄,
    jobs[other]? = some (.begun r') → r'.execution.id = r.execution.id → other = job

/-- No two runs drew the same identifier. -/
def OwnIds (jobs : List Job) : Prop :=
  ∀ job, OwnsId jobs job

variable {jobs : List Job} {job : Nat} {before : Job} {r : Run}

theorem holdsSlot_begun_of_ne (h : r.phase ≠ .returned) : (Job.begun r).holdsSlot = true := by
  simpa [holdsSlot] using h

theorem underWay?_begun_of_isUnderWay (h : r.IsUnderWay) : (Job.begun r).underWay? = some r :=
  if_pos h

theorem underWay?_begun_of_isClosed (h : r.IsClosed) : (Job.begun r).underWay? = none :=
  if_neg h.not_isUnderWay

theorem perm_cons_eraseIdx (hjob : jobs[job]? = some before) :
    jobs.Perm (before :: jobs.eraseIdx job) := by
  obtain ⟨hlt, rfl⟩ := List.getElem?_eq_some_iff.mp hjob
  exact (List.getElem_cons_eraseIdx_perm hlt).symm

theorem set_perm_cons_eraseIdx (hjob : jobs[job]? = some before) (after : Job) :
    (jobs.set job after).Perm (after :: jobs.eraseIdx job) := by
  obtain ⟨hlt, -⟩ := List.getElem?_eq_some_iff.mp hjob
  exact List.set_perm_cons_eraseIdx hlt after

/-- When a call changes, the slots that are held differ by its own. -/
theorem countP_holdsSlot_set (hjob : jobs[job]? = some before) (after : Job) :
    (jobs.set job after).countP holdsSlot + before.holdsSlot.toNat =
      jobs.countP holdsSlot + after.holdsSlot.toNat := by
  rw [(set_perm_cons_eraseIdx hjob after).countP_eq, (perm_cons_eraseIdx hjob).countP_eq]
  cases hbefore : before.holdsSlot <;> cases hafter : after.holdsSlot <;>
    simp [hbefore, hafter]

end Job

/-! ## Slots -/

namespace Manager

variable {m m' : Manager} {concurrent : Nat} {jobs : List Job} {job : Nat} {before after : Job}

/-- A manager that counts the slots that are held, and has enough of them. -/
structure Counts (m : Manager) (concurrent : Nat) (jobs : List Job) : Prop where
  capacity : m.capacity = max concurrent 1
  taken : m.taken = jobs.countP Job.holdsSlot
  bounded : m.taken ≤ m.capacity

theorem capacity_cancel (id : Identifier) : (m.cancel id).capacity = m.capacity := by
  unfold cancel
  split <;> rfl

theorem taken_cancel (id : Identifier) : (m.cancel id).taken = m.taken := by
  unfold cancel
  split <;> rfl

theorem lt_of_acquire?_eq_some (h : m.acquire? = some m') : m.taken < m.capacity := by
  unfold acquire? at h
  split at h
  next hfree => exact hfree
  next => cases h

/-- A run that starts is registered or refused, and its slot was taken before. -/
theorem slots_start (moment : Moment) (call : Call) (m : Manager) :
    (Run.start moment call m).2.capacity = m.capacity ∧
      (Run.start moment call m).2.taken = m.taken := by
  have hstart := Run.opensOrCloses_start moment call m
  generalize Run.start moment call m = next at hstart ⊢
  cases hstart with
  | opens | closes => exact ⟨rfl, rfl⟩

theorem slots_walksOrCloses {next : Run × Manager} (h : Run.WalksOrCloses m next) :
    next.2.capacity = m.capacity ∧ next.2.taken = m.taken := by
  cases h with
  | walks | closes => exact ⟨rfl, rfl⟩

namespace Counts

/-- A call may change if the manager takes notice of the slot that it holds then. -/
theorem set (h : m.Counts concurrent jobs) (hjob : jobs[job]? = some before)
    (hcapacity : m'.capacity = m.capacity)
    (htaken : m'.taken + before.holdsSlot.toNat = m.taken + after.holdsSlot.toNat)
    (hbounded : m'.taken ≤ m.capacity) : m'.Counts concurrent (jobs.set job after) where
  capacity := hcapacity.trans h.capacity
  taken := by
    have hset := Job.countP_holdsSlot_set hjob after
    have hcounted := h.taken
    omega
  bounded := hbounded.trans_eq hcapacity.symm

theorem call (h : m.Counts concurrent jobs) (call : Call) :
    m.Counts concurrent (jobs ++ [.waiting call]) := by
  refine ⟨h.capacity, ?_, h.bounded⟩
  rw [h.taken, List.countP_append]
  rfl

theorem cancel (h : m.Counts concurrent jobs) (id : Identifier) :
    (m.cancel id).Counts concurrent jobs := by
  refine ⟨(capacity_cancel id).trans h.capacity, (taken_cancel id).trans h.taken, ?_⟩
  rw [taken_cancel, capacity_cancel]
  exact h.bounded

theorem begin (h : m.Counts concurrent jobs) {call : Call}
    (hjob : jobs[job]? = some (.waiting call)) (hslot : m.acquire? = some m') (moment : Moment) :
    (Run.start moment call m').2.Counts concurrent
      (jobs.set job (.begun (Run.start moment call m').1)) := by
  have hfree : m.taken < m.capacity := lt_of_acquire?_eq_some hslot
  obtain rfl := acquire?_eq_some hslot
  obtain ⟨hcapacity, htaken⟩ := slots_start moment call { m with taken := m.taken + 1 }
  refine h.set hjob hcapacity ?_ (htaken.trans_le hfree)
  rw [Job.holdsSlot_begun_of_ne (Run.phase_start_ne_returned moment call _)]
  exact htaken

theorem goOn (h : m.Counts concurrent jobs) {r : Run} (hjob : jobs[job]? = some (.begun r))
    (hgoing : r.IsUnderWay) {next : Run × Manager} (hnext : Run.WalksOrCloses m next) :
    next.2.Counts concurrent (jobs.set job (.begun next.1)) := by
  obtain ⟨hcapacity, htaken⟩ := slots_walksOrCloses hnext
  refine h.set hjob hcapacity ?_ (htaken.trans_le h.bounded)
  rw [Job.holdsSlot_begun_of_ne hgoing.phase_ne_returned,
    Job.holdsSlot_begun_of_ne hnext.phase_ne_returned, htaken]

theorem finish (h : m.Counts concurrent jobs) {r : Run} (hjob : jobs[job]? = some (.begun r))
    (hclosing : r.phase = .closing) :
    m.release.Counts concurrent (jobs.set job (.begun { r with phase := .returned })) := by
  have hheld : (Job.begun r).holdsSlot = true := Job.holdsSlot_begun_of_ne (by simp [hclosing])
  have hsome : 0 < m.taken := by
    rw [h.taken, List.countP_pos_iff]
    exact ⟨_, List.mem_of_getElem? hjob, hheld⟩
  refine h.set hjob rfl ?_ ((Nat.sub_le _ 1).trans h.bounded)
  rw [hheld]
  exact Nat.sub_add_cancel hsome

end Counts

end Manager

namespace System

variable {σ : Type} {access : StoreAccess σ} {engine : Engine} {s s' : System σ}

/-- **Every change leaves the slots counted.** A slot is taken when a run begins, kept while it goes
on and given back when it returns. -/
theorem Change.counts (h : s.Change access engine s') {concurrent : Nat}
    (hs : s.manager.Counts concurrent s.jobs) : s'.manager.Counts concurrent s'.jobs := by
  cases h with
  | rest => exact hs
  | call call => exact hs.call call
  | cancel id => exact hs.cancel id
  | begin moment hjob hslot => exact hs.begin hjob hslot moment
  | goOn wake hjob hgoing => exact hs.goOn hjob hgoing (hgoing.resume engine wake s.manager)
  | finish _ hjob hclosing => exact hs.finish hjob hclosing

end System

/-! ## Registrations -/

namespace Run

theorem registration?_eq_some {r : Run} {entry : ActiveRun} (h : r.registration? = some entry) :
    r.token = some entry.token ∧ entry.id = r.execution.id := by
  obtain ⟨token, htoken, rfl⟩ := Option.map_eq_some_iff.mp h
  exact ⟨htoken, rfl⟩

/-- A run has the same registration all the way. -/
theorem ComesFrom.registration?_resume {engine : Engine} {moment : Moment} {call : Call} {r : Run}
    (h : r.ComesFrom engine moment call) (wake : Wake) (m : Manager) :
    (r.resume engine wake m).1.registration? = r.registration? := by
  have hgrows := h.growsInto wake m
  rw [registration?, token_resume, hgrows.id, hgrows.funnelId, hgrows.startedAt, registration?]

theorem id_start (moment : Moment) (call : Call) (m : Manager) :
    (start moment call m).1.execution.id = (Execution.ofCall moment call).id := by
  have hstart := opensOrCloses_start moment call m
  generalize start moment call m = next at hstart ⊢
  cases hstart with
  | opens => rfl
  | closes => exact ((Execution.ofCall moment call).keeps_settle moment (.error _)).id

/-- A run whose identifier is free is registered when it starts. -/
theorem start_of_not_isActive {moment : Moment} {call : Call} {m : Manager}
    (h : m.isActive (Execution.ofCall moment call).id = false) :
    (start moment call m).1.IsUnderWay ∧ ∃ entry,
      (start moment call m).1.registration? = some entry ∧
        (start moment call m).2.active = Manager.insert entry m.active := by
  have hstart := opensOrCloses_start moment call m
  generalize start moment call m = next at hstart ⊢
  cases hstart with
  | opens => exact ⟨.inl rfl, _, rfl, rfl⟩
  | closes htaken => cases h.symm.trans htaken

end Run

namespace Job

variable {jobs : List Job} {job : Nat} {r : Run}

theorem underWay?_eq_some {before : Job} (h : before.underWay? = some r) :
    before = .begun r ∧ r.IsUnderWay := by
  cases before with
  | waiting => cases h
  | begun r' =>
    obtain ⟨hgoing, hr⟩ := Option.ite_none_right_eq_some.mp h
    obtain rfl := Option.some.inj hr
    exact ⟨rfl, hgoing⟩

/-- The runs under way beside the one at a place have places of their own. -/
theorem exists_place_of_mem (h : r ∈ (jobs.eraseIdx job).filterMap underWay?) :
    ∃ other, other ≠ job ∧ jobs[other]? = some (.begun r) := by
  obtain ⟨before, hbefore, hr⟩ := List.mem_filterMap.mp h
  obtain ⟨rfl, -⟩ := underWay?_eq_some hr
  obtain ⟨other, hne, hother⟩ := List.mem_eraseIdx_iff_getElem?.mp hbefore
  exact ⟨other, hne, hother⟩

theorem underWay_perm (hjob : jobs[job]? = some (.begun r)) (hgoing : r.IsUnderWay) :
    (jobs.filterMap underWay?).Perm (r :: (jobs.eraseIdx job).filterMap underWay?) := by
  have hperm := (perm_cons_eraseIdx hjob).filterMap underWay?
  rwa [List.filterMap_cons_some (underWay?_begun_of_isUnderWay hgoing)] at hperm

theorem underWay_set_perm {before : Job} (hjob : jobs[job]? = some before)
    (hgoing : r.IsUnderWay) : ((jobs.set job (.begun r)).filterMap underWay?).Perm
      (r :: (jobs.eraseIdx job).filterMap underWay?) := by
  have hperm := (set_perm_cons_eraseIdx hjob (.begun r)).filterMap underWay?
  rwa [List.filterMap_cons_some (underWay?_begun_of_isUnderWay hgoing)] at hperm

theorem underWay_set_perm_of_isClosed {before : Job} (hjob : jobs[job]? = some before)
    (hclosed : r.IsClosed) : ((jobs.set job (.begun r)).filterMap underWay?).Perm
      ((jobs.eraseIdx job).filterMap underWay?) := by
  have hperm := (set_perm_cons_eraseIdx hjob (.begun r)).filterMap underWay?
  rwa [List.filterMap_cons_none (underWay?_begun_of_isClosed hclosed)] at hperm

theorem underWay_perm_of_none {before : Job} (hjob : jobs[job]? = some before)
    (hnone : before.underWay? = none) :
    (jobs.filterMap underWay?).Perm ((jobs.eraseIdx job).filterMap underWay?) := by
  have hperm := (perm_cons_eraseIdx hjob).filterMap underWay?
  rwa [List.filterMap_cons_none hnone] at hperm

end Job

namespace Manager

variable {m m' : Manager} {jobs : List Job} {job : Nat} {r : Run}

/-- The identifier of a run is free when it begins, if no other run drew it. -/
theorem Lists.not_isActive (h : m.Lists jobs) {moment : Moment} {call : Call}
    (hjob : jobs[job]? = some (.waiting call))
    (hown : Job.OwnsId (jobs.set job (.begun (Run.start moment call m).1)) job) :
    m.isActive (Execution.ofCall moment call).id = false := by
  obtain ⟨hlt, -⟩ := List.getElem?_eq_some_iff.mp hjob
  refine Bool.eq_false_iff.mpr fun hactive => ?_
  obtain ⟨other, r, hother, hid, -⟩ := h.exists_isReachable hactive
  have hne : job ≠ other := by
    rintro rfl
    simp [hjob] at hother
  have hplace : (jobs.set job (.begun (Run.start moment call m).1))[other]? = some (.begun r) :=
    (List.getElem?_set_ne hne).trans hother
  exact hne (hown (List.getElem?_set_self hlt) hplace (hid.trans (Run.id_start ..).symm)).symm

/-- A manager in which the run at a place is registered as long as it is under way. -/
def Knows (m : Manager) (jobs : List Job) (job : Nat) : Prop :=
  ∀ ⦃r : Run⦄, jobs[job]? = some (.begun r) → r.IsUnderWay →
    ∃ entry ∈ m.active, r.registration? = some entry

/-- A manager that has the registration of each run under way, once, and no others. -/
def Registers (m : Manager) (jobs : List Job) : Prop :=
  (m.active.map some).Perm ((jobs.filterMap Job.underWay?).map Run.registration?)

namespace Registers

theorem knows (h : m.Registers jobs) (job : Nat) : m.Knows jobs job := by
  intro r hjob hgoing
  have hmem : r ∈ jobs.filterMap Job.underWay? :=
    List.mem_filterMap.mpr ⟨_, List.mem_of_getElem? hjob, Job.underWay?_begun_of_isUnderWay hgoing⟩
  obtain ⟨entry, hentry, hr⟩ := List.mem_map.mp (h.mem_iff.mpr (List.mem_map_of_mem hmem))
  exact ⟨entry, hentry, hr.symm⟩

theorem call (h : m.Registers jobs) (call : Call) : m.Registers (jobs ++ [.waiting call]) := by
  have hsame : (jobs ++ [Job.waiting call]).filterMap Job.underWay? =
      jobs.filterMap Job.underWay? := by
    simp [Job.underWay?]
  rwa [Registers, hsame]

theorem begin (h : m.Registers jobs) (hlists : m.Lists jobs) {moment : Moment} {call : Call}
    (hjob : jobs[job]? = some (.waiting call))
    (hown : Job.OwnIds (jobs.set job (.begun (Run.start moment call m).1))) :
    (Run.start moment call m).2.Registers
      (jobs.set job (.begun (Run.start moment call m).1)) := by
  have hfree := hlists.not_isActive hjob (hown job)
  obtain ⟨hgoing, entry, hentry, hactive⟩ := Run.start_of_not_isActive hfree
  have hbefore := h.trans ((Job.underWay_perm_of_none hjob rfl).map Run.registration?)
  have hafter := (Job.underWay_set_perm hjob hgoing).map Run.registration?
  rw [List.map_cons, hentry] at hafter
  rw [Registers, hactive]
  exact ((insert_perm entry m.active).map some).trans ((hbefore.cons _).trans hafter.symm)

theorem goOn (h : m.Registers jobs) (hown : Job.OwnIds jobs)
    (hjob : jobs[job]? = some (.begun r)) (hgoing : r.IsUnderWay) {next : Run × Manager}
    (hnext : Run.WalksOrCloses m next) (hentry : next.1.registration? = r.registration?)
    (hid : next.1.execution.id = r.execution.id) :
    next.2.Registers (jobs.set job (.begun next.1)) := by
  have hbefore := h.trans ((Job.underWay_perm hjob hgoing).map Run.registration?)
  rw [List.map_cons] at hbefore
  cases hnext with
  | @walks r' hphase =>
    have hafter := (Job.underWay_set_perm hjob (.inr hphase : r'.IsUnderWay)).map Run.registration?
    rw [List.map_cons, hentry] at hafter
    exact hbefore.trans hafter.symm
  | @closes r' hphase =>
    have hafter :=
      (Job.underWay_set_perm_of_isClosed hjob (.inl hphase : r'.IsClosed)).map Run.registration?
    refine List.Perm.trans ?_ hafter.symm
    -- The registration of this run is forgotten, and those of the others are not.
    have hkept := hbefore.filter (Option.any fun entry => entry.id != r'.execution.id)
    rw [List.filter_map] at hkept
    refine hkept.trans (List.Perm.of_eq ?_)
    have hforgotten : ¬ r.registration?.any (fun entry => entry.id != r'.execution.id) = true := by
      cases hr : r.registration? with
      | none => simp
      | some entry => simp [(Run.registration?_eq_some hr).2, hid]
    rw [List.filter_cons_of_neg hforgotten, List.filter_eq_self]
    intro kept hmem
    obtain ⟨entry, -, rfl⟩ := List.mem_map.mp (hbefore.mem_iff.mpr (List.mem_cons_of_mem _ hmem))
    obtain ⟨r₂, hr₂, hkept⟩ := List.mem_map.mp hmem
    obtain ⟨other, hne, hother⟩ := Job.exists_place_of_mem hr₂
    have hapart : entry.id ≠ r'.execution.id := by
      rw [(Run.registration?_eq_some hkept).2, hid]
      exact fun hsame => hne (hown job hjob hother hsame)
    simpa using hapart

theorem finish (h : m.Registers jobs) (hjob : jobs[job]? = some (.begun r))
    (hclosing : r.phase = .closing) :
    m.release.Registers (jobs.set job (.begun { r with phase := .returned })) := by
  have hbefore := (Job.underWay_perm_of_none hjob
    (Job.underWay?_begun_of_isClosed (.inl hclosing))).map Run.registration?
  have hafter := (Job.underWay_set_perm_of_isClosed (r := { r with phase := .returned }) hjob
    (.inr rfl)).map Run.registration?
  exact h.trans (hbefore.trans hafter.symm)

end Registers

end Manager

namespace System

variable {σ : Type} {access : StoreAccess σ} {engine : Engine} {s s' : System σ}

/-- A run stays in its place, with its identifier, and what could be seen of it is not forgotten. -/
theorem Change.exists_begun (h : s.Change access engine s') (hruns : s.RunsCalls engine)
    {job : Nat} {r : Run} (hjob : s.jobs[job]? = some (.begun r)) :
    ∃ r', s'.jobs[job]? = some (.begun r') ∧ r'.execution.id = r.execution.id ∧
      r.walk.trace <+: r'.walk.trace := by
  obtain ⟨hlt, -⟩ := List.getElem?_eq_some_iff.mp hjob
  cases h with
  | rest => exact ⟨r, hjob, rfl, List.prefix_rfl⟩
  | call => exact ⟨r, (List.getElem?_append_left hlt).trans hjob, rfl, List.prefix_rfl⟩
  | cancel => exact ⟨r, hjob, rfl, List.prefix_rfl⟩
  | @begin other _ _ _ hwaiting _ =>
    have hne : other ≠ job := by
      rintro rfl
      simp [hjob] at hwaiting
    exact ⟨r, (List.getElem?_set_ne hne).trans hjob, rfl, List.prefix_rfl⟩
  | @goOn other running wake hrunning hgoing =>
    by_cases hsame : other = job
    · subst hsame
      obtain rfl : r = running := by simpa [hjob] using hrunning
      obtain ⟨_, _, hr⟩ := hruns hjob
      exact ⟨_, List.getElem?_set_self hlt, (hr.growsInto wake s.manager).id,
        hr.trace_prefix wake s.manager⟩
    · exact ⟨r, (List.getElem?_set_ne hsame).trans hjob, rfl, List.prefix_rfl⟩
  | @finish other closing _ hplace _ =>
    by_cases hsame : other = job
    · subst hsame
      obtain rfl : r = closing := by simpa [hjob] using hplace
      exact ⟨_, List.getElem?_set_self hlt, rfl, List.prefix_rfl⟩
    · exact ⟨r, (List.getElem?_set_ne hsame).trans hjob, rfl, List.prefix_rfl⟩

/-- An identifier that no other run has drawn in the end was drawn by no other before. -/
theorem Change.ownsId (h : s.Change access engine s') (hruns : s.RunsCalls engine) {job : Nat}
    (hown : Job.OwnsId s'.jobs job) : Job.OwnsId s.jobs job := by
  intro r hjob other r' hother hid
  obtain ⟨after, hafter, hsame, -⟩ := h.exists_begun hruns hjob
  obtain ⟨after', hafter', hsame', -⟩ := h.exists_begun hruns hother
  exact hown hafter hafter' (hsame'.trans (hid.trans hsame.symm))

/-- **Every change leaves exactly the runs under way registered**, if their identifiers differ. -/
theorem Change.registers (h : s.Change access engine s') (hruns : s.RunsCalls engine)
    (hlists : s.manager.Lists s.jobs) (hown : Job.OwnIds s'.jobs)
    (hs : s.manager.Registers s.jobs) : s'.manager.Registers s'.jobs := by
  have hbefore : Job.OwnIds s.jobs := fun job => h.ownsId hruns (hown job)
  cases h with
  | rest => exact hs
  | call call => exact hs.call call
  | cancel id =>
    rw [Manager.Registers, Manager.active_cancel]
    exact hs
  | begin moment hjob hslot =>
    obtain rfl := Manager.acquire?_eq_some hslot
    have hacquired : Manager.Registers { s.manager with taken := s.manager.taken + 1 } s.jobs := hs
    exact hacquired.begin (hlists.congr rfl rfl) hjob hown
  | goOn wake hjob hgoing =>
    obtain ⟨moment, call, hr⟩ := hruns hjob
    exact hs.goOn hbefore hjob hgoing (hgoing.resume engine wake s.manager)
      (hr.registration?_resume wake s.manager) (hr.growsInto wake s.manager).id
  | finish _ hjob hclosing => exact hs.finish hjob hclosing

end System

/-! ## Cancellations -/

namespace Manager

variable {m : Manager} {jobs : List Job} {job : Nat} {r : Run} {id : Identifier}

/-- A cancellation trips one token and leaves the others alone. -/
theorem isTripped_cancel_iff {entry : ActiveRun} (hfind : m.find? id = some entry)
    (hissued : entry.token < m.tokens.length) {token : Nat} :
    (m.cancel id).isTripped token = true ↔ token = entry.token ∨ m.isTripped token = true := by
  constructor
  · intro htripped
    refine or_iff_not_imp_left.mpr fun hother => ?_
    rw [cancel, hfind, isTripped_iff] at htripped
    rw [isTripped_iff]
    exact (List.getElem?_set_ne (Ne.symm hother)).symm.trans htripped
  · rintro (rfl | htripped)
    · exact isTripped_cancel hfind hissued
    · exact isTripped_cancel_of_isTripped htripped id

/-- **A request to cancel an identifier cancels the run under way that drew it, and no other**, if
this run is registered and its identifier is its own. -/
theorem Lists.isCancelled_cancel (h : m.Lists jobs) (hknows : m.Knows jobs job)
    (hown : Job.OwnsId jobs job) (hjob : jobs[job]? = some (.begun r)) (id : Identifier) :
    r.isCancelled (m.cancel id) = true ↔
      r.isCancelled m = true ∨ (r.execution.id = id ∧ r.IsUnderWay) := by
  cases hfind : m.find? id with
  | none =>
    have hsame : m.cancel id = m := by rw [cancel, hfind]
    rw [hsame]
    refine ⟨.inl, fun hor => hor.resolve_right ?_⟩
    rintro ⟨rfl, hgoing⟩
    obtain ⟨entry, hentry, hr⟩ := hknows hjob hgoing
    have hid := (Run.registration?_eq_some hr).2
    simpa [hid] using List.find?_eq_none.mp hfind entry hentry
  | some entry =>
    obtain ⟨other, r', hother, hholds⟩ := h.active entry (List.mem_of_find?_eq_some hfind)
    have hid : entry.id = id := by simpa using List.find?_some hfind
    have hissued := h.issued hother hholds.token
    constructor
    · intro hcancelled
      obtain ⟨token, htoken, htripped⟩ := Run.isCancelled_iff.mp hcancelled
      rcases (isTripped_cancel_iff hfind hissued).mp htripped with rfl | htripped
      · obtain rfl : job = other := h.apart hjob hother htoken hholds.token
        obtain rfl : r = r' := by simpa [hjob] using hother
        exact .inr ⟨hholds.id.trans hid, hholds.underWay⟩
      · exact .inl (Run.isCancelled_iff.mpr ⟨token, htoken, htripped⟩)
    · rintro (hcancelled | ⟨hsame, -⟩)
      · exact Run.isCancelled_mono hcancelled fun _ htripped =>
          isTripped_cancel_of_isTripped htripped id
      · obtain rfl : other = job := hown hjob hother ((hholds.id.trans hid).trans hsame.symm)
        obtain rfl : r = r' := by simpa [hjob] using hother
        exact Run.isCancelled_iff.mpr ⟨entry.token, hholds.token, isTripped_cancel hfind hissued⟩

/-- When all runs have returned, none is registered. -/
theorem Lists.active_eq_nil (h : m.Lists jobs) (hreturned : ∀ job ∈ jobs, job.isReturned = true) :
    m.active = [] := by
  refine List.eq_nil_iff_forall_not_mem.mpr fun entry hentry => ?_
  obtain ⟨job, r, hjob, hholds⟩ := h.active entry hentry
  have hover : (Job.begun r).isReturned = true := hreturned _ (List.mem_of_getElem? hjob)
  exact hholds.underWay.phase_ne_returned (by simpa [Job.isReturned] using hover)

end Manager

namespace System

variable {σ : Type} (access : StoreAccess σ) (engine : Engine) (store : σ)

theorem counts_performAll (actions : List Action) :
    let s := (create engine.limits store).performAll access engine actions
    s.manager.Counts engine.limits.concurrent s.jobs :=
  performAll_keeps (P := fun s => s.manager.Counts engine.limits.concurrent s.jobs) _
    ⟨rfl, rfl, Nat.zero_le _⟩ (fun _ _ hchange hs => hchange.counts hs) actions

theorem registers_performAll (actions : List Action) :
    let s := (create engine.limits store).performAll access engine actions
    Job.OwnIds s.jobs → s.manager.Registers s.jobs := by
  have hboth := performAll_keeps (P := fun s => s.InOrder access engine store ∧
      (Job.OwnIds s.jobs → s.manager.Registers s.jobs))
    (create engine.limits store) ⟨inOrder_create access engine store, fun _ => List.Perm.nil⟩
    (fun s s' hchange hs => by
      refine ⟨⟨hchange.runsCalls hs.1.runs, hchange.lists hs.1.runs hs.1.lists,
        hchange.accounts hs.1.runs hs.1.accounts⟩, fun hown => ?_⟩
      have hbefore : Job.OwnIds s.jobs := fun job => hchange.ownsId hs.1.runs (hown job)
      exact hchange.registers hs.1.runs hs.1.lists hown (hs.2 hbefore))
    actions
  exact hboth.2

/-- **Slots and registrations are exact**, whatever the funnels, the executors, the limits and the
store are, however the runs take turns and whoever is cancelled. The manager counts the calls that
have begun and not returned, and with the free slots they are as many as the slots. If no two runs
drew the same identifier, the manager has one registration for each run under way, with the
identifier, the funnel and the token of this run, and no others; and a request to cancel an
identifier cancels the run under way that drew it, and no other. When all calls have returned,
however they ended, nothing is registered and all slots are free. -/
theorem occupancy_exact (actions : List Action) :
    let s := (create engine.limits store).performAll access engine actions
    s.manager.taken = s.jobs.countP Job.holdsSlot ∧
      s.jobs.countP Job.holdsSlot + s.manager.available = max engine.limits.concurrent 1 ∧
      (Job.OwnIds s.jobs →
        (s.manager.active.map some).Perm ((s.jobs.filterMap Job.underWay?).map Run.registration?) ∧
          ∀ (id : Identifier) (job : Nat) (r : Run), s.jobs[job]? = some (.begun r) →
            (r.isCancelled (s.manager.cancel id) = true ↔
              r.isCancelled s.manager = true ∨ (r.execution.id = id ∧ r.IsUnderWay))) ∧
      ((∀ job ∈ s.jobs, job.isReturned = true) →
        s.manager.active = [] ∧ s.manager.available = max engine.limits.concurrent 1) := by
  intro s
  have horder : s.InOrder access engine store := inOrder_performAll access engine store actions
  have hcounts : s.manager.Counts engine.limits.concurrent s.jobs :=
    counts_performAll access engine store actions
  have hfree : s.jobs.countP Job.holdsSlot + s.manager.available =
      max engine.limits.concurrent 1 := by
    rw [← hcounts.taken, ← hcounts.capacity]
    exact Nat.add_sub_cancel' hcounts.bounded
  refine ⟨hcounts.taken, hfree, fun hown => ?_, fun hreturned => ?_⟩
  · have hregisters := registers_performAll access engine store actions hown
    exact ⟨hregisters, fun id job _ hjob =>
      horder.lists.isCancelled_cancel (hregisters.knows job) (hown job) hjob id⟩
  · have hnone : s.jobs.countP Job.holdsSlot = 0 := by
      refine List.countP_eq_zero.mpr fun job hjob => ?_
      have hover := hreturned job hjob
      cases job with
      | waiting => cases hover
      | begun r => simpa [Job.isReturned, Job.holdsSlot] using hover
    rw [hnone, Nat.zero_add] at hfree
    exact ⟨horder.lists.active_eq_nil hreturned, hfree⟩

/-- Two runs with identifiers of their own are under way, and there is no slot for a third. A
request to cancel the first does not reach the second. When both have failed, both slots are free
and nothing is registered. -/
theorem two_runs_exact :
    let access : StoreAccess Unit := .failing Unit (.storage "")
    let engine : Engine := ⟨.errands, { Limits.standard with concurrent := 2 }⟩
    let call : Call := ⟨{ Funnel.errands with nodes := [] }, none, []⟩
    let moment (id : Nat) : Moment := { Wake.outage.moment with fresh := fun _ => ⟨id⟩ }
    let begun : List Action := [.call call, .call call, .grant (moment 1), .grant (moment 2)]
    let endings : List Action := [.cancel ⟨1⟩, .resume 0 .outage, .resume 1 .outage,
      .resume 0 .outage, .resume 1 .outage]
    let s := (create engine.limits ()).performAll access engine begun
    let s' := (create engine.limits ()).performAll access engine (begun ++ endings)
    (∃ r r' : Run, s.jobs = [.begun r, .begun r'] ∧
        (s.manager.active.map some).Perm [r.registration?, r'.registration?] ∧
        s.manager.available = 0 ∧ r.isCancelled (s.manager.cancel ⟨1⟩) = true ∧
        r'.isCancelled (s.manager.cancel ⟨1⟩) = false) ∧
      s'.manager.active = [] ∧ s'.manager.available = 2 := by
  intro access engine call moment begun endings s s'
  have hs : s = (create engine.limits ()).performAll access engine begun := rfl
  have hs' : s' = (create engine.limits ()).performAll access engine (begun ++ endings) := rfl
  obtain ⟨r, r', hjobs, hgoing, hgoing', hid, hid', hapart⟩ : ∃ r r' : Run,
      s.jobs = [.begun r, .begun r'] ∧ r.IsUnderWay ∧ r'.IsUnderWay ∧
        r.execution.id = ⟨1⟩ ∧ r'.execution.id = ⟨2⟩ ∧ r'.isCancelled s.manager = false :=
    ⟨_, _, rfl, .inl rfl, .inl rfl, rfl, rfl, rfl⟩
  have hreturned : s'.jobs.all Job.isReturned = true := by decide +kernel
  have hheld : s.jobs.countP Job.holdsSlot = 2 := rfl
  have hslots : max engine.limits.concurrent 1 = 2 := rfl
  obtain ⟨-, hfree, hexact, -⟩ := occupancy_exact access engine () begun
  obtain ⟨-, -, -, hover⟩ := occupancy_exact access engine () (begun ++ endings)
  rw [← hs, hslots] at hfree
  rw [← hs] at hexact
  rw [← hs', hslots] at hover
  -- From here on nothing has to be computed.
  clear_value s s'
  have hown : Job.OwnIds s.jobs := by
    rw [hjobs]
    intro job r₁ hjob other r₂ hother hsame
    rcases job with _ | _ | job <;> rcases other with _ | _ | other <;> cases hjob <;>
      cases hother <;> simp [hid, hid'] at hsame ⊢
  obtain ⟨hregistered, hcancel⟩ := hexact hown
  rw [hjobs] at hregistered hcancel
  have hfirst := hcancel ⟨1⟩ 0 r rfl
  have hsecond := hcancel ⟨1⟩ 1 r' rfl
  rw [hheld] at hfree
  have hnone : s.manager.available = 0 := Nat.add_left_cancel hfree
  refine ⟨⟨r, r', hjobs, ?_, hnone, ?_, ?_⟩, hover (List.all_eq_true.mp hreturned)⟩
  · simpa [Job.underWay?, hgoing, hgoing'] using hregistered
  · exact hfirst.mpr (.inr ⟨hid, hgoing⟩)
  · rw [Bool.eq_false_iff, Ne, hsecond, hapart, hid']
    simp

end System

end Outreach
