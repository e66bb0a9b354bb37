import Outreach.Proofs.System.Change

/-!
# Who is registered

The manager of a system has only runs under way among its registrations, and no two runs share a
token (`Manager.Lists`). So a run that has closed is registered no longer; should its identifier be
taken still, then by another run.
-/

namespace Outreach

/-- A run that a registration is about. -/
structure Run.Holds (r : Run) (entry : ActiveRun) : Prop where
  token : r.token = some entry.token
  id : r.execution.id = entry.id
  underWay : r.IsUnderWay

/-- A manager that gave each of its runs a token of its own, and in which only runs under way are
registered. -/
structure Manager.Lists (m : Manager) (jobs : List Job) : Prop where
  issued : ∀ {job : Nat} {r : Run} {token : Nat}, jobs[job]? = some (.begun r) →
    r.token = some token → token < m.tokens.length
  apart : ∀ {job other : Nat} {r r' : Run} {token : Nat}, jobs[job]? = some (.begun r) →
    jobs[other]? = some (.begun r') → r.token = some token → r'.token = some token → job = other
  active : ∀ entry ∈ m.active, ∃ (job : Nat) (r : Run), jobs[job]? = some (.begun r) ∧ r.Holds entry

namespace Manager

variable {m m' : Manager} {jobs : List Job} {job : Nat} {r : Run}

theorem insert_perm (entry : ActiveRun) (active : List ActiveRun) :
    (insert entry active).Perm (entry :: active) := by
  induction active with
  | nil => exact .refl _
  | cons first rest ih =>
    rw [insert]
    split
    next => exact .refl _
    next => exact (ih.cons first).trans (.swap ..)

theorem mem_insert {run other : ActiveRun} {active : List ActiveRun} :
    other ∈ insert run active ↔ other = run ∨ other ∈ active :=
  (insert_perm run active).mem_iff.trans List.mem_cons

theorem acquire?_eq_some (h : m.acquire? = some m') : m' = { m with taken := m.taken + 1 } := by
  unfold acquire? at h
  split at h
  next => exact (Option.some.inj h).symm
  next => cases h

theorem length_tokens_cancel (id : Identifier) :
    (m.cancel id).tokens.length = m.tokens.length := by
  unfold cancel
  split
  next => exact List.length_set
  next => rfl

theorem active_cancel (id : Identifier) : (m.cancel id).active = m.active := by
  unfold cancel
  split <;> rfl

namespace Lists

/-- Slots and cancellations do not matter to who is registered. -/
theorem congr (h : m.Lists jobs) (hactive : m'.active = m.active)
    (htokens : m'.tokens.length = m.tokens.length) : m'.Lists jobs where
  issued hjob htoken := htokens ▸ h.issued hjob htoken
  apart := h.apart
  active := hactive ▸ h.active

theorem call (h : m.Lists jobs) (call : Call) : m.Lists (jobs ++ [.waiting call]) where
  issued hjob := h.issued (Job.getElem?_append_eq_begun hjob)
  apart hjob hother := h.apart (Job.getElem?_append_eq_begun hjob)
    (Job.getElem?_append_eq_begun hother)
  active entry hentry := by
    obtain ⟨job, r, hjob, hr⟩ := h.active entry hentry
    obtain ⟨hlt, -⟩ := List.getElem?_eq_some_iff.mp hjob
    exact ⟨job, r, (List.getElem?_append_left hlt).trans hjob, hr⟩

/-- A run may be put into its place if its token is its own and the registrations are its own or
those of the others. -/
theorem set (h : m.Lists jobs) (hlt : job < jobs.length)
    (htokens : m.tokens.length ≤ m'.tokens.length)
    (htoken : ∀ token, r.token = some token → token < m'.tokens.length ∧
      ∀ (other : Nat) (r' : Run), job ≠ other → jobs[other]? = some (.begun r') →
        r'.token ≠ some token)
    (hactive : ∀ entry ∈ m'.active, r.Holds entry ∨
      ∃ (other : Nat) (r' : Run), job ≠ other ∧ jobs[other]? = some (.begun r') ∧ r'.Holds entry) :
    m'.Lists (jobs.set job (.begun r)) where
  issued hplace hother := by
    rcases Job.getElem?_set_eq_begun hplace with ⟨-, rfl⟩ | ⟨-, hplace⟩
    · exact (htoken _ hother).1
    · exact Nat.lt_of_lt_of_le (h.issued hplace hother) htokens
  apart hplace hother hr hr' := by
    rcases Job.getElem?_set_eq_begun hplace with ⟨rfl, rfl⟩ | ⟨hne, hplace⟩ <;>
      rcases Job.getElem?_set_eq_begun hother with ⟨rfl, rfl⟩ | ⟨hne', hother⟩
    · rfl
    · exact absurd hr' ((htoken _ hr).2 _ _ hne' hother)
    · exact absurd hr ((htoken _ hr').2 _ _ hne hplace)
    · exact h.apart hplace hother hr hr'
  active entry hentry := by
    rcases hactive entry hentry with hholds | ⟨other, r', hne, hother, hholds⟩
    · exact ⟨job, r, List.getElem?_set_self hlt, hholds⟩
    · exact ⟨other, r', (List.getElem?_set_ne hne).trans hother, hholds⟩

theorem begin (h : m.Lists jobs) {call : Call} (hjob : jobs[job]? = some (.waiting call))
    (moment : Moment) : (Run.start moment call m).2.Lists
      (jobs.set job (.begun (Run.start moment call m).1)) := by
  obtain ⟨hlt, -⟩ := List.getElem?_eq_some_iff.mp hjob
  have hothers : ∀ entry ∈ m.active,
      ∃ (other : Nat) (r' : Run), job ≠ other ∧ jobs[other]? = some (.begun r') ∧
        r'.Holds entry := by
    intro entry hentry
    obtain ⟨other, r', hother, hholds⟩ := h.active entry hentry
    refine ⟨other, r', ?_, hother, hholds⟩
    rintro rfl
    rw [hjob] at hother
    cases hother
  have hstart := Run.opensOrCloses_start moment call m
  generalize Run.start moment call m = next at hstart ⊢
  cases hstart with
  | opens =>
    refine h.set hlt (by simp) ?_ fun entry hentry => ?_
    · rintro _ ⟨⟩
      refine ⟨by simp, fun other r' _ hother hsame => ?_⟩
      exact Nat.lt_irrefl _ (h.issued hother hsame)
    · rcases mem_insert.mp hentry with rfl | hentry
      · exact .inl ⟨rfl, rfl, .inl rfl⟩
      · exact .inr (hothers entry hentry)
  | closes =>
    refine h.set hlt (Nat.le_refl _) (fun token htoken => ?_) fun entry hentry => ?_
    · cases htoken
    · exact .inr (hothers entry (List.mem_filter.mp hentry).1)

/-- The token of a run that is put into its place again is still its own. -/
theorem token_apart (h : m.Lists jobs) (hjob : jobs[job]? = some (.begun r)) :
    ∀ token, r.token = some token → token < m.tokens.length ∧
      ∀ (other : Nat) (r' : Run), job ≠ other → jobs[other]? = some (.begun r') →
        r'.token ≠ some token :=
  fun _ htoken => ⟨h.issued hjob htoken, fun _ _ hne hother hsame =>
    hne (h.apart hjob hother htoken hsame)⟩

theorem goOn (h : m.Lists jobs) (hjob : jobs[job]? = some (.begun r)) {next : Run × Manager}
    (hnext : Run.WalksOrCloses m next) (htoken : next.1.token = r.token)
    (hid : next.1.execution.id = r.execution.id) :
    next.2.Lists (jobs.set job (.begun next.1)) := by
  obtain ⟨hlt, -⟩ := List.getElem?_eq_some_iff.mp hjob
  cases hnext with
  | @walks r' hphase =>
    refine h.set hlt (Nat.le_refl _) (fun token hr => h.token_apart hjob token (htoken ▸ hr)) ?_
    intro entry hentry
    obtain ⟨other, r₀, hother, hholds⟩ := h.active entry hentry
    by_cases hsame : job = other
    · subst hsame
      obtain rfl : r = r₀ := by simpa [hjob] using hother
      exact .inl ⟨htoken.trans hholds.token, hid.trans hholds.id, .inr hphase⟩
    · exact .inr ⟨other, r₀, hsame, hother, hholds⟩
  | @closes r' hphase =>
    refine h.set hlt (Nat.le_refl _) (fun token hr => h.token_apart hjob token (htoken ▸ hr)) ?_
    intro entry hentry
    obtain ⟨hentry, hforgotten⟩ := List.mem_filter.mp hentry
    obtain ⟨other, r₀, hother, hholds⟩ := h.active entry hentry
    refine .inr ⟨other, r₀, ?_, hother, hholds⟩
    -- The registration of this run was forgotten.
    rintro rfl
    obtain rfl : r = r₀ := by simpa [hjob] using hother
    have hid : r'.execution.id = entry.id := hid.trans hholds.id
    simp [hid] at hforgotten

theorem finish (h : m.Lists jobs) (hjob : jobs[job]? = some (.begun r))
    (hclosing : r.phase = .closing) :
    m.release.Lists (jobs.set job (.begun { r with phase := .returned })) := by
  obtain ⟨hlt, -⟩ := List.getElem?_eq_some_iff.mp hjob
  refine h.set hlt (Nat.le_refl _) (fun token hr => h.token_apart hjob token hr) ?_
  intro entry hentry
  obtain ⟨other, r₀, hother, hholds⟩ := h.active entry hentry
  refine .inr ⟨other, r₀, ?_, hother, hholds⟩
  rintro rfl
  obtain rfl : r = r₀ := by simpa [hjob] using hother
  have hclosed : r.IsClosed := .inl hclosing
  exact hclosed.not_isUnderWay hholds.underWay

/-- No registration has the token of a run that has closed. -/
theorem token_ne_of_isClosed (h : m.Lists jobs) (hjob : jobs[job]? = some (.begun r))
    (hclosed : r.IsClosed) {entry : ActiveRun} (hentry : entry ∈ m.active) :
    r.token ≠ some entry.token := by
  intro htoken
  obtain ⟨other, r', hother, hholds⟩ := h.active entry hentry
  obtain rfl : job = other := h.apart hjob hother htoken hholds.token
  obtain rfl : r = r' := by simpa [hjob] using hother
  exact hclosed.not_isUnderWay hholds.underWay

/-- If the identifier of a run that has closed is taken, then by another run. -/
theorem exists_other_of_isActive (h : m.Lists jobs) (hjob : jobs[job]? = some (.begun r))
    (hclosed : r.IsClosed) (hactive : m.isActive r.execution.id = true) :
    ∃ (other : Nat) (r' : Run), other ≠ job ∧ jobs[other]? = some (.begun r') ∧ r'.IsUnderWay ∧
      r'.execution.id = r.execution.id := by
  obtain ⟨entry, hfind⟩ := Option.isSome_iff_exists.mp hactive
  have hid : entry.id = r.execution.id := by simpa using List.find?_some hfind
  obtain ⟨other, r', hother, hholds⟩ := h.active entry (List.mem_of_find?_eq_some hfind)
  refine ⟨other, r', ?_, hother, hholds.underWay, hholds.id.trans hid⟩
  rintro rfl
  obtain rfl : r = r' := by simpa [hjob] using hother
  exact hclosed.not_isUnderWay hholds.underWay

end Lists

end Manager

namespace System

variable {σ : Type} {access : StoreAccess σ} {engine : Engine} {s s' : System σ}

/-- **Every change leaves only runs under way registered.** -/
theorem Change.lists (h : s.Change access engine s') (hruns : s.RunsCalls engine)
    (hs : s.manager.Lists s.jobs) : s'.manager.Lists s'.jobs := by
  cases h with
  | rest => exact hs
  | call call => exact hs.call call
  | cancel id => exact hs.congr (Manager.active_cancel id) (Manager.length_tokens_cancel id)
  | begin moment hjob hslot =>
    obtain rfl := Manager.acquire?_eq_some hslot
    have hacquired : Manager.Lists { s.manager with taken := s.manager.taken + 1 } s.jobs :=
      hs.congr rfl rfl
    exact hacquired.begin hjob moment
  | goOn wake hjob hgoing =>
    obtain ⟨moment, call, hr⟩ := hruns hjob
    exact hs.goOn hjob (hgoing.resume engine wake s.manager) (Run.token_resume ..)
      (hr.growsInto wake s.manager).id
  | finish _ hjob hclosing => exact hs.finish hjob hclosing

end System

end Outreach
