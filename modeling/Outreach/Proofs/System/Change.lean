import Outreach.Proofs.Run.Settlement

/-!
# What happens in a system

Whatever an action does to a system is one of a few changes: `System.Change` lists them, and
`System.perform_change` says that there are no others. So what every change keeps holds of a system
whatever has happened to it (`System.performAll_keeps`). In particular every run in it comes from a
call (`System.Change.runsCalls`), so that what is known of runs is known of the runs of a system.
-/

namespace Outreach

namespace System

variable {σ : Type} (access : StoreAccess σ) (engine : Engine)

/-- A change of a system. -/
inductive Change (s : System σ) : System σ → Prop
  /-- Nothing happens. -/
  | rest : Change s s
  /-- A call comes in. -/
  | call (call : Call) : Change s { s with jobs := s.jobs ++ [.waiting call] }
  /-- A run is cancelled. -/
  | cancel (id : Identifier) : Change s { s with manager := s.manager.cancel id }
  /-- A call gets a slot. -/
  | begin {job : Nat} {call : Call} {manager : Manager} (moment : Moment)
      (hjob : s.jobs[job]? = some (.waiting call)) (hslot : s.manager.acquire? = some manager) :
    Change s (s.place access engine moment.now.milliseconds job 0 (Run.start moment call manager).1
      (Run.start moment call manager).2)
  /-- A run goes on. -/
  | goOn {job : Nat} {r : Run} (wake : Wake) (hjob : s.jobs[job]? = some (.begun r))
      (hgoing : r.IsUnderWay) :
    Change s (s.place access engine wake.moment.now.milliseconds job r.walk.trace.length
      (r.resume engine wake s.manager).1 (r.resume engine wake s.manager).2)
  /-- A run that has closed returns: it reports how it ended and gives its slot back. -/
  | finish {job : Nat} {r : Run} (wake : Wake) (hjob : s.jobs[job]? = some (.begun r))
      (hclosing : r.phase = .closing) :
    Change s { s with
      manager := s.manager.release,
      jobs := s.jobs.set job (.begun { r with phase := .returned }),
      reports := s.reports ++ [r.execution.report] }

variable {access engine} {s : System σ}

theorem grant_change (s : System σ) (moment : Moment) :
    s.Change access engine (s.grant access engine moment) := by
  unfold grant
  split
  next job manager hfirst hslot =>
    split
    next call hjob => exact .begin moment hjob hslot
    next => exact .rest
  next => exact .rest

theorem resume_change (s : System σ) (job : Nat) (wake : Wake) :
    s.Change access engine (s.resume access engine job wake) := by
  unfold resume
  split
  next r hjob =>
    split
    next => exact .rest
    next hgoing =>
      cases hphase : r.phase with
      | opening | walking =>
        have hunder : r.IsUnderWay := by simp [Run.IsUnderWay, hphase]
        dsimp only
        rw [if_neg (hunder.resume engine wake s.manager).phase_ne_returned]
        exact .goOn wake hjob hunder
      | closing =>
        -- Nothing more can be seen of a run that has closed.
        have hplaced : s.Change access engine _ := .finish wake hjob hphase
        simpa [Run.resume_of_closing hphase, place, keep, Run.execution] using hplaced
      | returned => exact absurd hphase hgoing
  next => exact .rest

/-- **Whatever happens to a system is one of the changes.** -/
theorem perform_change (s : System σ) (action : Action) :
    s.Change access engine (s.perform access engine action) := by
  cases action with
  | call call => exact .call call
  | grant moment => exact s.grant_change moment
  | resume job wake => exact s.resume_change job wake
  | cancel id => exact .cancel id

/-- **What every change keeps holds of a system whatever has happened to it.** -/
theorem performAll_keeps {P : System σ → Prop} (s : System σ) (hs : P s)
    (hkeep : ∀ s s', s.Change access engine s' → P s → P s') (actions : List Action) :
    P (s.performAll access engine actions) := by
  induction actions generalizing s with
  | nil => exact hs
  | cons action rest ih => exact ih _ (hkeep _ _ (s.perform_change action) hs)

end System

namespace Job

variable {jobs : List Job} {i j : Nat} {r r' : Run}

/-- A call that comes in changes nothing for the others. -/
theorem getElem?_append_eq_begun {call : Call}
    (h : (jobs ++ [.waiting call])[j]? = some (.begun r)) : jobs[j]? = some (.begun r) := by
  rcases Nat.lt_trichotomy j jobs.length with hlt | rfl | hgt
  · rwa [List.getElem?_append_left hlt] at h
  · simp at h
  · rw [List.getElem?_eq_none (by simpa using Nat.succ_le_of_lt hgt)] at h
    cases h

/-- A run is the one that was put into its place, or was there already. -/
theorem getElem?_set_eq_begun (h : (jobs.set i (.begun r'))[j]? = some (.begun r)) :
    (i = j ∧ r' = r) ∨ (i ≠ j ∧ jobs[j]? = some (.begun r)) := by
  by_cases hij : i = j
  · subst hij
    rw [List.getElem?_set_self'] at h
    obtain ⟨job, -, hr⟩ := Option.map_eq_some_iff.mp h
    exact .inl ⟨rfl, Job.begun.inj hr⟩
  · rw [List.getElem?_set_ne hij] at h
    exact .inr ⟨hij, h⟩

end Job

namespace System

variable {σ : Type} {access : StoreAccess σ} {engine : Engine} {s s' : System σ}

/-- The runs of a system come from calls. -/
def RunsCalls (engine : Engine) (s : System σ) : Prop :=
  ∀ {job : Nat} {r : Run}, s.jobs[job]? = some (.begun r) →
    ∃ moment call, r.ComesFrom engine moment call

theorem Change.runsCalls (h : s.Change access engine s') (hs : s.RunsCalls engine) :
    s'.RunsCalls engine := by
  intro job r hjob
  cases h with
  | rest => exact hs hjob
  | call => exact hs (Job.getElem?_append_eq_begun hjob)
  | cancel => exact hs hjob
  | begin moment _ _ =>
    rcases Job.getElem?_set_eq_begun hjob with ⟨-, rfl⟩ | ⟨-, hother⟩
    · exact ⟨moment, _, .start _⟩
    · exact hs hother
  | goOn wake hplace _ =>
    rcases Job.getElem?_set_eq_begun hjob with ⟨-, rfl⟩ | ⟨-, hother⟩
    · obtain ⟨moment, call, hr⟩ := hs hplace
      exact ⟨moment, call, hr.resume wake s.manager⟩
    · exact hs hother
  | finish wake hplace hclosing =>
    rcases Job.getElem?_set_eq_begun hjob with ⟨-, rfl⟩ | ⟨-, hother⟩
    · obtain ⟨moment, call, hr⟩ := hs hplace
      have hresumed := hr.resume wake s.manager
      rw [Run.resume_of_closing hclosing] at hresumed
      exact ⟨moment, call, hresumed⟩
    · exact hs hother

end System

end Outreach
