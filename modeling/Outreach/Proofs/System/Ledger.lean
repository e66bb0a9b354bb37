import Outreach.Proofs.System.Change

/-!
# What a system lets others know

The store of a system and its reports are shared by all jobs. A ledger tells for each snapshot that
was offered to the store, and for each report, which job it came from. Of every system there is a
ledger by which each job offered the snapshots that its run has written, in order, and made one
report if its run has returned and none if not (`System.Change.accounts`).
-/

namespace Outreach

/-- A snapshot that a job offers to the store at a time. -/
structure Offer where
  job : Nat
  now : Nat
  execution : Execution

/-- What was offered and reported, in order, each entry with its job. -/
structure Ledger where
  offers : List Offer
  reports : List (Nat × Report)

namespace Job

/-- The snapshots of a job. -/
def snapshots : Job → List Execution
  | .waiting _ => []
  | .begun r => r.snapshots

/-- The reports of a job: one when its run has returned, and none before. -/
def reports : Job → List Report
  | .waiting _ => []
  | .begun r => if r.phase = .returned then [r.execution.report] else []

theorem reports_begun_of_ne {r : Run} (h : r.phase ≠ .returned) : (Job.begun r).reports = [] :=
  if_neg h

theorem reports_begun_of_eq {r : Run} (h : r.phase = .returned) :
    (Job.begun r).reports = [r.execution.report] :=
  if_pos h

end Job

namespace Ledger

variable {σ : Type}

/-- The snapshots that a job offered. -/
def offeredBy (l : Ledger) (job : Nat) : List Execution :=
  (l.offers.filter fun offer => offer.job == job).map Offer.execution

/-- The reports that a job made. -/
def reportsOf (l : Ledger) (job : Nat) : List Report :=
  (l.reports.filter fun entry => entry.1 == job).map Prod.snd

/-- A store when it has been offered all that was offered. -/
def stored (l : Ledger) (access : StoreAccess σ) (limits : Limits) (store : σ) : σ :=
  l.offers.foldl (fun store offer =>
    (access.set store offer.now offer.execution.key offer.execution limits.keepFor).2) store

/-- A job offers more. -/
def offer (l : Ledger) (job now : Nat) (snapshots : List Execution) : Ledger :=
  { l with offers := l.offers ++ snapshots.map fun e => ⟨job, now, e⟩ }

/-- A job reports. -/
def report (l : Ledger) (job : Nat) (report : Report) : Ledger :=
  { l with reports := l.reports ++ [(job, report)] }

variable (l : Ledger) (job now : Nat) (snapshots : List Execution) (report : Report)

theorem stored_offer (access : StoreAccess σ) (limits : Limits) (store : σ) :
    (l.offer job now snapshots).stored access limits store =
      System.keep access limits now (l.stored access limits store) snapshots := by
  rw [stored, offer, List.foldl_append, List.foldl_map]
  rfl

theorem offeredBy_offer_self :
    (l.offer job now snapshots).offeredBy job = l.offeredBy job ++ snapshots := by
  simp [offeredBy, offer, List.filter_map, Function.comp_def]

theorem offeredBy_offer_of_ne {other : Nat} (h : job ≠ other) :
    (l.offer job now snapshots).offeredBy other = l.offeredBy other := by
  simp [offeredBy, offer, List.filter_map, Function.comp_def, h]

theorem reportsOf_report_self :
    (l.report job report).reportsOf job = l.reportsOf job ++ [report] := by
  simp [reportsOf, Ledger.report]

theorem reportsOf_report_of_ne {other : Nat} (h : job ≠ other) :
    (l.report job report).reportsOf other = l.reportsOf other := by
  simp [reportsOf, Ledger.report, h]

/-- A ledger that tells what happened to the store and the reports of a system, and in which each job
has the entries that its run made. -/
structure Accounts (access : StoreAccess σ) (engine : Engine) (store : σ) (s : System σ)
    (l : Ledger) : Prop where
  store : s.store = l.stored access engine.limits store
  reports : s.reports = l.reports.map Prod.snd
  offered : ∀ job, l.offeredBy job = s.jobs[job]?.elim [] Job.snapshots
  reported : ∀ job, l.reportsOf job = s.jobs[job]?.elim [] Job.reports

namespace Accounts

variable {access : StoreAccess σ} {engine : Engine} {store : σ} {s : System σ} {l : Ledger}
  {job : Nat} {before : Job} {r : Run}

theorem call (h : l.Accounts access engine store s) (call : Call) :
    l.Accounts access engine store { s with jobs := s.jobs ++ [.waiting call] } := by
  have hsame {α : Type} (entries : Job → List α) (hnone : entries (Job.waiting call) = []) (job : Nat) :
      (s.jobs ++ [Job.waiting call])[job]?.elim [] entries = s.jobs[job]?.elim [] entries := by
    rcases Nat.lt_trichotomy job s.jobs.length with hlt | rfl | hgt
    · rw [List.getElem?_append_left hlt]
    · simp [hnone]
    · have hnew : (s.jobs ++ [Job.waiting call]).length ≤ job := by simpa using Nat.succ_le_of_lt hgt
      rw [List.getElem?_eq_none hnew, List.getElem?_eq_none (Nat.le_of_lt hgt)]
  refine ⟨h.store, h.reports, fun job => ?_, fun job => ?_⟩
  · exact (h.offered job).trans (hsame Job.snapshots rfl job).symm
  · exact (h.reported job).trans (hsame Job.reports rfl job).symm

/-- A run that is put into its place offers what it wrote since it was there last. -/
theorem place (h : l.Accounts access engine store s) (hjob : s.jobs[job]? = some before)
    (hquiet : before.reports = []) {seen : Nat}
    (hseen : before.snapshots = (r.walk.trace.take seen).filterMap Sighting.snapshot?)
    (hgoing : r.phase ≠ .returned) (now : Nat) (manager : Manager) :
    (l.offer job now ((r.walk.trace.drop seen).filterMap Sighting.snapshot?)).Accounts access engine
      store (s.place access engine now job seen r manager) := by
  obtain ⟨hlt, -⟩ := List.getElem?_eq_some_iff.mp hjob
  refine ⟨?_, h.reports, fun other => ?_, fun other => ?_⟩
  · rw [stored_offer, ← h.store]
    rfl
  · by_cases hsame : job = other
    · subst hsame
      rw [offeredBy_offer_self, h.offered, hjob, System.place, List.getElem?_set_self hlt]
      dsimp only [Option.elim]
      rw [hseen, ← List.filterMap_append, List.take_append_drop]
      rfl
    · rw [offeredBy_offer_of_ne _ _ _ _ hsame, h.offered, System.place, List.getElem?_set_ne hsame]
  · have hreported : (l.offer job now
        ((r.walk.trace.drop seen).filterMap Sighting.snapshot?)).reportsOf other =
        l.reportsOf other := rfl
    by_cases hsame : job = other
    · subst hsame
      rw [hreported, h.reported, hjob, System.place, List.getElem?_set_self hlt]
      exact hquiet.trans (Job.reports_begun_of_ne hgoing).symm
    · rw [hreported, h.reported, System.place, List.getElem?_set_ne hsame]

theorem finish (h : l.Accounts access engine store s) (hjob : s.jobs[job]? = some (.begun r))
    (hclosing : r.phase = .closing) :
    (l.report job r.execution.report).Accounts access engine store { s with
      manager := s.manager.release,
      jobs := s.jobs.set job (.begun { r with phase := .returned }),
      reports := s.reports ++ [r.execution.report] } := by
  obtain ⟨hlt, -⟩ := List.getElem?_eq_some_iff.mp hjob
  have hgoing : r.phase ≠ .returned := by simp [hclosing]
  refine ⟨h.store, ?_, fun other => ?_, fun other => ?_⟩
  · rw [Ledger.report, List.map_append, ← h.reports]
    rfl
  · have hoffered : (l.report job r.execution.report).offeredBy other = l.offeredBy other := rfl
    by_cases hsame : job = other
    · subst hsame
      rw [hoffered, h.offered, hjob, List.getElem?_set_self hlt]
      rfl
    · rw [hoffered, h.offered, List.getElem?_set_ne hsame]
  · by_cases hsame : job = other
    · subst hsame
      have hbefore : l.reportsOf job = [] := by
        rw [h.reported, hjob]
        exact Job.reports_begun_of_ne hgoing
      rw [reportsOf_report_self, hbefore, List.getElem?_set_self hlt]
      rfl
    · rw [reportsOf_report_of_ne _ _ _ hsame, h.reported, List.getElem?_set_ne hsame]

end Accounts

end Ledger

namespace System

variable {σ : Type} {access : StoreAccess σ} {engine : Engine} {store : σ} {s s' : System σ}

/-- **Every change is accounted for.** -/
theorem Change.accounts (h : s.Change access engine s') (hruns : s.RunsCalls engine)
    (hl : ∃ l : Ledger, l.Accounts access engine store s) :
    ∃ l : Ledger, l.Accounts access engine store s' := by
  obtain ⟨l, hl⟩ := hl
  cases h with
  | rest => exact ⟨l, hl⟩
  | call call => exact ⟨l, hl.call call⟩
  | cancel id => exact ⟨l, hl.store, hl.reports, hl.offered, hl.reported⟩
  | begin moment hjob _ =>
    exact ⟨_, hl.place hjob rfl rfl (Run.phase_start_ne_returned moment _ _) _ _⟩
  | goOn wake hjob hgoing =>
    obtain ⟨moment, call, hr⟩ := hruns hjob
    obtain ⟨added, htrace⟩ := hr.trace_prefix wake s.manager
    refine ⟨_, hl.place hjob (Job.reports_begun_of_ne hgoing.phase_ne_returned) ?_
      (hgoing.resume engine wake s.manager).phase_ne_returned _ _⟩
    rw [← htrace, List.take_left]
    rfl
  | finish _ hjob hclosing => exact ⟨_, hl.finish hjob hclosing⟩

end System

end Outreach
