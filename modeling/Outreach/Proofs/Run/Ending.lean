import Mathlib.Order.Lattice.Nat
import Outreach.Proofs.Run.Settlement
import Outreach.Proofs.Run.Termination
import Outreach.Proofs.Walk.Step

/-!
# How a run comes to its end

Between two waits a run does what its walk does (`Run.BelongsTo.steps`). Once its execution has ended
it tries nothing more. And whatever its executors are: if it makes finitely many attempts, then it
returns (`Run.ComesFrom.returns`), as work at a node comes to a result after finitely many waits.
-/

namespace Outreach

open Relation (ReflTransGen)

namespace Run

/-- The nodes that a run has tried, in order. -/
def tried (r : Run) : List Node :=
  r.walk.tried

theorem length_tried (r : Run) : r.tried.length = r.attempts :=
  r.walk.length_tried

variable {engine : Engine} {r : Run} {moment : Moment} {call : Call}

theorem tried_close (r : Run) (moment : Moment) (outcome : Except EngineFault Unit)
    (manager : Manager) : (r.close moment outcome manager).1.tried = r.tried :=
  Traversal.tried_see_snapshot _ _

theorem tried_follow (r : Run) (moment : Moment) (walk : Traversal) (manager : Manager) :
    (r.follow moment walk manager).1.tried = walk.tried := by
  unfold follow
  dsimp only
  split
  next => rw [tried_close]; rfl
  next => rfl

/-- **Between two waits a run does what its walk does**, unless there is no entry to walk from. -/
theorem BelongsTo.steps {f : Funnel} {Q : Node → Task → Prop} (h : r.BelongsTo engine f Q)
    (hunder : r.IsUnderWay) (wake : Wake) (manager : Manager) :
    (f.entry? = none ∧
        r.resume engine wake manager = r.close wake.moment (.error (.noEntry f.id)) manager) ∨
      (f.entry?.isSome = true ∧ ∃ walk,
        r.resume engine wake manager = r.follow wake.moment walk manager ∧
          r.walk.Steps engine f (r.hears wake manager) walk ∧
          (r.phase = .opening → r.walk.Goes engine f (r.hears wake manager) walk)) := by
  unfold Run.resume
  dsimp only
  rcases hunder with hphase | hphase <;> rw [hphase, h.funnel] <;> dsimp only
  · cases hentry : f.entry? with
    | none => exact .inl ⟨rfl, rfl⟩
    | some n =>
      have hpending : [n] ⊆ f.nodes := List.cons_subset.mpr
        ⟨Funnel.mem_of_entry? hentry, List.nil_subset _⟩
      have hgoes : Traversal.Goes engine f (r.hears wake manager)
          { r.walk with pending := [n], budget := .limited engine.limits.timeout } _ :=
        Traversal.goes_advance hpending
      have hwalk : r.walk.Goes engine f (r.hears wake manager) _ := hgoes.of_same rfl rfl
      exact .inr ⟨rfl, _, rfl, .goes hwalk, fun _ => hwalk⟩
  · exact .inr ⟨h.entry hphase, _, rfl, Traversal.steps_resume h.pending (h.point hphase).1, nofun⟩

/-- A run that walks goes on with its walk. -/
theorem BelongsTo.resume_of_walking {f : Funnel} {Q : Node → Task → Prop}
    (h : r.BelongsTo engine f Q) (hphase : r.phase = .walking) (wake : Wake) (manager : Manager) :
    r.resume engine wake manager =
      r.follow wake.moment (r.walk.resume engine f (r.hears wake manager)) manager := by
  unfold Run.resume
  rw [hphase, h.funnel]
  rfl

/-- A run that is not cancelled tries the entry first. -/
theorem tried_resume_of_opening (hphase : r.phase = .opening) {n : Node}
    (hentry : r.funnel.entry? = some n) (hrun : r.execution.isRunning = true) (wake : Wake)
    {manager : Manager} (hcalm : r.isCancelled manager = false) :
    (r.resume engine wake manager).1.tried = r.tried ++ [n] := by
  have hrun : r.walk.execution.isRunning = true := hrun
  unfold Run.resume
  rw [hphase, hentry, hcalm]
  dsimp only
  rw [tried_follow, Traversal.start, Traversal.advance]
  dsimp only
  rw [Execution.observe_false, if_pos hrun, Traversal.tried_attempt]
  rfl

/-! ## After the end -/

/-- A run whose execution has ended tries nothing. -/
theorem ComesFrom.tried_resume_of_isTerminal (h : r.ComesFrom engine moment call)
    (hover : r.execution.status.isTerminal = true) (wake : Wake) (manager : Manager) :
    (r.resume engine wake manager).1.tried = r.tried := by
  let Still (s : Standing) : Prop := s.IsInOrder ∧ s.execution.status.isTerminal = true ∧
    s.trace.filterMap Sighting.tried? = r.tried
  suffices hstill : Still (r.resume engine wake manager).1.standing from hstill.2.2
  refine Change.keeps_all ?_ (h.changes wake manager) ⟨h.isGrown.inOrder, hover, rfl⟩
  intro s s' hchange ⟨horder, hended, htried⟩
  have hsame : s'.execution = s.execution := (hchange.growsInto horder).frozen hended
  refine ⟨hchange.isInOrder horder, hsame ▸ hended, ?_⟩
  have hidle {e : Execution} (hended : e.status.isTerminal = true) (moment : Moment)
      (cancelled : Bool) : (e.observe moment cancelled).isRunning ≠ true := by
    have hover : e.isRunning = false := by
      cases hrun : e.isRunning with
      | false => rfl
      | true => simp [Execution.status_eq_running hrun, Status.isTerminal] at hended
    rw [Execution.observe_of_not_isRunning hover, hover]
    exact Bool.false_ne_true
  cases hchange with
  | attempt _ hrun => exact absurd hrun (hidle hended _ _)
  | reattempt _ hrun => exact absurd hrun (hidle hended _ _)
  | register | finish | proceed | halt | settle =>
    exact (Sighting.filterMap_tried?_snapshot ..).trans htried
  | _ => exact htried

theorem ComesFrom.tried_after_of_isTerminal (h : r.ComesFrom engine moment call)
    (hover : r.execution.status.isTerminal = true) (course : Course) (count : Nat) :
    (r.after engine course count).tried = r.tried := by
  let Over (r' : Run) : Prop := r'.ComesFrom engine moment call ∧
    r'.execution.status.isTerminal = true ∧ r'.tried = r.tried
  have hkeep (r' : Run) (wake : Wake) (manager : Manager) (hr' : Over r') :
      Over (r'.resume engine wake manager).1 := by
    obtain ⟨hcomes, hended, hsame⟩ := hr'
    have hfrozen := (hcomes.growsInto wake manager).frozen hended
    exact ⟨hcomes.resume wake manager, hfrozen ▸ hended,
      (hcomes.tried_resume_of_isTerminal hended wake manager).trans hsame⟩
  have hlast : Over (r.after engine course count) :=
    after_keeps engine hkeep ⟨h, hover, rfl⟩ course count
  exact hlast.2.2

/-! ## Runs that try nothing more -/

/-- The first of several waits may be looked at on its own. -/
theorem after_succ_eq_resume (r : Run) (course : Course) (count : Nat) :
    r.after engine course (count + 1) =
      (r.resume engine (course 0).1 (course 0).2).1.after engine (fun wait => course (wait + 1))
        count := by
  induction count with
  | zero => rfl
  | succ count ih => rw [after_succ, ih, after_succ]

theorem after_add (r : Run) (course : Course) (count more : Nat) :
    r.after engine course (count + more) =
      (r.after engine course count).after engine (fun wait => course (count + wait)) more := by
  induction more with
  | zero => rfl
  | succ more ih => rw [← Nat.add_assoc, after_succ, ih, after_succ]

theorem Returns.of_resume {course : Course}
    (h : (r.resume engine (course 0).1 (course 0).2).1.Returns engine
      fun wait => course (wait + 1)) : r.Returns engine course := by
  obtain ⟨count, hcount⟩ := h
  exact ⟨count + 1, by rw [after_succ_eq_resume, hcount]⟩

/-- A run that closes returns. -/
theorem returns_of_isClosed (h : r.IsClosed) (course : Course) : r.Returns engine course := by
  rcases h with hphase | hphase
  · exact ⟨1, by rw [after_succ, after_zero, resume_of_closing hphase]⟩
  · exact ⟨0, hphase⟩

/-- A run that comes from a call and tries nothing more. -/
structure IsSpent (engine : Engine) (course : Course) (r : Run) : Prop where
  comesFrom : ∃ moment call, r.ComesFrom engine moment call
  quiet : ∀ count, (r.after engine course count).attempts ≤ r.attempts

variable {course : Course} {wake : Wake} {manager : Manager}

theorem ComesFrom.attempts_le (h : r.ComesFrom engine moment call) (wake : Wake)
    (manager : Manager) : r.attempts ≤ (r.resume engine wake manager).1.attempts :=
  (h.trace_prefix wake manager).sublist.countP_le

theorem IsSpent.resume (h : r.IsSpent engine course) :
    (r.resume engine (course 0).1 (course 0).2).1.IsSpent engine fun wait => course (wait + 1) := by
  obtain ⟨moment, call, hr⟩ := h.comesFrom
  refine ⟨⟨moment, call, hr.resume _ _⟩, fun count => ?_⟩
  rw [← after_succ_eq_resume]
  exact (h.quiet (count + 1)).trans (hr.attempts_le _ _)

end Run

/-- A point at which a walk does not wait for work at a node. -/
def Point.IsIdle : Point → Prop
  | .working _ _ _ => False
  | .saving _ _ | .pausing _ | .ended _ => True

namespace Traversal

variable {engine : Engine} {f : Funnel} {t : Traversal} {wake : Wake} {n : Node}

theorem isIdle_fail (fault : EngineFault) : (t.fail engine wake n fault).point.IsIdle := by
  unfold fail
  dsimp only
  split <;> trivial

theorem isIdle_conclude (result : ActionResult) :
    (t.conclude engine f wake n result).point.IsIdle := by
  unfold conclude
  dsimp only
  split
  next => exact isIdle_fail _
  next => split <;> trivial

/-- Work that has no result yet is waited for. -/
theorem point_work (isExempt : Bool) (task : Task) :
    (t.work engine f wake n isExempt task).point.IsIdle ∨
      (t.work engine f wake n isExempt task).point = .working n isExempt task ∧
        ∀ result, task ≠ .done result := by
  cases task with
  | done result => exact .inl (isIdle_conclude result)
  | sleep => exact .inr ⟨rfl, nofun⟩
  | ask => exact .inr ⟨rfl, nofun⟩

end Traversal

namespace Run

variable {engine : Engine} {r : Run} {course : Course}

/-- A run that goes on with a walk closes, or it stands where the walk stands. -/
theorem follow_cases (r : Run) (moment : Moment) (walk : Traversal) (manager : Manager) :
    (r.follow moment walk manager).1.IsClosed ∨
      (r.follow moment walk manager).1 = { r with phase := .walking, walk } ∧
        ∀ outcome, walk.point ≠ .ended outcome := by
  by_cases hended : ∃ outcome, walk.point = .ended outcome
  · obtain ⟨outcome, hpoint⟩ := hended
    rw [follow_of_ended r hpoint]
    exact .inl (.inl rfl)
  · have hpoint := not_exists.mp hended
    rw [follow_of_ne_ended r hpoint]
    exact .inr ⟨rfl, hpoint⟩

/-- What becomes of a run that tries nothing more. -/
inductive WindsDown (wake : Wake) (r next : Run) : Prop
  /-- It closes. -/
  | closes (h : next.IsClosed)
  /-- It notices that it is cancelled before it tries a node again. -/
  | halts {n : Node} (hphase : next.phase = .walking) (hfrom : r.walk.point = .pausing n)
      (hto : next.walk.point = .saving n .halt)
  /-- The work at a node comes to a result. -/
  | concludes {n : Node} {isExempt : Bool} {task : Task} (hphase : next.phase = .walking)
      (hfrom : r.walk.point = .working n isExempt task) (hto : next.walk.point.IsIdle)
  /-- The work at a node goes on. -/
  | works {n : Node} {isExempt : Bool} {task : Task} (hphase : next.phase = .walking)
      (hfrom : r.walk.point = .working n isExempt task)
      (hto : next.walk.point = .working n isExempt (Traversal.continueTask task wake))
      (hgoing : ∀ result, Traversal.continueTask task wake ≠ .done result)

namespace IsSpent

theorem windsDown (h : r.IsSpent engine course) (hunder : r.IsUnderWay) :
    WindsDown (r.hears (course 0).1 (course 0).2) r
      (r.resume engine (course 0).1 (course 0).2).1 := by
  obtain ⟨moment, call, hr⟩ := h.comesFrom
  have hquiet : (r.resume engine (course 0).1 (course 0).2).1.attempts ≤ r.attempts := h.quiet 1
  rcases (hr.belongsTo (WorksWith.trivial ..) rfl).steps hunder (course 0).1 (course 0).2 with
    ⟨-, hclose⟩ | ⟨-, walk, hfollow, hsteps, -⟩
  · rw [hclose]
    exact .closes (.inl rfl)
  rw [hfollow] at hquiet ⊢
  rcases r.follow_cases (course 0).1.moment walk (course 0).2 with hclosed | ⟨hnext, hopen⟩
  · exact .closes hclosed
  rw [hnext] at hquiet ⊢
  have hquiet : walk.attempts ≤ r.walk.attempts := hquiet
  cases hsteps with
  | goes hgoes =>
    cases hgoes with
    | ends hpoint => exact absurd hpoint (hopen _)
    | tries _ hattempt _ htried =>
      -- There would be one more attempt.
      rw [← Traversal.length_tried, ← Traversal.length_tried, hattempt, Traversal.tried_attempt,
        htried, List.length_append] at hquiet
      exact absurd hquiet (by simp)
  | stays hpoint hsame => exact absurd (hsame ▸ hpoint) (hopen _)
  | halts hfrom hto => exact .halts rfl hfrom hto
  | works hfrom _ hwork =>
    rcases Traversal.point_work _ _ with hidle | ⟨hpoint, hgoing⟩
    · exact .concludes rfl hfrom (hwork ▸ hidle)
    · exact .works rfl hfrom (hwork ▸ hpoint) hgoing
  | expires _ _ hfail =>
    rw [hfail, Traversal.fail_of_not_isRetryable _ rfl] at hopen
    exact absurd rfl (hopen _)

/-- A run that waits for a snapshot to be written, and tries nothing after it, returns. -/
theorem returns_of_saving (h : r.IsSpent engine course) (hphase : r.phase = .walking) {n : Node}
    {step : Step} (hpoint : r.walk.point = .saving n step) : r.Returns engine course := by
  cases h.windsDown (.inr hphase) with
  | closes hclosed => exact .of_resume (returns_of_isClosed hclosed _)
  | halts _ hfrom => simp [hpoint] at hfrom
  | concludes _ hfrom => simp [hpoint] at hfrom
  | works _ hfrom => simp [hpoint] at hfrom

/-- A run that waits for no work, and tries nothing more, returns. -/
theorem returns_of_isIdle (h : r.IsSpent engine course) (hphase : r.phase = .walking)
    (hidle : r.walk.point.IsIdle) : r.Returns engine course := by
  cases h.windsDown (.inr hphase) with
  | closes hclosed => exact .of_resume (returns_of_isClosed hclosed _)
  | halts hphase' _ hto => exact .of_resume (h.resume.returns_of_saving hphase' hto)
  | concludes _ hfrom => simp [hfrom, Point.IsIdle] at hidle
  | works _ hfrom => simp [hfrom, Point.IsIdle] at hidle

/-- A run that waits for work, and tries nothing more, returns if it does so whenever the work goes
on. -/
theorem returns_of_continued (h : r.IsSpent engine course) (hphase : r.phase = .walking) {n : Node}
    {isExempt : Bool} {task : Task} (hpoint : r.walk.point = .working n isExempt task)
    (hon : ∀ wake, (∀ result, Traversal.continueTask task wake ≠ .done result) →
      ∀ {r' : Run} {course' : Course}, r'.IsSpent engine course' → r'.phase = .walking →
        r'.walk.point = .working n isExempt (Traversal.continueTask task wake) →
          r'.Returns engine course') : r.Returns engine course := by
  cases h.windsDown (.inr hphase) with
  | closes hclosed => exact .of_resume (returns_of_isClosed hclosed _)
  | halts _ hfrom => simp [hpoint] at hfrom
  | concludes hphase' _ hto => exact .of_resume (h.resume.returns_of_isIdle hphase' hto)
  | works hphase' hfrom hto hgoing =>
    obtain ⟨rfl, rfl, rfl⟩ := Point.working.inj (hpoint.symm.trans hfrom)
    exact .of_resume (hon _ hgoing h.resume hphase' hto)

/-- Work comes to a result after finitely many waits. -/
theorem returns_of_working {n : Node} {isExempt : Bool} {task : Task} {r : Run} {course : Course}
    (h : r.IsSpent engine course) (hphase : r.phase = .walking)
    (hpoint : r.walk.point = .working n isExempt task) : r.Returns engine course := by
  induction task generalizing r course with
  | done result => exact h.returns_of_continued hphase hpoint fun _ hgoing => absurd rfl (hgoing result)
  | sleep time next ih =>
    exact h.returns_of_continued hphase hpoint fun wake _ => ih wake.moment.now
  | ask request next ih =>
    exact h.returns_of_continued hphase hpoint fun wake _ => ih wake.moment.now (wake.reply request)

/-- **A run that tries nothing more returns.** -/
theorem returns (h : r.IsSpent engine course) : r.Returns engine course := by
  have hwalking {r : Run} {course : Course} (h : r.IsSpent engine course)
      (hphase : r.phase = .walking) : r.Returns engine course := by
    cases hpoint : r.walk.point with
    | working => exact h.returns_of_working hphase hpoint
    | saving | pausing | ended => exact h.returns_of_isIdle hphase (by rw [hpoint]; trivial)
  cases hphase : r.phase with
  | opening =>
    have hnext := h.windsDown (.inl hphase)
    refine .of_resume ?_
    cases hnext with
    | closes hclosed => exact returns_of_isClosed hclosed _
    | halts hphase' | concludes hphase' | works hphase' => exact hwalking h.resume hphase'
  | walking => exact hwalking h hphase
  | closing => exact returns_of_isClosed (.inl hphase) course
  | returned => exact returns_of_isClosed (.inr hphase) course

end IsSpent

/-- **A run that makes finitely many attempts returns**, whatever its executors are. -/
theorem ComesFrom.returns {moment : Moment} {call : Call} (h : r.ComesFrom engine moment call)
    (hend : r.AttemptsEnd engine course) : r.Returns engine course := by
  obtain ⟨most, hmost⟩ := hend
  have hbounded : BddAbove (Set.range fun count => (r.after engine course count).attempts) :=
    ⟨most, by rintro _ ⟨count, rfl⟩; exact hmost count⟩
  obtain ⟨last, hlast⟩ := Nat.sSup_mem (Set.range_nonempty _) hbounded
  have hspent : (r.after engine course last).IsSpent engine fun wait => course (last + wait) := by
    refine ⟨⟨moment, call, h.after course last⟩, fun more => ?_⟩
    rw [← after_add]
    exact (le_csSup hbounded ⟨last + more, rfl⟩).trans hlast.ge
  obtain ⟨more, hmore⟩ := hspent.returns
  exact ⟨last + more, by rw [after_add, hmore]⟩

end Run

end Outreach
