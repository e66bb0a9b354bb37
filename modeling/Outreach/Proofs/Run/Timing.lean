import Outreach.Proofs.Run.Retries
import Outreach.Proofs.Walk.Timing

/-!
# Runs whose time is limited

What a run does between its first snapshot and its last is a walk with the time that the engine
allows. It is the walk that the run would take with all the time there is, until its waits cost more
than this (`Run.timeout_exact`). Before its first snapshot is written a run has no budget yet, so
neither that nor the time in which its call waited for a slot costs anything.
-/

namespace Outreach

namespace Run

section

variable (engine : Engine) (r : Run) (course : Course)

/-- What a run hears at so many of its waits, after the first snapshot is written. -/
def wakes (count : Nat) : List Wake :=
  (List.range count).map fun wait => r.hears (course (wait + 1)).1 (course (wait + 1)).2

/-- The walk of a run from a node on, with some budget, after so many waits. -/
def walkFrom (n : Node) (budget : Budget) (count : Nat) : Traversal :=
  (r.walk.start engine r.funnel (r.hears (course 0).1 (course 0).2) n budget).drive engine r.funnel
    (r.wakes course count)

/-- What so many waits of this walk cost, if it has all the time there is. -/
def costFrom (n : Node) (count : Nat) : Nat :=
  (r.walk.start engine r.funnel (r.hears (course 0).1 (course 0).2) n .unlimited).cost engine
    r.funnel (r.wakes course count)

end

variable {engine : Engine} {r : Run} {course : Course} {n : Node} {budget : Budget} {count : Nat}

theorem wakes_succ (r : Run) (course : Course) (count : Nat) :
    r.wakes course (count + 1) =
      r.wakes course count ++ [r.hears (course (count + 1)).1 (course (count + 1)).2] := by
  rw [wakes, List.range_succ, List.map_append]
  rfl

theorem walkFrom_succ :
    r.walkFrom engine course n budget (count + 1) =
      (r.walkFrom engine course n budget count).resume engine r.funnel
        (r.hears (course (count + 1)).1 (course (count + 1)).2) := by
  rw [walkFrom, wakes_succ, Traversal.drive, List.foldl_append]
  rfl

theorem costFrom_succ :
    r.costFrom engine course n (count + 1) = r.costFrom engine course n count +
      (r.walkFrom engine course n .unlimited count).price engine
        (r.hears (course (count + 1)).1 (course (count + 1)).2) := by
  rw [costFrom, wakes_succ, Traversal.cost_concat]
  rfl

theorem costFrom_mono : Monotone (r.costFrom engine course n) :=
  monotone_nat_of_le_succ fun _ => costFrom_succ ▸ Nat.le_add_right ..

/-- A run whose walk has not come to its end stands where the walk stands. -/
theorem follow_of_outcome? (r : Run) {walk : Traversal} (h : walk.point.outcome? = none)
    (moment : Moment) (manager : Manager) :
    r.follow moment walk manager = ({ r with phase := .walking, walk }, manager) := by
  refine follow_of_ne_ended r (fun outcome hended => ?_) moment manager
  rw [hended] at h
  cases h

/-- A walk that has come to its end stays there. -/
theorem outcome?_walkFrom {earlier : Nat} (hle : earlier ≤ count)
    (h : (r.walkFrom engine course n budget count).point.outcome? = none) :
    (r.walkFrom engine course n budget earlier).point.outcome? = none := by
  induction count, hle using Nat.le_induction with
  | base => exact h
  | succ count _ ih =>
    refine ih ?_
    cases hpoint : (r.walkFrom engine course n budget count).point with
    | ended outcome =>
      have hover : r.walkFrom engine course n budget (count + 1) =
          r.walkFrom engine course n budget count := by
        rw [walkFrom_succ, Traversal.resume, hpoint]
      rw [hover, hpoint] at h
      cases h
    | _ => rfl

/-- Only nodes of the funnel lie before the walk of a run. -/
theorem upholds_walkFrom (hn : n ∈ r.funnel.nodes) (budget : Budget) (count : Nat) :
    (r.walkFrom engine course n budget count).Upholds engine r.funnel (fun _ _ => True)
      fun _ _ => True := by
  have hstart : (r.walk.start engine r.funnel (r.hears (course 0).1 (course 0).2) n budget).Upholds
      engine r.funnel (fun _ _ => True) fun _ _ => True :=
    Traversal.Carries.start _ (WorksWith.trivial ..) .trivial trivial hn budget
  exact hstart.drive (WorksWith.trivial ..) .trivial _

/-- The walk of a run is the walk with all the time there is, but for its budget, as long as what this
costs is within the limit. -/
theorem walkFrom_limited (hn : n ∈ r.funnel.nodes) {limit : Nat}
    (hfits : r.costFrom engine course n count ≤ limit) :
    r.walkFrom engine course n (.limited limit) count =
      { r.walkFrom engine course n .unlimited count with
        budget := .used limit (r.costFrom engine course n count) } := by
  have hfree : (r.walkFrom engine course n .unlimited 0).budget = .unlimited :=
    congrArg Traversal.budget (Traversal.start_budget ..)
  rw [walkFrom, Traversal.start_budget]
  rw [← Nat.zero_add (costFrom ..)] at hfits ⊢
  exact Traversal.drive_used (WorksWith.trivial ..) .trivial (upholds_walkFrom hn .unlimited 0) hfree
    _ hfits

/-! ## When the time is over -/

/-- What a run has come to whose time was over: it has failed, its last error says so, and trying again
would not help. -/
structure IsTimedOut (engine : Engine) (tried : List Node) (r : Run) : Prop where
  closed : r.IsClosed
  failed : r.execution.status = .failed
  last : ∃ entry, r.execution.errors.getLast? = some entry ∧ entry.node = none ∧
    entry.message = (EngineFault.timeout engine.limits.timeout).message ∧ entry.isRetryable = false
  tried : r.tried = tried

theorem IsTimedOut.resume {tried : List Node} (h : r.IsTimedOut engine tried) (wake : Wake)
    (manager : Manager) : (r.resume engine wake manager).1.IsTimedOut engine tried := by
  have hwalk := h.closed.walk_resume engine wake manager
  have hexecution : (r.resume engine wake manager).1.execution = r.execution :=
    congrArg Traversal.execution hwalk
  refine ⟨h.closed.resume engine wake manager, hexecution ▸ h.failed, hexecution ▸ h.last, ?_⟩
  exact (congrArg Traversal.tried hwalk).trans h.tried

theorem IsTimedOut.after {tried : List Node} (h : r.IsTimedOut engine tried) (course : Course)
    (count : Nat) : (r.after engine course count).IsTimedOut engine tried :=
  after_keeps engine (fun _ wake manager hr => hr.resume wake manager) h course count

/-- A run whose walk ends since its time is over has timed out. -/
theorem isTimedOut_follow {moment : Moment} {call : Call} {walk : Traversal}
    (hpoint : walk.point = .ended (.error (.timeout engine.limits.timeout)))
    (htoken : r.token.isSome = true) (hentry : r.funnel.entry?.isSome = true)
    {now : Moment} {manager : Manager}
    (hr : (r.follow now walk manager).1.ComesFrom engine moment call) :
    (r.follow now walk manager).1.IsTimedOut engine walk.tried := by
  have htried := r.tried_follow now walk manager
  rw [follow_of_ended r hpoint] at hr htried ⊢
  have houtcome : Run.outcome { r with phase := .walking, walk } =
      .error (.timeout engine.limits.timeout) :=
    outcome_of_ended (r := { r with phase := .walking, walk }) htoken hentry hpoint
  have hends := hr.endsBy (.inl rfl)
  rw [outcome_close, houtcome] at hends
  obtain ⟨before, entry, herrors, -, hnode, hmessage, hretryable⟩ := hends.last _ rfl
  have hlast := (congrArg List.getLast? herrors).trans List.getLast?_concat
  exact ⟨.inl rfl, hends.failed_iff_fault.mpr ⟨_, rfl⟩, ⟨entry, hlast, hnode, hmessage, hretryable⟩,
    htried⟩

/-- A walk that has come to its end costs nothing more. -/
theorem outcome?_of_costFrom_lt
    (h : r.costFrom engine course n count < r.costFrom engine course n (count + 1)) :
    (r.walkFrom engine course n .unlimited count).point.outcome? = none := by
  rw [costFrom_succ, Traversal.price] at h
  cases hpoint : (r.walkFrom engine course n .unlimited count).point with
  | ended =>
    rw [hpoint] at h
    exact absurd h (Nat.lt_irrefl _)
  | _ => rfl

/-- The wait by which the waits of a walk cost more than the limit ends it, where exactly the limit is
used up. -/
theorem walkFrom_of_costFrom_lt (hn : n ∈ r.funnel.nodes) {limit : Nat}
    (hfits : r.costFrom engine course n count ≤ limit)
    (hover : limit < r.costFrom engine course n (count + 1)) :
    (r.walkFrom engine course n (.limited limit) count).point.outcome? = none ∧
      r.costFrom engine course n count + (r.walkFrom engine course n (.limited limit) count).cut
          (course (count + 1)).1.spent = limit ∧
      (r.walkFrom engine course n (.limited limit) (count + 1)).point =
        .ended (.error (.timeout limit)) ∧
      (r.walkFrom engine course n (.limited limit) (count + 1)).tried =
        (r.walkFrom engine course n .unlimited count).tried := by
  have hopen := outcome?_of_costFrom_lt (hfits.trans_lt hover)
  rw [costFrom_succ] at hover
  obtain ⟨hcharge, hcut⟩ :=
    Traversal.charge_of_lt_price (upholds_walkFrom hn .unlimited count).point.belongsTo hfits hover
  rw [walkFrom_succ, walkFrom_limited hn hfits]
  exact ⟨hopen, hcut, Traversal.resume_of_overdrawn engine r.funnel hcharge⟩

section

variable (hphase : r.phase = .opening) (hentry : r.funnel.entry? = some n)

include hphase hentry

/-- **A run walks** as long as its walk has not come to its end. -/
theorem after_eq_follow (hgoing : ∀ earlier < count,
      (r.walkFrom engine course n (.limited engine.limits.timeout) earlier).point.outcome? = none) :
    r.after engine course (count + 1) = (r.follow (course count).1.moment
      (r.walkFrom engine course n (.limited engine.limits.timeout) count) (course count).2).1 := by
  induction count with
  | zero =>
    rw [after_succ, after_zero, resume, hphase, hentry]
    rfl
  | succ count ih =>
    have hbefore := ih fun earlier hlt => hgoing earlier (Nat.lt_succ_of_lt hlt)
    have hopen := hgoing count (Nat.lt_succ_self count)
    rw [follow_of_outcome? r hopen] at hbefore
    rw [after_succ, hbefore, walkFrom_succ]
    rfl

/-- **A run with a limit is the walk without one**, as long as what its waits cost is within the
limit. -/
theorem after_eq_follow_unlimited
    (hfits : r.costFrom engine course n count ≤ engine.limits.timeout)
    (hgoing : ∀ earlier < count,
      (r.walkFrom engine course n .unlimited earlier).point.outcome? = none) :
    r.after engine course (count + 1) = (r.follow (course count).1.moment
      { r.walkFrom engine course n .unlimited count with
        budget := .used engine.limits.timeout (r.costFrom engine course n count) }
      (course count).2).1 := by
  have hn : n ∈ r.funnel.nodes := Funnel.mem_of_entry? hentry
  rw [← walkFrom_limited hn hfits]
  refine after_eq_follow hphase hentry fun earlier hlt => ?_
  rw [walkFrom_limited hn ((costFrom_mono hlt.le).trans hfits)]
  exact hgoing earlier hlt

/-- A run stands where its walk stands, as long as this has not come to its end. -/
theorem after_eq_walkFrom (hopen : (r.walkFrom engine course n (.limited engine.limits.timeout)
      count).point.outcome? = none) :
    r.after engine course (count + 1) = { r with
      phase := .walking,
      walk := r.walkFrom engine course n (.limited engine.limits.timeout) count } := by
  rw [after_eq_follow hphase hentry fun earlier hlt => outcome?_walkFrom hlt.le hopen,
    follow_of_outcome? r hopen]

/-- **A run is cut** at the wait by which its waits cost more than the limit. -/
theorem ComesFrom.isTimedOut {moment : Moment} {call : Call} (hr : r.ComesFrom engine moment call)
    (hfits : r.costFrom engine course n count ≤ engine.limits.timeout)
    (hover : engine.limits.timeout < r.costFrom engine course n (count + 1)) :
    (r.after engine course (count + 1)).phase = .walking ∧
      r.costFrom engine course n count +
          (r.after engine course (count + 1)).walk.cut (course (count + 1)).1.spent =
        engine.limits.timeout ∧
      (r.after engine course (count + 2)).phase = .closing ∧
      (r.after engine course (count + 2)).IsTimedOut engine
        (r.walkFrom engine course n .unlimited count).tried := by
  obtain ⟨hopen, hcut, hpoint, htried⟩ :=
    walkFrom_of_costFrom_lt (Funnel.mem_of_entry? hentry) hfits hover
  have hstands := after_eq_walkFrom hphase hentry hopen
  have hcuts : r.after engine course (count + 2) = (r.follow (course (count + 1)).1.moment
      (r.walkFrom engine course n (.limited engine.limits.timeout) (count + 1))
      (course (count + 1)).2).1 :=
    after_eq_follow hphase hentry fun earlier hlt =>
      outcome?_walkFrom (Nat.le_of_lt_succ hlt) hopen
  have hnext := hr.after course (count + 2)
  have hbelongs := hr.belongsTo (WorksWith.trivial engine call.funnel) rfl
  refine ⟨by rw [hstands], by rw [hstands]; exact hcut, ?_, ?_⟩
  · rw [hcuts, follow_of_ended r hpoint]
    rfl
  · rw [hcuts] at hnext ⊢
    rw [← htried]
    exact isTimedOut_follow hpoint (hbelongs.token (.inl hphase)) (hentry ▸ rfl) hnext

end

theorem phase_start_of_token {moment : Moment} {call : Call} {manager : Manager}
    (h : (Run.start moment call manager).1.token.isSome = true) :
    (Run.start moment call manager).1.phase = .opening := by
  unfold Run.start at h ⊢
  dsimp only at h ⊢
  split
  next => rfl
  next _ hrefused =>
    rw [hrefused] at h
    cases h

/-- **The time of a run is limited exactly**, whatever the funnel, the executors, the durations of the
waits and the cancellations are, and whenever its call got a slot. As long as the waits for executors
that are not exempt, and the pauses, add up to no more than the limit, the run does what the walk with
all the time there is does, and settles it when this ends. At the first wait by which they add up to
more, the run is cut when exactly the limit is used up: it fails since its time is over, tries nothing
any more, and returns. -/
theorem timeout_exact (engine : Engine) {moment : Moment} {call : Call} {manager : Manager}
    (hregistered : (Run.start moment call manager).1.token.isSome = true)
    (hentry : call.funnel.entry? = some n) (course : Course) :
    let r := (Run.start moment call manager).1
    let limit := engine.limits.timeout
    let free := r.walkFrom engine course n .unlimited
    let cost := r.costFrom engine course n
    (∀ count, cost count ≤ limit → (∀ earlier < count, (free earlier).point.outcome? = none) →
        r.after engine course (count + 1) = (r.follow (course count).1.moment
          { free count with budget := .used limit (cost count) } (course count).2).1) ∧
      ∀ count, cost count ≤ limit → limit < cost (count + 1) →
        (r.after engine course (count + 1)).phase = .walking ∧
        cost count + (r.after engine course (count + 1)).walk.cut (course (count + 1)).1.spent =
          limit ∧
        (∀ more, (r.after engine course (count + 2 + more)).IsTimedOut engine (free count).tried) ∧
        ∀ more, (r.after engine course (count + 3 + more)).phase = .returned := by
  intro r limit free cost
  have hr : r.ComesFrom engine moment call := .start manager
  have hphase : r.phase = .opening := phase_start_of_token hregistered
  have hbelongs := hr.belongsTo (WorksWith.trivial engine call.funnel) rfl
  have hentry : r.funnel.entry? = some n := hbelongs.funnel ▸ hentry
  refine ⟨fun count hfits hgoing => after_eq_follow_unlimited hphase hentry hfits hgoing,
    fun count hfits hover => ?_⟩
  obtain ⟨hwalking, hcut, hclosing, htimedOut⟩ := hr.isTimedOut hphase hentry hfits hover
  have hreturned : (r.after engine course (count + 3)).phase = .returned := by
    rw [after_succ, resume_of_closing hclosing]
  refine ⟨hwalking, hcut, fun more => ?_, fun more => ?_⟩
  · rw [after_add]
    exact htimedOut.after _ more
  · rw [after_add_of_returned hreturned]
    exact hreturned

end Run

/-- A registry in which only errands have a meaning; the time that they take is charged. -/
def Registry.errands : Registry :=
  [("errand", .custom "errand", .delegating "errand" false)]

/-- A node that delegates an errand. -/
def Funnel.errand : Node where
  id := "a"
  type := .custom "errand"
  name := ""
  settings := .null
  connections := []
  position := none

/-- Nothing but an errand. -/
def Funnel.errands : Funnel where
  id := "errands"
  name := ""
  description := none
  version := 1
  nodes := [errand]
  tags := []
  metadata := []

theorem Run.errands_time_out :
    Funnel.errands.entry? = some Funnel.errand ∧
      ∀ (triggerId : Option String) (vars : Variables) (moment : Moment) (wakes : Nat → Wake),
        let engine : Engine := ⟨.errands, { Limits.standard with timeout := 9 }⟩
        let r := (Run.start moment ⟨.errands, triggerId, vars⟩ (.create 1)).1
        let course : Course := fun wait => ({ wakes wait with spent := 10 }, .create 1)
        r.token.isSome = true ∧ (r.after engine course 1).walk.cut 10 = 9 ∧ ∀ more,
          (r.after engine course (2 + more)).IsTimedOut engine [Funnel.errand] ∧
            (r.after engine course (3 + more)).phase = .returned := by
  have hentry : Funnel.errands.entry? = some Funnel.errand := rfl
  refine ⟨hentry, fun triggerId vars moment wakes => ?_⟩
  intro engine r course
  let call : Call := ⟨.errands, triggerId, vars⟩
  let first := r.walkFrom engine course Funnel.errand .unlimited 0
  have hregistered : (Run.start moment call (.create 1)).1.token.isSome = true := rfl
  obtain ⟨-, hcut⟩ := timeout_exact engine hregistered hentry course
  have hpoint : first.point = .working Funnel.errand false (Executor.perform
      (.delegating "errand" false) (wakes 0).moment.now Funnel.errand first.execution) := rfl
  have htried : first.tried = [Funnel.errand] := rfl
  have hcost : r.costFrom engine course Funnel.errand 1 = 10 := by
    rw [costFrom_succ, Traversal.price, hpoint]
    rfl
  obtain ⟨-, hcut, htimedOut, hreturned⟩ := hcut 0 (Nat.zero_le _) (by rw [hcost]; decide)
  rw [htried] at htimedOut
  exact ⟨hregistered, (Nat.zero_add _).symm.trans hcut,
    fun more => ⟨htimedOut more, hreturned more⟩⟩

end Outreach
