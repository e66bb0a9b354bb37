import Outreach.Proofs.Walk.Circling
import Outreach.Proofs.Walk.Worth

/-!
# When runs end

A run through an accepted funnel whose connections declare the nodes that hold them makes finitely
many attempts exactly if it makes finitely many jumps, and then it comes to its end, whatever the
services reply and however long they take (`Run.ends_iff_jumps_bounded`). Whether it makes finitely
many jumps is not looked at by an examination: there is an accepted funnel on which every run that
is not cancelled jumps for ever (`Run.circling_never_ends`).
-/

namespace Outreach

namespace Funnel.Accepted

variable {f : Funnel} {channels : List Channel} {checked : Limits}

/-- Only at once does a built-in executor name a node to jump to. -/
theorem worksWith_isUndirected (h : f.Accepted (.builtIn channels) checked) (limits : Limits) :
    WorksWith ⟨.builtIn channels, limits⟩ f fun _ task => task.IsUndirected where
  perform hn hx now e := by
    dsimp only at hx
    exact (h.ends hn hx now e).mono (fun _ _ => trivial) fun _ hr => hr.nextNode
  goesOn hq wake := by
    cases hq with
    | done => exact .done trivial
    | sleep h =>
      obtain ⟨result, hresult, -⟩ := h wake.moment.now
      rw [Traversal.continueTask, hresult]
      exact .done trivial
    | ask h =>
      obtain ⟨result, hresult, -⟩ := h wake.moment.now (wake.reply _)
      rw [Traversal.continueTask, hresult]
      exact .done trivial

end Funnel.Accepted

namespace Run

/-! ## From one wait to the next -/

/-- The attempts of a run. -/
def attempts (r : Run) : Nat :=
  r.walk.attempts

/-- The attempts of a run at conditions that chose a node to jump to. -/
def jumps (r : Run) : Nat :=
  r.walk.jumps

/-- What is left to be done in a run. -/
def worth (f : Funnel) (limits : Limits) (weight : Node → Nat) (r : Run) : Nat :=
  match r.phase with
  | .opening => 3 + Funnel.burden weight f.nodes
  | .walking => 2 + r.walk.worth f limits weight
  | .closing => 1
  | .returned => 0

section

variable {engine : Engine} {r : Run} {p : Sighting → Bool} (hp : ∀ e, p (.snapshot e) = false)

include hp

theorem countP_close (moment : Moment) (outcome : Except EngineFault Unit) (manager : Manager) :
    (r.close moment outcome manager).1.walk.trace.countP p = r.walk.trace.countP p := by
  simp [close, Traversal.see, List.countP_append, hp]

theorem countP_follow (moment : Moment) (walk : Traversal) (manager : Manager) :
    (r.follow moment walk manager).1.walk.trace.countP p = walk.trace.countP p := by
  unfold follow
  dsimp only
  split
  next => rw [countP_close hp]
  next => rfl

/-- Between two waits there is at most one attempt. -/
theorem countP_resume_le (wake : Wake) (manager : Manager) :
    (r.resume engine wake manager).1.walk.trace.countP p ≤ r.walk.trace.countP p + 1 := by
  unfold resume
  dsimp only
  split
  next =>
    split
    next => rw [countP_close hp]; exact Nat.le_succ _
    next => rw [countP_follow hp]; exact Traversal.countP_advance_le hp
  next => rw [countP_follow hp]; exact Traversal.countP_resume_le hp
  next => exact Nat.le_succ _
  next => exact Nat.le_succ _

end

section

variable {engine : Engine} {f : Funnel} {limits : Limits} {weight : Node → Nat} {r : Run}

theorem attempts_resume_le (wake : Wake) (manager : Manager) :
    (r.resume engine wake manager).1.attempts ≤ r.attempts + 1 :=
  countP_resume_le (fun _ => rfl) wake manager

theorem jumps_close (moment : Moment) (outcome : Except EngineFault Unit) (manager : Manager) :
    (r.close moment outcome manager).1.jumps = r.jumps :=
  countP_close (fun _ => rfl) moment outcome manager

theorem jumps_follow (moment : Moment) (walk : Traversal) (manager : Manager) :
    (r.follow moment walk manager).1.jumps = walk.jumps :=
  countP_follow (fun _ => rfl) moment walk manager

theorem jumps_le_attempts (r : Run) : r.jumps ≤ r.attempts :=
  r.walk.jumps_le_attempts

theorem worth_follow_le (moment : Moment) (walk : Traversal) (manager : Manager) :
    (r.follow moment walk manager).1.worth f limits weight ≤ 2 + walk.worth f limits weight := by
  unfold follow
  dsimp only
  split
  next outcome _ => exact Nat.le_add_right_of_le (Nat.le_succ 1)
  next => exact Nat.le_refl _

/-- A run that is over stays as it is. -/
theorem resume_of_returned (h : r.phase = .returned) (wake : Wake) (manager : Manager) :
    (r.resume engine wake manager).1 = r := by
  unfold resume
  rw [h]

end

section

variable (f : Funnel) (limits : Limits) (weight : Node → Nat)

/-- Something was taken from what is left to be done in a run, but for jumps. -/
def Spends (r r' : Run) : Prop :=
  r'.worth f limits weight + 1 + Funnel.burden weight f.nodes * r.jumps ≤
    r.worth f limits weight + Funnel.burden weight f.nodes * r'.jumps

end

variable {f : Funnel} {channels : List Channel} {checked limits : Limits} {weight : Node → Nat}
  {r : Run} {P : Execution → List Sighting → Prop}

theorem spends_close (h : 2 ≤ r.worth f limits weight) (moment : Moment)
    (outcome : Except EngineFault Unit) (manager : Manager) :
    r.Spends f limits weight (r.close moment outcome manager).1 := by
  rw [Spends, jumps_close]
  exact Nat.add_le_add_right h _

theorem spends_follow {walk : Traversal}
    (h : walk.worth f limits weight + 3 + Funnel.burden weight f.nodes * r.jumps ≤
      r.worth f limits weight + Funnel.burden weight f.nodes * walk.jumps)
    (moment : Moment) (manager : Manager) :
    r.Spends f limits weight (r.follow moment walk manager).1 := by
  have hworth : (r.follow moment walk manager).1.worth f limits weight ≤
      2 + walk.worth f limits weight := worth_follow_le moment walk manager
  rw [Spends, jumps_follow]
  omega

/-- The weight of the entry pays for setting out. -/
theorem spends_opening (hpays : f.Pays limits.retries weight)
    (h : f.Accepted (.builtIn channels) checked) (hphase : r.phase = .opening) {n : Node}
    (hentry : f.entry? = some n) (wake : Wake) (manager : Manager) :
    r.Spends f limits weight (r.follow wake.moment
      (r.walk.start ⟨.builtIn channels, limits⟩ f wake n (.limited limits.timeout)) manager).1 := by
  have hn := Funnel.mem_of_entry? hentry
  have hweight := Funnel.weight_le_burden weight hn
  have hworth : r.worth f limits weight = 3 + Funnel.burden weight f.nodes := by
    rw [worth, hphase]
  have hadvance := Traversal.worth_advance_le hpays h
    { r.walk with pending := [n], budget := .limited limits.timeout } wake
    (List.cons_subset.mpr ⟨hn, List.nil_subset _⟩)
  change _ + _ * r.jumps ≤ _ at hadvance
  simp only [Funnel.burden_cons, Funnel.burden_nil] at hadvance
  refine spends_follow ?_ _ _
  rw [hworth, Traversal.start]
  omega

/-- What is left to be done on its walk pays for a run that is walking. -/
theorem spends_walking (hpays : f.Pays limits.retries weight)
    (h : f.Accepted (.builtIn channels) checked)
    (hr : r.Upholds ⟨.builtIn channels, limits⟩ f (fun _ task => task.IsUndirected) P)
    (hphase : r.phase = .walking) (wake : Wake) (manager : Manager) :
    r.Spends f limits weight (r.follow wake.moment
      (r.walk.resume ⟨.builtIn channels, limits⟩ f wake) manager).1 := by
  have hworth : r.worth f limits weight = 2 + r.walk.worth f limits weight := by
    rw [worth, hphase]
  -- A walk that has ended has no worth to pay with, but its run closes at once.
  by_cases hend : ∃ outcome, r.walk.point = .ended outcome
  · obtain ⟨outcome, hpoint⟩ := hend
    have hfollow : r.follow wake.moment (r.walk.resume ⟨.builtIn channels, limits⟩ f wake) manager =
        { r with phase := .walking }.close wake.moment outcome manager := by
      unfold follow Traversal.resume
      simp only [hpoint]
    rw [hfollow, Spends, jumps_close]
    change 1 + 1 + _ * r.jumps ≤ _ + _ * r.jumps
    omega
  · have hresume := Traversal.spends_resume hpays h hr.walk (not_exists.mp hend) wake
    change _ + _ * r.jumps ≤ _ at hresume
    refine spends_follow ?_ _ _
    rw [hworth]
    omega

/-- **A wait takes something from what is left to be done in a run**, but for a jump. -/
theorem spends_resume (hpays : f.Pays limits.retries weight)
    (h : f.Accepted (.builtIn channels) checked)
    (hr : r.Upholds ⟨.builtIn channels, limits⟩ f (fun _ task => task.IsUndirected) P)
    (hgoing : r.phase ≠ .returned) (wake : Wake) (manager : Manager) :
    r.Spends f limits weight (r.resume ⟨.builtIn channels, limits⟩ wake manager).1 := by
  unfold resume
  dsimp only
  split
  next hphase =>
    rw [hr.funnel]
    split
    next =>
      refine spends_close ?_ _ _ _
      rw [worth, hphase]
      exact Nat.le_add_right_of_le (Nat.le_succ 2)
    next n hentry => exact spends_opening hpays h hphase hentry _ manager
  next hphase =>
    rw [hr.funnel]
    exact spends_walking hpays h hr hphase _ manager
  next hphase =>
    rw [Spends, worth, worth, hphase]
    exact Nat.le_refl _
  next hphase => exact absurd hphase hgoing

/-! ## Whole runs -/

section

variable (engine : Engine) (r : Run) (course : Course)

/-- A run makes only so many attempts. -/
def AttemptsEnd : Prop :=
  ∃ most, ∀ count, (r.after engine course count).attempts ≤ most

/-- A run makes only so many jumps. -/
def JumpsEnd : Prop :=
  ∃ most, ∀ count, (r.after engine course count).jumps ≤ most

/-- A run comes to its end. -/
def Returns : Prop :=
  ∃ count, (r.after engine course count).phase = .returned

variable {engine r course}

theorem AttemptsEnd.jumpsEnd (h : r.AttemptsEnd engine course) : r.JumpsEnd engine course := by
  obtain ⟨most, hmost⟩ := h
  exact ⟨most, fun count => (jumps_le_attempts _).trans (hmost count)⟩

theorem attempts_after_le (count : Nat) :
    (r.after engine course count).attempts ≤ r.attempts + count := by
  induction count with
  | zero => exact Nat.le_refl _
  | succ count ih => exact (attempts_resume_le _ _).trans (Nat.succ_le_succ ih)

/-- A run that has come to its end stays as it is. -/
theorem after_add_of_returned {count : Nat} (h : (r.after engine course count).phase = .returned)
    (more : Nat) : r.after engine course (count + more) = r.after engine course count := by
  induction more with
  | zero => rfl
  | succ more ih => rw [← Nat.add_assoc, after_succ, ih, resume_of_returned h]

theorem Returns.attemptsEnd (h : r.Returns engine course) : r.AttemptsEnd engine course := by
  obtain ⟨last, hlast⟩ := h
  refine ⟨r.attempts + last, fun count => ?_⟩
  -- Until the end there is at most one attempt for each wait, and none after it.
  rcases Nat.le_total count last with hle | hle
  · exact (attempts_after_le count).trans (Nat.add_le_add_left hle _)
  · obtain ⟨more, rfl⟩ := Nat.exists_eq_add_of_le hle
    rw [after_add_of_returned hlast]
    exact attempts_after_le last

end

section

variable {course : Course} (hpays : f.Pays limits.retries weight)
  (h : f.Accepted (.builtIn channels) checked)
  (hr : r.Upholds ⟨.builtIn channels, limits⟩ f (fun _ task => task.IsUndirected) fun _ _ => True)

include hpays h hr

/-- What is left to be done, and the jumps, pay for the waits of a run that is not over. -/
theorem count_le_of_going {count : Nat}
    (hgoing : (r.after ⟨.builtIn channels, limits⟩ course count).phase ≠ .returned) :
    (r.after ⟨.builtIn channels, limits⟩ course count).worth f limits weight + count +
        Funnel.burden weight f.nodes * r.jumps ≤
      r.worth f limits weight + Funnel.burden weight f.nodes *
        (r.after ⟨.builtIn channels, limits⟩ course count).jumps := by
  induction count with
  | zero => exact Nat.le_refl _
  | succ count ih =>
    have hbefore : (r.after ⟨.builtIn channels, limits⟩ course count).phase ≠ .returned := by
      intro hover
      rw [after_succ, resume_of_returned hover] at hgoing
      exact hgoing hover
    have hpoint := hr.after (h.worksWith_isUndirected limits) .trivial course count
    have hspends := spends_resume hpays h hpoint hbefore (course count).1 (course count).2
    have hcount := ih hbefore
    rw [Spends, ← after_succ] at hspends
    omega

/-- What is left to be done, and the jumps, pay for the attempts of a run. -/
theorem attempts_after_add_le (course : Course) (count : Nat) :
    (r.after ⟨.builtIn channels, limits⟩ course count).worth f limits weight +
        (r.after ⟨.builtIn channels, limits⟩ course count).attempts +
        Funnel.burden weight f.nodes * r.jumps ≤
      r.worth f limits weight + r.attempts + Funnel.burden weight f.nodes *
        (r.after ⟨.builtIn channels, limits⟩ course count).jumps := by
  induction count with
  | zero => exact Nat.le_refl _
  | succ count ih =>
    by_cases hover : (r.after ⟨.builtIn channels, limits⟩ course count).phase = .returned
    · rw [after_succ, resume_of_returned hover]
      exact ih
    · have hpoint := hr.after (h.worksWith_isUndirected limits) .trivial course count
      have hspends := spends_resume hpays h hpoint hover (course count).1 (course count).2
      have hattempts : (r.after ⟨.builtIn channels, limits⟩ course (count + 1)).attempts ≤
          (r.after ⟨.builtIn channels, limits⟩ course count).attempts + 1 :=
        attempts_resume_le _ _
      rw [Spends, ← after_succ] at hspends
      omega

theorem JumpsEnd.returns (hj : r.JumpsEnd ⟨.builtIn channels, limits⟩ course) :
    r.Returns ⟨.builtIn channels, limits⟩ course := by
  obtain ⟨most, hmost⟩ := hj
  let last := r.worth f limits weight + Funnel.burden weight f.nodes * most + 1
  refine ⟨last, by_contra fun hgoing => ?_⟩
  have hcount := count_le_of_going hpays h hr hgoing
  have hjumps := Nat.mul_le_mul_left (Funnel.burden weight f.nodes) (hmost last)
  omega

end

/-! ## Runs in a circle -/

/-- A run whose walk goes in a circle. -/
structure Circles (f : Funnel) (n : Node) (r : Run) : Prop where
  funnel : r.funnel = f
  phase : r.phase = .walking
  walk : r.walk.Circles n

section

variable {engine : Engine} {f : Funnel} {n : Node} {r : Run} {wake : Wake} {manager : Manager}

theorem circles_follow (hf : r.funnel = f) {walk : Traversal} (hw : walk.Circles n)
    (moment : Moment) (manager : Manager) :
    (r.follow moment walk manager).1.Circles f n ∧
      (r.follow moment walk manager).1.attempts = walk.attempts := by
  have hfollow : (r.follow moment walk manager).1 = { r with phase := .walking, walk } := by
    unfold follow
    dsimp only
    rw [hw.point]
  rw [hfollow]
  exact ⟨⟨hf, rfl, hw⟩, rfl⟩

/-- A run comes into a circle if the first node is one that goes in a circle. -/
theorem circles_of_opening (hf : r.funnel = f) (hphase : r.phase = .opening)
    (hrun : r.execution.isRunning = true) (hentry : f.entry? = some n) (hn : n.Circles engine f)
    (hcalm : r.isCancelled manager = false) (wake : Wake) :
    (r.resume engine wake manager).1.Circles f n ∧
      (r.resume engine wake manager).1.attempts = r.attempts + 1 := by
  let wake := { wake with cancelled := r.isCancelled manager }
  obtain ⟨hwalk, hattempts⟩ := Traversal.circles_advance hn
    { r.walk with pending := [n], budget := .limited engine.limits.timeout } wake hrun hcalm rfl
  obtain ⟨hcircles, hsame⟩ := circles_follow hf hwalk wake.moment manager
  unfold resume
  dsimp only
  rw [hphase, hf]
  dsimp only
  rw [hentry]
  exact ⟨hcircles, hsame.trans hattempts⟩

/-- A run in a circle makes an attempt between any two waits. -/
theorem Circles.resume (h : r.Circles f n) (hn : n.Circles engine f)
    (hcalm : r.isCancelled manager = false) (wake : Wake) :
    (r.resume engine wake manager).1.Circles f n ∧
      (r.resume engine wake manager).1.attempts = r.attempts + 1 := by
  let wake := { wake with cancelled := r.isCancelled manager }
  obtain ⟨hwalk, hattempts⟩ := h.walk.resume hn wake hcalm
  obtain ⟨hcircles, hsame⟩ := circles_follow h.funnel hwalk wake.moment manager
  unfold Run.resume
  dsimp only
  rw [h.phase, h.funnel]
  exact ⟨hcircles, hsame.trans hattempts⟩

/-- A run that is not cancelled goes in a circle for ever. -/
theorem attempts_after_of_circles (hf : r.funnel = f) (hphase : r.phase = .opening)
    (hrun : r.execution.isRunning = true) (hentry : f.entry? = some n) (hn : n.Circles engine f)
    {course : Course} (hcalm : ∀ count token, (course count).2.isTripped token = false)
    (count : Nat) : (r.after engine course count).attempts = r.attempts + count := by
  have hcancelled (r : Run) (count : Nat) : r.isCancelled (course count).2 = false := by
    unfold isCancelled
    cases r.token with
    | none => rfl
    | some token => exact hcalm count token
  have hcircles (count : Nat) : (r.after engine course (count + 1)).Circles f n ∧
      (r.after engine course (count + 1)).attempts = r.attempts + (count + 1) := by
    induction count with
    | zero => exact circles_of_opening hf hphase hrun hentry hn (hcancelled r 0) _
    | succ count ih =>
      obtain ⟨hbefore, hattempts⟩ := ih
      obtain ⟨hafter, hmore⟩ := hbefore.resume hn (hcancelled _ (count + 1)) (course (count + 1)).1
      exact ⟨hafter, hmore.trans (congrArg Nat.succ hattempts)⟩
  cases count with
  | zero => rfl
  | succ count => exact (hcircles count).2

end

/-! ## When a run ends -/

theorem worth_start_le (weight : Node → Nat) (call : Call) (moment : Moment) (manager : Manager) :
    (Run.start moment call manager).1.worth f limits weight ≤ 3 + Funnel.burden weight f.nodes := by
  unfold Run.start
  dsimp only
  split
  next => exact Nat.le_refl _
  next => exact (by omega : 1 ≤ 3 + Funnel.burden weight f.nodes)

theorem attempts_start (call : Call) (moment : Moment) (manager : Manager) :
    (Run.start moment call manager).1.attempts = 0 := by
  unfold Run.start
  dsimp only
  split <;> rfl

/-- **When a run through an accepted funnel ends.** If the connections declare the nodes that hold
them, then what a run costs is at most proportional to the jumps it makes; it makes finitely many
attempts exactly if it makes finitely many jumps, and then, and only then, it comes to its end,
whatever the variables, the replies of the services, the cancellations and the other runs. -/
theorem ends_iff_jumps_bounded
    (h : (f.validate (.builtIn channels) checked).isValid = true) (hf : f.DeclaresHolders)
    (limits : Limits) :
    ∃ cost, ∀ (triggerId : Option String) (vars : Variables) (moment : Moment) (manager : Manager)
        (course : Course),
      let engine : Engine := ⟨.builtIn channels, limits⟩
      let r := (Run.start moment ⟨f, triggerId, vars⟩ manager).1
      (∀ count, (r.after engine course count).attempts ≤
          cost * ((r.after engine course count).jumps + 1)) ∧
        (r.AttemptsEnd engine course ↔ r.JumpsEnd engine course) ∧
        (r.Returns engine course ↔ r.JumpsEnd engine course) := by
  have haccepted := Funnel.isValid_validate_iff.mp h
  obtain ⟨weight, hpays⟩ := haccepted.exists_pays hf limits.retries
  refine ⟨3 + Funnel.burden weight f.nodes, fun triggerId vars moment manager course => ?_⟩
  dsimp only
  obtain ⟨call, hcall⟩ : ∃ call : Call, call = ⟨f, triggerId, vars⟩ := ⟨_, rfl⟩
  have hfunnel : call.funnel = f := hcall ▸ rfl
  rw [← hcall]
  have hr : (Run.start moment call manager).1.Upholds ⟨.builtIn channels, limits⟩ f
      (fun _ task => task.IsUndirected) fun _ _ => True :=
    Upholds.start .trivial hfunnel trivial manager
  have hreturns (hjumps : (Run.start moment call manager).1.JumpsEnd ⟨.builtIn channels, limits⟩
      course) := hjumps.returns hpays haccepted hr
  refine ⟨fun count => ?_, ⟨AttemptsEnd.jumpsEnd, fun hj => (hreturns hj).attemptsEnd⟩,
    fun hover => hover.attemptsEnd.jumpsEnd, hreturns⟩
  have hcount := attempts_after_add_le hpays haccepted hr course count
  have hstart : (Run.start moment call manager).1.worth f limits weight ≤
      3 + Funnel.burden weight f.nodes := worth_start_le weight call moment manager
  rw [attempts_start] at hcount
  rw [Nat.mul_add, Nat.add_mul]
  omega

theorem straight_attempts_end :
    (Funnel.straight.validate (.builtIn []) .standard).isValid = true ∧
      Funnel.straight.DeclaresHolders ∧
      ∀ (triggerId : Option String) (vars : Variables) (moment : Moment) (wakes : Nat → Wake),
        (Run.start moment ⟨.straight, triggerId, vars⟩ (.create 1)).1.AttemptsEnd
          ⟨.builtIn [], .standard⟩ fun wait => (wakes wait, .create 1) := by
  have hvalid : (Funnel.straight.validate (.builtIn []) .standard).isValid = true := by
    decide
  refine ⟨hvalid, Funnel.straight_declaresHolders, fun triggerId vars moment wakes => ?_⟩
  obtain ⟨cost, hcost⟩ := ends_iff_jumps_bounded hvalid Funnel.straight_declaresHolders .standard
  obtain ⟨-, hattempts, hreturns⟩ := hcost triggerId vars moment (.create 1)
    fun wait => (wakes wait, .create 1)
  exact hattempts.mpr (hreturns.mp ⟨4, rfl⟩)

end Run

namespace Funnel

/-- A condition both of whose ways lead back to it. -/
def circler : Node where
  id := "a"
  type := .condition
  name := ""
  settings := .object [
    ("condition", .object [("field", .string "x"), ("operator", .string "exists")]),
    ("falseNodeId", .string "a"), ("trueNodeId", .string "a")]
  connections := []
  position := none

/-- A funnel without connections in which a run goes in a circle. -/
def circling : Funnel where
  id := "loop"
  name := ""
  description := none
  version := 1
  nodes := [circler]
  tags := []
  metadata := []

theorem circles_circler : circler.Circles ⟨.builtIn [], .standard⟩ circling := by
  have hsettings : circler.settingsAs BranchSettings.layout =
      .ok ⟨⟨"x", .exists, none⟩, some "a", some "a"⟩ := rfl
  exact Node.circles_of_ways rfl rfl hsettings rfl rfl

end Funnel

/-- **A run through an accepted funnel may go on for ever**: whatever the variables, the replies and
the time that passes, every wait is followed by another attempt. -/
theorem Run.circling_never_ends :
    (Funnel.circling.validate (.builtIn []) .standard).isValid = true ∧
      Funnel.circling.DeclaresHolders ∧
      ∀ (triggerId : Option String) (vars : Variables) (moment : Moment) (wakes : Nat → Wake)
          (count : Nat),
        (Run.after ⟨.builtIn [], .standard⟩
          (Run.start moment ⟨.circling, triggerId, vars⟩ (.create 1)).1
          (fun wait => (wakes wait, .create 1)) count).attempts = count := by
  refine ⟨by decide, by simp [Funnel.DeclaresHolders, Funnel.circling, Funnel.circler], ?_⟩
  intro triggerId vars moment wakes count
  let course : Course := fun wait => (wakes wait, .create 1)
  have hcalm : ∀ wait token, (course wait).2.isTripped token = false := fun _ _ => rfl
  have hafter : (Run.after ⟨.builtIn [], .standard⟩ _ course count).attempts =
      (Run.start moment ⟨.circling, triggerId, vars⟩ (.create 1)).1.attempts + count :=
    attempts_after_of_circles rfl rfl rfl rfl Funnel.circles_circler hcalm count
  rw [attempts_start, Nat.zero_add] at hafter
  exact hafter

end Outreach
