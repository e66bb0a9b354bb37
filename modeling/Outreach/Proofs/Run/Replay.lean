import Outreach.Proofs.Run.Retries
import Outreach.Proofs.Run.Timing
import Outreach.Proofs.Walk.Trials

/-!
# The log replays a run

What a run has tried, and what came of it, is known from what could be seen of the run and from
what its executors do (`Run.trials`). Its execution tells of just that: whoever reads the log of a
run that has returned finds every attempt in it, in order, with its result and with what was done
about its failure (`Run.log_replays_trials`).
-/

namespace Outreach

namespace Run

/-- The attempts of a run after so many of its waits. An attempt comes out at once, or when a wait
is over. -/
def trials (engine : Engine) (r : Run) (course : Course) : Nat → List Trial
  | 0 => []
  | count + 1 =>
    let before := r.after engine course count
    let wake := before.hears (course count).1 (course count).2
    let seen := (r.after engine course (count + 1)).walk.trace.drop before.walk.trace.length
    Trial.conclude (before.walk.upshot? wake) (trials engine r course count) ++
      seen.filterMap (Sighting.trial? engine wake.moment.now)

/-- A run whose execution tells of its attempts. It is at a node only while it walks, and a walk
that a fault has ended is the end of the run. -/
structure Recounts (engine : Engine) (moments : Moment → Prop) (trials : List Trial) (r : Run) :
    Prop where
  walk : r.walk.Recounts engine moments trials
  opening : r.phase = .opening → r.execution.IsTold engine.limits moments trials
  rests : r.phase ≠ .walking → ∃ outcome, r.walk.point = .ended outcome
  outcome : ∀ fault, r.walk.point = .ended (.error fault) → r.outcome = .error fault

variable {engine : Engine} {moments : Moment → Prop} {trials : List Trial} {r : Run}
  {moment : Moment} {call : Call}

/-! ## From one wait to the next -/

/-- A run that is settled says nothing new about its attempts. -/
theorem recounts_close (h : r.walk.Recounts engine moments trials)
    (hended : ∃ outcome, r.walk.point = .ended outcome)
    (houtcome : ∀ fault, r.walk.point = .ended (.error fault) → r.outcome = .error fault)
    (moment : Moment) (outcome : Except EngineFault Unit) (manager : Manager) :
    (r.close moment outcome manager).1.Recounts engine moments trials where
  walk := h.of_unnoted rfl (r.execution.unnoted_settle moment outcome)
  opening := nofun
  rests _ := hended
  outcome fault hpoint := (r.outcome_close ..).trans (houtcome fault hpoint)

theorem recounts_follow {walk : Traversal} (h : walk.Recounts engine moments trials)
    (htoken : r.token.isSome = true) (hentry : r.funnel.entry?.isSome = true) (moment : Moment)
    (manager : Manager) : (r.follow moment walk manager).1.Recounts engine moments trials := by
  by_cases hended : ∃ outcome, walk.point = .ended outcome
  · obtain ⟨outcome, hpoint⟩ := hended
    let followed : Run := { r with phase := .walking, walk }
    have houtcome (fault : EngineFault) (hfault : followed.walk.point = .ended (.error fault)) :
        followed.outcome = .error fault :=
      outcome_of_ended (r := followed) htoken hentry hfault
    rw [follow_of_ended r hpoint]
    exact recounts_close (r := followed) h ⟨outcome, hpoint⟩ houtcome ..
  · rw [follow_of_ne_ended r (not_exists.mp hended)]
    exact ⟨h, nofun, fun hphase => absurd rfl hphase, fun fault hfault =>
      absurd ⟨_, hfault⟩ hended⟩

theorem filterMap_follow {β : Type} {g : Sighting → Option β} (hg : ∀ e, g (.snapshot e) = none)
    (r : Run) (moment : Moment) (walk : Traversal) (manager : Manager) :
    (r.follow moment walk manager).1.walk.trace.filterMap g = walk.trace.filterMap g := by
  unfold follow
  dsimp only
  split
  next => simp [close, Traversal.see, hg]
  next => rfl

/-- A run that goes on after some attempts, and tells of these and of those that it makes. -/
def TellsOn (engine : Engine) (moments : Moment → Prop) (wake : Wake) (trials : List Trial)
    (r r' : Run) : Prop :=
  ∃ made, r'.walk.trace.filterMap (Sighting.trial? engine wake.moment.now) =
      r.walk.trace.filterMap (Sighting.trial? engine wake.moment.now) ++ made ∧
    r'.Recounts engine moments (trials ++ made)

/-- A run tells on with its walk. -/
theorem tellsOn_follow {wake : Wake} {walk : Traversal}
    (h : Traversal.TellsOn engine moments wake trials r.walk walk) (htoken : r.token.isSome = true)
    (hentry : r.funnel.entry?.isSome = true) (manager : Manager) :
    TellsOn engine moments wake trials r (r.follow wake.moment walk manager).1 := by
  obtain ⟨made, htrace, hwalk⟩ := h
  refine ⟨made, ?_, recounts_follow hwalk htoken hentry ..⟩
  rw [filterMap_follow fun _ => rfl, htrace]

theorem TellsOn.of_idle {wake : Wake} {r' : Run} (h : r'.Recounts engine moments trials)
    (hidle : r'.walk.trace.filterMap (Sighting.trial? engine wake.moment.now) =
      r.walk.trace.filterMap (Sighting.trial? engine wake.moment.now)) :
    TellsOn engine moments wake trials r r' :=
  ⟨[], by rw [hidle, List.append_nil], by rw [List.append_nil]; exact h⟩

/-- **A run tells of every attempt**, from one wait to the next. -/
theorem Recounts.resume (h : r.Recounts engine moments trials)
    (hr : r.ComesFrom engine moment call) {wake : Wake} (hmoment : moments wake.moment)
    (manager : Manager) :
    let heard := r.hears wake manager
    TellsOn engine moments heard (Trial.conclude (r.walk.upshot? heard) trials) r
      (r.resume engine wake manager).1 := by
  intro heard
  have hheard : moments heard.moment := hmoment
  have hbelongs := hr.belongsTo (WorksWith.trivial engine call.funnel) rfl
  have hnone (hphase : r.phase ≠ .walking) : r.walk.upshot? heard = none := by
    obtain ⟨outcome, hpoint⟩ := h.rests hphase
    rw [Traversal.upshot?, hpoint]
  unfold Run.resume
  dsimp only
  split
  next hphase =>
    have hidle : r.phase ≠ .walking := by simp [hphase]
    rw [hnone hidle]
    split
    next =>
      refine .of_idle (recounts_close h.walk (h.rests hidle) h.outcome ..) ?_
      simp [close, Traversal.see, Sighting.trial?]
    next n hentry =>
      let ready : Traversal := { r.walk with
        pending := [n], budget := .limited engine.limits.timeout }
      have htold : ready.execution.IsTold engine.limits moments trials := h.opening hphase
      have htells : Traversal.TellsOn engine moments heard trials r.walk
          (ready.advance engine r.funnel heard) := Traversal.tellsOn_advance hheard htold
      exact tellsOn_follow htells (hbelongs.token (.inl hphase)) (by rw [hentry]; rfl) manager
  next hphase =>
    have hentry : r.funnel.entry?.isSome = true := hbelongs.funnel ▸ hbelongs.entry hphase
    exact tellsOn_follow (h.walk.resume hheard) (hbelongs.token (.inr hphase)) hentry manager
  next hphase =>
    have hidle : r.phase ≠ .walking := by simp [hphase]
    rw [hnone hidle]
    have hreturned : Phase.returned ≠ .opening := by decide
    exact .of_idle ⟨h.walk, fun hopening => absurd hopening hreturned, fun _ => h.rests hidle,
      h.outcome⟩ rfl
  next hphase =>
    have hidle : r.phase ≠ .walking := by simp [hphase]
    rw [hnone hidle]
    exact .of_idle h rfl

/-! ## The whole run -/

theorem recounts_start (engine : Engine) (moments : Moment → Prop) (moment : Moment) (call : Call)
    (manager : Manager) : (Run.start moment call manager).1.Recounts engine moments [] := by
  have htold : (Execution.ofCall moment call).IsTold engine.limits moments [] :=
    Execution.isTold_ofCall moment call
  have hready : Traversal.Recounts engine moments [] (.ready (.ofCall moment call)) :=
    .rests trivial htold
  have hwell (fault : EngineFault) : Point.ended (.ok ()) ≠ .ended (.error fault) :=
    fun hsame => nomatch Point.ended.inj hsame
  unfold Run.start
  dsimp only
  split
  next =>
    exact ⟨.rests trivial htold, fun _ => htold, fun _ => ⟨_, rfl⟩, fun fault hpoint =>
      absurd hpoint (hwell fault)⟩
  next =>
    exact recounts_close hready ⟨_, rfl⟩ (fun fault hpoint => absurd hpoint (hwell fault)) ..

variable (engine moment call)

/-- A run tells of its attempts, however far it has come. -/
theorem recounts_after (manager : Manager) (course : Course) (count : Nat) :
    let r := (Run.start moment call manager).1
    (r.after engine course count).Recounts engine (fun m => ∃ wait, m = (course wait).1.moment)
        (r.trials engine course count) ∧
      (r.trials engine course count).map Trial.node = (r.after engine course count).tried := by
  intro r
  induction count with
  | zero =>
    have hnone : r.tried.length = 0 := r.length_tried.trans (attempts_start call moment manager)
    exact ⟨recounts_start .., (List.eq_nil_of_length_eq_zero hnone).symm⟩
  | succ count ih =>
    obtain ⟨hrecounts, htried⟩ := ih
    let before := r.after engine course count
    let heard := before.hears (course count).1 (course count).2
    have hr : before.ComesFrom engine moment call := (ComesFrom.start manager).after course count
    obtain ⟨made, htrace, hnext⟩ := hrecounts.resume hr ⟨count, rfl⟩ (course count).2
    obtain ⟨seen, hseen⟩ := hr.trace_prefix (course count).1 (course count).2
    have hmade : seen.filterMap (Sighting.trial? engine heard.moment.now) = made := by
      rw [← hseen, List.filterMap_append] at htrace
      exact List.append_cancel_left htrace
    have htrials : r.trials engine course (count + 1) =
        Trial.conclude (before.walk.upshot? heard) (r.trials engine course count) ++ made := by
      rw [trials, after_succ, ← hseen, List.drop_left, ← hmade]
    refine ⟨htrials ▸ hnext, ?_⟩
    have hseen : (r.after engine course (count + 1)).tried =
        before.tried ++ seen.filterMap Sighting.tried? := by
      rw [tried, Traversal.tried, after_succ, ← hseen, List.filterMap_append]
      rfl
    rw [htrials, List.map_append, Trial.map_node_conclude, htried, hseen, ← hmade,
      Sighting.map_node_trials]

/-- **The log of a run that has returned replays its attempts.** What it says about attempts is, in
order and without gaps, what there is to say about those that were started: that each began, at
which node; which flags the result had that it came to; and, if it failed, whether the node was
tried again or given up. Every attempt came to a result, but for the last one if its node has no
executor or the time was over while the node was at work, which then ended the run. The errors that
are recorded against nodes are the failures, and each is answered by one entry, which is the next
thing that was written down; no more than one entry says that a node was given up. The current node
is the one that the log names last as being tried. -/
theorem log_replays_trials (manager : Manager) (course : Course) {count : Nat}
    (h : ((Run.start moment call manager).1.after engine course count).phase = .returned) :
    let start := (Run.start moment call manager).1
    let r := start.after engine course count
    let trials := start.trials engine course count
    let begun := r.execution.replay.filter fun note => note.kind = .entered
    trials.map Trial.node = r.tried ∧
      begun.map Note.node = r.tried.map (fun n => some n.id) ∧
      r.execution.replay = Trial.replay engine.limits [] trials ∧
      (∀ t ∈ trials.dropLast, t.IsFinished) ∧
      (∀ t, trials.getLast? = some t → t.IsFinished ∨ ∃ fault, t.upshot = some (.error fault) ∧
        fault.Interrupts engine t.node ∧ r.outcome = .error fault) ∧
      r.execution.nodeErrors.map (fun error => (error.node, error.message)) =
        Trial.failures trials ∧
      List.Forall₂ (ErrorEntry.IsAnsweredBy fun m => ∃ wait, m = (course wait).1.moment)
        r.execution.nodeErrors r.execution.answers ∧
      r.execution.replay.countP (fun note => note.kind = .gaveUp) ≤ 1 ∧
      r.execution.currentNode = begun.getLast?.bind Note.node := by
  intro start r trials begun
  let moments (m : Moment) : Prop := ∃ wait, m = (course wait).1.moment
  obtain ⟨hrecounts, htried⟩ : r.Recounts engine moments trials ∧
      trials.map Trial.node = r.tried := recounts_after engine moment call manager course count
  obtain ⟨outcome, hended⟩ := hrecounts.rests (by rw [h]; exact Phase.noConfusion)
  have htold : r.execution.Recounts engine.limits moments trials := hrecounts.walk.told
  have hbegun : begun = trials.map fun t => ⟨.entered, some t.node.id⟩ := by
    dsimp only [begun]
    rw [htold.replay, Trial.filter_entered_replay]
  have hnamed : begun.map Note.node = r.tried.map fun n => some n.id := by
    rw [hbegun, ← htried, List.map_map, List.map_map]
    rfl
  have hcurrent : r.execution.currentNode = begun.getLast?.bind Note.node := by
    rw [hbegun, htold.currentNode, List.getLast?_map]
    cases trials.getLast? <;> rfl
  refine ⟨htried, hnamed, htold.replay, hrecounts.walk.finished, fun t ht => ?_, htold.errors,
    htold.answers, hrecounts.walk.gaveUps_le, hcurrent⟩
  refine (hrecounts.walk.last_of_ended hended ht).imp_right ?_
  rintro ⟨fault, hupshot, hinterrupts, rfl⟩
  exact ⟨fault, hupshot, hinterrupts, hrecounts.outcome fault hended⟩

/-- An errand that takes longer than the run may take: its attempt begins and never finishes. -/
theorem errands_replayed :
    Funnel.errands.entry? = some Funnel.errand ∧
      ∀ (triggerId : Option String) (vars : Variables) (moment : Moment) (wakes : Nat → Wake),
        let engine : Engine := ⟨.errands, { Limits.standard with timeout := 9 }⟩
        let start := (Run.start moment ⟨.errands, triggerId, vars⟩ (.create 1)).1
        let course : Course := fun wait => ({ wakes wait with spent := 10 }, .create 1)
        let r := start.after engine course 3
        r.phase = .returned ∧ r.execution.currentNode = some "a" ∧
          r.execution.replay = [⟨.entered, some "a"⟩, ⟨.gaveUp, some "a"⟩] := by
  refine ⟨rfl, fun triggerId vars moment wakes => ?_⟩
  intro engine start course r
  have hphase : (start.after engine course 3).phase = .returned := rfl
  have htrials : start.trials engine course 3 =
      [⟨Funnel.errand, some (.error (.timeout 9))⟩] := rfl
  obtain ⟨-, -, hreplay, -, -, -, -, -, hcurrent⟩ :=
    log_replays_trials engine moment ⟨.errands, triggerId, vars⟩ (.create 1) course hphase
  have hreplay : r.execution.replay = [⟨.entered, some "a"⟩, ⟨.gaveUp, some "a"⟩] := by
    refine hreplay.trans ?_
    rw [htrials]
    rfl
  have hcurrent : r.execution.currentNode = (r.execution.replay.filter fun note =>
      note.kind = .entered).getLast?.bind Note.node := hcurrent
  rw [hreplay] at hcurrent
  exact ⟨hphase, hcurrent, hreplay⟩

end Run

end Outreach
