import Outreach.Proofs.Walk.Sightings

/-!
# Walks in a circle

A condition that names itself as the node to jump to, whatever the answer, is tried over and over
again: nothing that a walk looks at changes while it does so, and as long as it is not cancelled it
makes an attempt between any two waits (`Traversal.Circles.resume`).
-/

namespace Outreach

/-- A node that always works, and names itself as the one that comes next. -/
structure Node.Circles (engine : Engine) (f : Funnel) (n : Node) : Prop where
  node : f.node? n.id = some n
  result : ∃ x, engine.registry.executor? n.type = some x ∧ ∀ now e, ∃ r,
    x.perform now n e = .done r ∧ r.success = true ∧ r.shouldContinue = true ∧
      r.nextNode = some n.id

namespace Executor

/-- What a condition brings about whose two ways are the same. -/
theorem choose_of_eq {settings : BranchSettings} {id : String} (htrue : settings.whenTrue = some id)
    (hfalse : settings.whenFalse = some id) (vars : Variables) :
    (Branch.choose settings vars).success = true ∧
      (Branch.choose settings vars).shouldContinue = true ∧
      (Branch.choose settings vars).nextNode = some id := by
  obtain ⟨hsuccess, hcontinue⟩ := choose_goesOn settings vars
  obtain ⟨answer, hnext⟩ := exists_nextNode_choose settings vars
  refine ⟨hsuccess, hcontinue, ?_⟩
  rw [hnext, htrue, hfalse, ite_self]

end Executor

/-- A condition goes in a circle if both its ways lead back to it. -/
theorem Node.circles_of_ways {engine : Engine} {f : Funnel} {n : Node}
    (hnode : f.node? n.id = some n)
    (hbranch : engine.registry.executor? n.type = some Executor.branch) {settings : BranchSettings}
    (hs : n.settingsAs BranchSettings.layout = .ok settings)
    (htrue : settings.whenTrue = some n.id) (hfalse : settings.whenFalse = some n.id) :
    n.Circles engine f := by
  refine ⟨hnode, Executor.branch, hbranch, fun now e => ⟨Executor.Branch.choose settings e.vars, ?_,
    Executor.choose_of_eq htrue hfalse e.vars⟩⟩
  change Executor.withSettings BranchSettings.layout n _ = _
  rw [Executor.withSettings, hs]

namespace Traversal

/-- A walk that has just left a node and is about to try it again. -/
structure Circles (n : Node) (t : Traversal) : Prop where
  running : t.execution.isRunning = true
  point : t.point = .saving n (.proceed [n])

variable {engine : Engine} {f : Funnel} {t : Traversal} {wake : Wake} {n : Node}

theorem observe_of_not_cancelled (hwake : wake.cancelled = false) (moment : Moment)
    (e : Execution) : e.observe moment wake.cancelled = e := by
  rw [Execution.observe, hwake, Bool.false_and]
  rfl

theorem attempts_attempt : (t.attempt engine f wake n).attempts = t.attempts + 1 :=
  countP_attempt fun _ => rfl

theorem circles_conclude (hnode : f.node? n.id = some n) (hrun : t.execution.isRunning = true)
    (hwake : wake.cancelled = false) {r : ActionResult} (hsuccess : r.success = true)
    (hcontinue : r.shouldContinue = true) (hnext : r.nextNode = some n.id) :
    (t.conclude engine f wake n r).Circles n := by
  let e := t.execution.take wake.moment n r
  have htarget : f.onward wake.moment n r.nextNode e = ([n], e) := by
    rw [hnext, Funnel.onward, Funnel.target, hnode]
  have hobserve : e.observe wake.moment wake.cancelled = e := observe_of_not_cancelled hwake _ e
  have hconclude : t.conclude engine f wake n r =
      { t with execution := e }.settle wake n (.proceed [n]) := by
    unfold conclude
    dsimp only
    rw [hsuccess, hcontinue, htarget]
    rfl
  rw [hconclude]
  refine ⟨?_, rfl⟩
  change (e.observe wake.moment wake.cancelled).isRunning = true
  rw [hobserve]
  exact hrun

theorem circles_attempt (hn : n.Circles engine f) (hrun : t.execution.isRunning = true)
    (hwake : wake.cancelled = false) : (t.attempt engine f wake n).Circles n := by
  obtain ⟨x, hx, hresult⟩ := hn.result
  let e := t.execution.enter wake.moment n
  let entered := see { t with execution := e } (.attempt n e)
  obtain ⟨r, hr, hsuccess, hcontinue, hnext⟩ := hresult wake.moment.now e
  have hattempt : t.attempt engine f wake n = entered.conclude engine f wake n r := by
    unfold attempt
    dsimp only
    rw [hx]
    dsimp only
    rw [hr]
    rfl
  have hentered : entered.execution.isRunning = true := hrun
  rw [hattempt]
  exact circles_conclude hn.node hentered hwake hsuccess hcontinue hnext

theorem circles_advance (hn : n.Circles engine f) (t : Traversal) (wake : Wake)
    (hrun : t.execution.isRunning = true) (hwake : wake.cancelled = false) {rest : List Node}
    (hpending : t.pending = n :: rest) :
    (t.advance engine f wake).Circles n ∧ (t.advance engine f wake).attempts = t.attempts + 1 := by
  have hobserve : t.execution.observe wake.moment wake.cancelled = t.execution :=
    observe_of_not_cancelled hwake _ _
  unfold advance
  rw [hpending]
  dsimp only
  rw [hobserve, if_pos hrun]
  exact ⟨circles_attempt hn hrun hwake, attempts_attempt⟩

/-- A walk in a circle makes an attempt and goes on in the circle. -/
theorem Circles.resume (h : t.Circles n) (hn : n.Circles engine f) (wake : Wake)
    (hwake : wake.cancelled = false) :
    (t.resume engine f wake).Circles n ∧ (t.resume engine f wake).attempts = t.attempts + 1 := by
  have hresume : t.resume engine f wake =
      { t with pending := n :: t.pending }.advance engine f wake := by
    unfold Traversal.resume
    rw [h.point]
    rfl
  rw [hresume]
  exact circles_advance hn _ wake h.running hwake rfl

end Traversal

end Outreach
