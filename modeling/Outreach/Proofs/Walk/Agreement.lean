import Outreach.Proofs.Execution.Growth
import Outreach.Proofs.Walk.Recursive

/-!
# The stack and the recursion agree

A walk that keeps its pending nodes on a stack makes the same attempts, writes the same snapshots
and comes to the same end as the recursion `Node.visit` (`Traversal.drive_start_eq_visit`), at every
moment: the wakes until then are read by the recursion too, and it breaks off where the walk stands
still.

The induction is on the number of wakes to come. What carries it is `Tells`: a part of the recursion
that is begun with a stack of pending nodes either breaks off where the walk has come to in the end,
or hands over to the next part with the same stack.
-/

namespace Outreach

namespace Point

/-- How a walk ended, if it has come to its end. -/
def outcome? : Point → Option (Except EngineFault Unit)
  | .ended outcome => some outcome
  | _ => none

/-- A point that nothing reads. -/
abbrev idle : Point := .ended (.ok ())

end Point

namespace Traversal

variable (engine : Engine) (f : Funnel)

/-- A walk after the waits that a list of wakes ends. -/
def drive (t : Traversal) (wakes : List Wake) : Traversal :=
  wakes.foldl (fun t wake => t.resume engine f wake) t

@[simp] theorem drive_nil (t : Traversal) : t.drive engine f [] = t := rfl

@[simp] theorem drive_cons (t : Traversal) (wake : Wake) (wakes : List Wake) :
    t.drive engine f (wake :: wakes) = (t.resume engine f wake).drive engine f wakes := rfl

theorem drive_of_ended {t : Traversal} {outcome : Except EngineFault Unit}
    (h : t.point = .ended outcome) (wakes : List Wake) : t.drive engine f wakes = t := by
  induction wakes with
  | nil => rfl
  | cons wake wakes ih =>
    have hr : t.resume engine f wake = t := by simp only [resume, h]
    rw [drive_cons, hr, ih]

/-- What work comes to does not depend on the point at which a walk stood before. -/
theorem work_point (t : Traversal) (p : Point) (wake : Wake) (node : Node) (isExempt : Bool)
    (task : Task) :
    { t with point := p }.work engine f wake node isExempt task =
      t.work engine f wake node isExempt task := by
  cases task <;> rfl

theorem attempt_point (t : Traversal) (p : Point) (wake : Wake) (node : Node) :
    { t with point := p }.attempt engine f wake node = t.attempt engine f wake node := by
  simp only [attempt, see]
  generalize t.execution.enter wake.moment node = e
  cases engine.registry.executor? node.type with
  | none => rfl
  | some x =>
    exact work_point engine f { t with execution := e, trace := t.trace ++ [.attempt node e] } p
      wake node x.isExempt _

theorem advance_point (t : Traversal) (p : Point) (wake : Wake) :
    { t with point := p }.advance engine f wake = t.advance engine f wake := by
  obtain ⟨execution, pending, budget, q, trace⟩ := t
  cases pending with
  | nil => rfl
  | cons node rest =>
    simp only [advance]
    generalize execution.observe wake.moment wake.cancelled = e
    rw [attempt_point engine f ⟨e, rest, budget, q, trace⟩ p wake node]
    rfl

end Traversal

namespace Scene

/-- The walk that has come as far as a scene, with the given nodes still pending. -/
abbrev walk (s : Scene) (pending : List Node) (point : Point) : Traversal :=
  ⟨s.execution, pending, s.budget, point, s.trace⟩

end Scene

/-- A walk shows what a scene shows. -/
structure Traversal.Shows (t : Traversal) (s : Scene) : Prop where
  execution : t.execution = s.execution
  budget : t.budget = s.budget
  trace : t.trace = s.trace

theorem Scene.shows_walk (s : Scene) (pending : List Node) (point : Point) :
    (s.walk pending point).Shows s := ⟨rfl, rfl, rfl⟩

namespace Break

/-- How a walk ended that broke off, if it has come to its end. -/
def outcome? : Break → Option (Except EngineFault Unit)
  | .waiting => none
  | .fault reason => some (.error reason)

end Break

namespace Visit

variable {α β : Type}

/-- What a part of a walk comes to at a scene. -/
def comesTo (x : Visit α) (s : Scene) : Option (Except Break α × Scene) :=
  StateT.run (ExceptT.run x) s

/-- A part of the recursion, begun at a scene, tells of the walk that comes to `t` in the end:
either it breaks off where `t` stands, or it has a value with which `after` holds. -/
def Tells (x : Visit α) (s : Scene) (t : Traversal) (after : α → Scene → Prop) : Prop :=
  ∃ result s', x.comesTo s = some (result, s') ∧ s'.coming.length ≤ s.coming.length ∧
    match result with
    | .ok a => after a s'
    | .error b => t.Shows s' ∧ t.point.outcome? = b.outcome?

theorem comesTo_bind (x : Visit α) (g : α → Visit β) (s : Scene) :
    (x >>= g).comesTo s = (x.comesTo s).bind fun
      | (.ok a, s') => (g a).comesTo s'
      | (.error b, s') => some (.error b, s') := by
  simp only [comesTo, ExceptT.run_bind, StateT.run_bind]
  cases StateT.run (ExceptT.run x) s with
  | none => rfl
  | some r => obtain ⟨_ | _, _⟩ := r <;> rfl

theorem Tells.pure {a : α} {s : Scene} {t : Traversal} {after : α → Scene → Prop} (h : after a s) :
    Tells (Pure.pure a) s t after :=
  ⟨.ok a, s, rfl, Nat.le_refl _, h⟩

theorem Tells.bind {x : Visit α} {g : α → Visit β} {s : Scene} {t : Traversal}
    {after : α → Scene → Prop} {last : β → Scene → Prop} (hx : Tells x s t after)
    (hg : ∀ a s', s'.coming.length ≤ s.coming.length → after a s' → Tells (g a) s' t last) :
    Tells (x >>= g) s t last := by
  obtain ⟨result, s', hrun, hlen, h⟩ := hx
  cases result with
  | ok a =>
    obtain ⟨result', s'', hrun', hlen', h'⟩ := hg a s' hlen h
    refine ⟨result', s'', ?_, Nat.le_trans hlen' hlen, h'⟩
    rw [comesTo_bind, hrun]
    exact hrun'
  | error b =>
    refine ⟨.error b, s', ?_, hlen, h⟩
    rw [comesTo_bind, hrun]
    rfl

theorem Tells.mono {x : Visit α} {s : Scene} {t : Traversal} {after last : α → Scene → Prop}
    (hx : Tells x s t after) (h : ∀ a s', after a s' → last a s') : Tells x s t last := by
  obtain ⟨result, s', hrun, hlen, hr⟩ := hx
  refine ⟨result, s', hrun, hlen, ?_⟩
  cases result with
  | ok a => exact h a s' hr
  | error b => exact hr

/-- A change of the scene that takes no wake away, and what comes after it. -/
theorem tells_modify {h : Scene → Scene} {g : Unit → Visit β} {s : Scene} {t : Traversal}
    {last : β → Scene → Prop} (hlen : (h s).coming = s.coming) (hg : Tells (g ()) (h s) t last) :
    Tells (modify h >>= g) s t last := by
  have hm : Tells (modify h : Visit Unit) s t fun _ s' => s' = h s :=
    ⟨.ok (), h s, rfl, Nat.le_of_eq (congrArg _ hlen), rfl⟩
  refine hm.bind ?_
  rintro ⟨⟩ s' - rfl
  exact hg

/-- A look at the scene, and what comes after it. -/
theorem tells_get {g : Scene → Visit β} {s : Scene} {t : Traversal} {last : β → Scene → Prop}
    (hg : Tells (g s) s t last) : Tells (get >>= g) s t last := by
  have hget : Tells (get : Visit Scene) s t fun a s' => a = s ∧ s' = s :=
    ⟨.ok s, s, rfl, Nat.le_refl _, rfl, rfl⟩
  refine hget.bind ?_
  rintro _ s' - ⟨rfl, rfl⟩
  exact hg

/-- A look at the status, and what comes after it. -/
theorem tells_isRunning {g : Bool → Visit β} {s : Scene} {t : Traversal} {last : β → Scene → Prop}
    (hg : Tells (g s.execution.isRunning) s t last) : Tells (isRunning >>= g) s t last :=
  tells_get hg

theorem Tells.throw {b : Break} {s : Scene} {t : Traversal} {after : α → Scene → Prop}
    (ht : t.Shows s) (hb : t.point.outcome? = b.outcome?) :
    Tells (MonadExcept.throw b) s t after :=
  ⟨.error b, s, rfl, Nat.le_refl _, ht, hb⟩

/-! ## Waits -/

section

variable (engine : Engine) (f : Funnel) {t : Traversal}

/-- A wait ends with the next wake, by which the walk is resumed. -/
theorem tells_await (s : Scene) (pending : List Node) {point : Point} (hp : point.outcome? = none)
    (ht : t = (s.walk pending point).drive engine f s.coming) :
    Tells await s t fun _ s' =>
      s'.coming.length < s.coming.length ∧ s'.execution = s.execution ∧
        t = ((s'.walk pending point).resume engine f s'.wake).drive engine f s'.coming := by
  refine tells_get ?_
  cases hc : s.coming with
  | nil =>
    refine ⟨.error .waiting, s, rfl, Nat.le_refl _, ?_⟩
    rw [ht, hc, Traversal.drive_nil]
    exact ⟨s.shows_walk .., hp⟩
  | cons wake coming =>
    have hlt : coming.length < s.coming.length := by rw [hc]; exact Nat.lt_succ_self _
    refine ⟨.ok (), { s with wake, coming }, rfl, Nat.le_of_lt hlt, hc ▸ hlt, rfl, ?_⟩
    rw [ht, hc, Traversal.drive_cons]

/-- A charged wait ends with the next wake and takes its time from the budget, or does not fit. -/
theorem tells_awaitCharged (s : Scene) (pending : List Node) {point : Point}
    (hp : point.outcome? = none)
    (ht : t = (s.walk pending point).drive engine f s.coming) :
    Tells awaitCharged s t fun r s' =>
      ∃ s₀ : Scene, s₀.coming.length < s.coming.length ∧
        t = ((s₀.walk pending point).resume engine f s₀.wake).drive engine f s₀.coming ∧
        ((∃ budget, s₀.budget.charge s₀.wake.spent = some budget ∧ r = .ok () ∧
            s' = { s₀ with budget }) ∨
          (s₀.budget.charge s₀.wake.spent = none ∧ r = .error (.timeout s₀.budget.limit) ∧
            s' = s₀)) := by
  refine (tells_await engine f s pending hp ht).bind fun _ s₀ _ ⟨hlen, _, ht⟩ => tells_get ?_
  cases hc : s₀.budget.charge s₀.wake.spent with
  | none => exact Tells.pure ⟨s₀, hlen, ht, .inr ⟨hc, rfl, rfl⟩⟩
  | some budget =>
    exact tells_modify (h := fun _ => { s₀ with budget }) rfl
      (Tells.pure ⟨s₀, hlen, ht, .inl ⟨budget, hc, rfl, rfl⟩⟩)

theorem resume_working_exempt (s : Scene) (pending : List Node) (node : Node) (task : Task) :
    (s.walk pending (.working node true task)).resume engine f s.wake =
      (s.walk pending .idle).work engine f s.wake node true
        (Traversal.continueTask task s.wake) :=
  Traversal.work_point engine f (s.walk pending .idle) (.working node true task) s.wake node true _

theorem resume_working_charged (s : Scene) (pending : List Node) (node : Node) (task : Task) :
    (s.walk pending (.working node false task)).resume engine f s.wake =
      match s.budget.charge s.wake.spent with
      | none => (s.walk pending .idle).fail engine s.wake node (.timeout s.budget.limit)
      | some budget => ({ s with budget }.walk pending .idle).work engine f s.wake node false
          (Traversal.continueTask task s.wake) := by
  simp only [Traversal.resume, Scene.walk, Traversal.charge, Traversal.isCharged, Bool.not_false,
    if_true]
  cases s.budget.charge s.wake.spent with
  | none => rfl
  | some budget =>
    have hpoint := Traversal.work_point engine f ({ s with budget }.walk pending .idle)
      (.working node false task) s.wake node false (Traversal.continueTask task s.wake)
    exact hpoint

/-- A wait for an executor ends with the next part of its work, or with a fault at the node. -/
theorem tells_awaitExecutor (s : Scene) (pending : List Node) {node : Node} {isExempt : Bool}
    (task : Task)
    (ht : t = (s.walk pending (.working node isExempt task)).drive engine f s.coming) :
    Tells (awaitExecutor isExempt) s t fun
      | .ok (), s' => t = ((s'.walk pending .idle).work engine f s'.wake node isExempt
          (Traversal.continueTask task s'.wake)).drive engine f s'.coming
      | .error fault, s' =>
        t = ((s'.walk pending .idle).fail engine s'.wake node fault).drive engine f s'.coming := by
  cases isExempt with
  | true =>
    refine (tells_await engine f s pending rfl ht).bind fun _ s' _ ⟨_, _, ht⟩ => Tells.pure ?_
    rwa [resume_working_exempt] at ht
  | false =>
    refine (tells_awaitCharged engine f s pending rfl ht).mono fun r s' ⟨s₀, _, ht, hr⟩ => ?_
    rw [resume_working_charged] at ht
    obtain ⟨budget, hc, rfl, rfl⟩ | ⟨hc, rfl, rfl⟩ := hr
    · rwa [hc] at ht
    · rwa [hc] at ht

/-! ## One node -/

theorem tells_carryOut {node : Node} {isExempt : Bool} (task : Task) (s : Scene)
    (pending : List Node)
    (ht : t = ((s.walk pending .idle).work engine f s.wake node isExempt task).drive engine f
      s.coming) :
    Tells (carryOut isExempt task) s t fun
      | .ok result, s' =>
        t = ((s'.walk pending .idle).conclude engine f s'.wake node result).drive engine f s'.coming
      | .error fault, s' =>
        t = ((s'.walk pending .idle).fail engine s'.wake node fault).drive engine f s'.coming := by
  induction task generalizing s with
  | done result => exact Tells.pure ht
  | sleep time next ih =>
    unfold carryOut
    refine (tells_awaitExecutor engine f s pending (.sleep time next) ht).bind ?_
    rintro (fault | ⟨⟨⟩⟩) s' - ht
    · exact Tells.pure ht
    · exact tells_get (ih _ s' ht)
  | ask request next ih =>
    unfold carryOut
    refine (tells_awaitExecutor engine f s pending (.ask request next) ht).bind ?_
    rintro (fault | ⟨⟨⟩⟩) s' - ht
    · exact Tells.pure ht
    · exact tells_get (ih _ _ s' ht)

theorem tells_judge {node : Node} {result : ActionResult} (s : Scene) (pending : List Node)
    (ht : t = ((s.walk pending .idle).conclude engine f s.wake node result).drive engine f
      s.coming) :
    Tells (judge f node result) s t fun
      | .ok step, s' => step ≠ .halt ∧
        t = ((s'.walk pending .idle).settle s'.wake node step).drive engine f s'.coming
      | .error fault, s' =>
        t = ((s'.walk pending .idle).fail engine s'.wake node fault).drive engine f s'.coming := by
  refine tells_modify rfl ?_
  simp only [Traversal.conclude] at ht
  cases hs : result.success with
  | false =>
    simp only [hs] at ht ⊢
    exact Tells.pure ht
  | true =>
    cases hc : result.shouldContinue with
    | false =>
      simp only [hs, hc] at ht ⊢
      exact Tells.pure ⟨nofun, ht⟩
    | true =>
      simp only [hs, hc] at ht ⊢
      exact tells_get (tells_modify (h := fun _ => _) rfl (Tells.pure ⟨nofun, ht⟩))

theorem tells_attempt {node : Node} (s : Scene) (pending : List Node)
    (ht : t = ((s.walk pending .idle).attempt engine f s.wake node).drive engine f s.coming) :
    Tells (attempt engine f node) s t fun
      | .ok step, s' => step ≠ .halt ∧
        t = ((s'.walk pending .idle).settle s'.wake node step).drive engine f s'.coming
      | .error fault, s' =>
        t = ((s'.walk pending .idle).fail engine s'.wake node fault).drive engine f s'.coming := by
  refine tells_modify rfl (tells_modify rfl (tells_get ?_))
  simp only [Traversal.attempt, Traversal.see] at ht
  dsimp only
  generalize s.execution.enter s.wake.moment node = e at ht ⊢
  cases hx : engine.registry.executor? node.type with
  | none =>
    simp only [hx] at ht
    exact Tells.pure ht
  | some executor =>
    simp only [hx] at ht
    refine (tells_carryOut engine f _
      { s with execution := e, trace := s.trace ++ [.attempt node e] } pending ht).bind ?_
    rintro (fault | result) s' - ht
    · exact Tells.pure ht
    · exact tells_judge engine f s' pending ht

/-- What a walk does after a pause that fitted into its budget. -/
theorem resume_pausing (s : Scene) (pending : List Node) (node : Node) :
    (s.walk pending (.pausing node)).resume engine f s.wake =
      match s.budget.charge s.wake.spent with
      | none => (s.walk pending .idle).finish (.error (.timeout s.budget.limit))
      | some budget =>
        let e := s.execution.observe s.wake.moment s.wake.cancelled
        let t := { s with execution := e, budget }.walk pending .idle
        if e.isRunning then t.attempt engine f s.wake node else t.settle s.wake node .halt := by
  simp only [Traversal.resume, Scene.walk, Traversal.charge, Traversal.isCharged, ↓reduceIte]
  cases s.budget.charge s.wake.spent with
  | none => rfl
  | some budget =>
    let e := s.execution.observe s.wake.moment s.wake.cancelled
    dsimp only
    by_cases hrun : e.isRunning = true
    · rw [if_pos hrun, if_pos hrun]
      exact Traversal.attempt_point engine f ⟨e, pending, budget, .idle, s.trace⟩ (.pausing node)
        s.wake node
    · rw [if_neg hrun, if_neg hrun]
      rfl

/-- A node is tried until the walk writes a snapshot after it or comes to its end. -/
theorem tells_persist {node : Node} (s : Scene) (pending : List Node)
    (ht : t = ((s.walk pending .idle).attempt engine f s.wake node).drive engine f s.coming) :
    Tells (node.persist engine f) s t fun step s' =>
      (step = .halt → s'.execution.isRunning = false) ∧
        t = ((s'.walk pending .idle).settle s'.wake node step).drive engine f s'.coming := by
  induction hn : s.coming.length using Nat.strongRecOn generalizing s with
  | ind n ih =>
    rw [Node.persist]
    refine (tells_attempt engine f s pending ht).bind ?_
    rintro (fault | step) s₁ hlen₁ ht
    · refine tells_modify rfl (tells_get ?_)
      simp only [Traversal.fail] at ht
      dsimp only
      by_cases hr : engine.limits.allowsRetry fault (Execution.errorsAt
          (s₁.execution.recordError s₁.wake.moment (some node.id) fault.message none
            fault.isRetryable) node.id) = true
      · rw [if_pos hr] at ht ⊢
        refine tells_modify rfl ?_
        have hwait := tells_awaitCharged engine f { s₁ with execution := _ } pending rfl ht
        refine hwait.bind ?_
        rintro r s₂ - ⟨s₀, hlen₀, ht, hr⟩
        rw [resume_pausing] at ht
        obtain ⟨budget, hc, rfl, rfl⟩ | ⟨hc, rfl, rfl⟩ := hr
        · rw [hc] at ht
          refine tells_modify rfl (tells_isRunning ?_)
          dsimp only at ht ⊢
          by_cases hrun : (s₀.execution.observe s₀.wake.moment s₀.wake.cancelled).isRunning = true
          · rw [if_pos hrun] at ht ⊢
            exact ih _ (by simp only at hlen₀ ⊢; omega) { s₀ with execution := _, budget } ht rfl
          · rw [if_neg hrun] at ht ⊢
            exact Tells.pure ⟨fun _ => by simpa using hrun, ht⟩
        · rw [hc] at ht
          rw [Traversal.drive_of_ended engine f rfl] at ht
          subst ht
          exact Tells.throw ⟨rfl, rfl, rfl⟩ rfl
      · rw [if_neg hr] at ht ⊢
        refine tells_modify rfl ?_
        rw [Traversal.drive_of_ended engine f rfl] at ht
        subst ht
        exact Tells.throw ⟨rfl, rfl, rfl⟩ rfl
    · exact Tells.pure ⟨fun h => absurd h ht.1, ht.2⟩

/-! ## Everything behind a node -/

/-- What is left of the walk is the pending nodes, or nothing once the execution is not running. -/
structure GoesOn (t : Traversal) (pending : List Node) (s : Scene) : Prop where
  running : s.execution.isRunning = true →
    t = ((s.walk pending .idle).advance engine f s.wake).drive engine f s.coming
  stopped : s.execution.isRunning = false → t.Shows s ∧ t.point.outcome? = some (.ok ())

theorem GoesOn.of_ended {s : Scene} {pending rest : List Node}
    (hrun : s.execution.isRunning = false)
    (ht : t = ((s.walk rest .idle).finish (.ok ())).drive engine f s.coming) :
    GoesOn engine f t pending s := by
  rw [Traversal.drive_of_ended engine f rfl] at ht
  subst ht
  exact ⟨fun h => by simp [hrun] at h, fun _ => ⟨⟨rfl, rfl, rfl⟩, rfl⟩⟩

theorem GoesOn.of_advance {s : Scene} {pending : List Node}
    (ht : t = ((s.walk pending .idle).advance engine f s.wake).drive engine f s.coming) :
    GoesOn engine f t pending s := by
  refine ⟨fun _ => ht, fun hrun => ?_⟩
  cases pending with
  | nil =>
    rw [Traversal.drive_of_ended engine f rfl] at ht
    subst ht
    exact ⟨⟨rfl, rfl, rfl⟩, rfl⟩
  | cons node rest =>
    simp only [Traversal.advance, Execution.observe_of_not_isRunning hrun, hrun] at ht
    rw [if_neg Bool.false_ne_true, Traversal.drive_of_ended engine f rfl] at ht
    subst ht
    exact ⟨⟨rfl, rfl, rfl⟩, rfl⟩

theorem resume_saving_proceed (s : Scene) (pending : List Node) (node : Node) (next : List Node) :
    (s.walk pending (.saving node (.proceed next))).resume engine f s.wake =
      (s.walk (next ++ pending) .idle).advance engine f s.wake :=
  Traversal.advance_point engine f (s.walk (next ++ pending) .idle) (.saving node (.proceed next))
    s.wake

/-- The nodes behind a node are visited one after the other, if each visit tells of the walk. -/
theorem tells_forM {bound : Nat} (hvisit : ∀ (s : Scene) (node : Node) (pending : List Node),
      s.coming.length < bound →
      t = ((s.walk (node :: pending) .idle).advance engine f s.wake).drive engine f s.coming →
      Tells (node.visit engine f) s t fun _ s' => GoesOn engine f t pending s')
    (next pending : List Node) (s : Scene) (hlen : s.coming.length < bound)
    (hs : GoesOn engine f t (next ++ pending) s) :
    Tells (next.forM fun n => do if ← isRunning then n.visit engine f) s t fun _ s' =>
      GoesOn engine f t pending s' := by
  induction next generalizing s with
  | nil => exact Tells.pure hs
  | cons node rest ih =>
    have hnode : Tells (do if ← isRunning then node.visit engine f) s t fun _ s' =>
        GoesOn engine f t (rest ++ pending) s' := by
      refine tells_isRunning ?_
      cases hrun : s.execution.isRunning with
      | true => exact hvisit s node (rest ++ pending) hlen (hs.running hrun)
      | false => exact Tells.pure ⟨fun h => by simp [hrun] at h, fun _ => hs.stopped hrun⟩
    exact hnode.bind fun _ s' hlen' hs' => ih s' (by omega) hs'

/-- A visit tells of the walk from the moment at which its node lies on top of the stack until the
node and everything behind it is gone from there. -/
theorem tells_visit (node : Node) (pending : List Node) (s : Scene)
    (ht : t = ((s.walk (node :: pending) .idle).advance engine f s.wake).drive engine f s.coming) :
    Tells (node.visit engine f) s t fun _ s' => GoesOn engine f t pending s' := by
  induction hn : s.coming.length using Nat.strongRecOn generalizing s node pending with
  | ind n ih =>
    rw [Node.visit]
    refine tells_modify rfl (tells_isRunning ?_)
    simp only [Traversal.advance] at ht
    dsimp only
    by_cases hrun : (s.execution.observe s.wake.moment s.wake.cancelled).isRunning = true
    · rw [if_pos hrun] at ht ⊢
      rw [← Traversal.attempt_point engine f _ .idle] at ht
      refine (tells_persist engine f { s with execution := _ } pending ht).bind ?_
      rintro step s₁ hlen₁ ⟨hhalt, ht⟩
      refine tells_modify rfl (tells_modify rfl ?_)
      refine (tells_await engine f _ pending rfl ht).bind ?_
      rintro - s₂ - ⟨hlen₂, he, ht⟩
      cases step with
      | proceed next =>
        rw [resume_saving_proceed] at ht
        exact tells_forM engine f (fun s node pending hlt ht => ih _ hlt node pending s ht rfl) next
          pending s₂ (by simp only at hlen₁ hlen₂; omega) (.of_advance engine f ht)
      | finish =>
        exact ⟨.ok (), _, rfl, Nat.le_refl _,
          .of_ended engine f (Execution.isRunning_stop s₂.execution s₂.wake.moment node) ht⟩
      | halt =>
        have hover : s₂.execution.isRunning = false := by
          rw [he, Execution.observe_of_not_isRunning (hhalt rfl)]
          exact hhalt rfl
        exact Tells.pure (.of_ended engine f hover ht)
    · rw [if_neg hrun] at ht ⊢
      exact Tells.pure (.of_ended engine f (by simpa using hrun) ht)

end

end Visit

/-- **A walk with a stack is the recursion.** Whatever the funnel, the first node, the executors and
the wakes until then, the walk has made the attempts and written the snapshots that the recursion
makes and writes; both have the same execution, and the walk has ended as the recursion has, or
stands still where the recursion waits. -/
theorem Traversal.drive_start_eq_visit (engine : Engine) (f : Funnel) (t : Traversal) (node : Node)
    (budget : Budget) (wake : Wake) (wakes : List Wake) :
    ∃ ending s, (node.visit engine f).comesTo ⟨t.execution, budget, wake, wakes, t.trace⟩ =
        some (ending, s) ∧
      ((t.start engine f wake node budget).drive engine f wakes).Shows s ∧
      ((t.start engine f wake node budget).drive engine f wakes).point.outcome? =
        match ending with
        | .ok () => some (.ok ())
        | .error b => b.outcome? := by
  let s₀ : Scene := ⟨t.execution, budget, wake, wakes, t.trace⟩
  have hstart : t.start engine f wake node budget =
      (s₀.walk [node] .idle).advance engine f wake :=
    (Traversal.advance_point engine f (s₀.walk [node] .idle) t.point wake)
  obtain ⟨ending, s, hrun, -, h⟩ := Visit.tells_visit engine f node [] s₀
    (congrArg (fun t => t.drive engine f wakes) hstart)
  refine ⟨ending, s, hrun, ?_⟩
  cases ending with
  | error b => exact h
  | ok a =>
    cases hs : s.execution.isRunning with
    | false => exact h.stopped hs
    | true =>
      rw [h.running hs, Traversal.drive_of_ended engine f rfl]
      exact ⟨⟨rfl, rfl, rfl⟩, rfl⟩

end Outreach
