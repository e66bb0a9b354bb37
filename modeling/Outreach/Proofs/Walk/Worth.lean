import Mathlib.Algebra.Group.Action.Defs
import Mathlib.Algebra.Order.BigOperators.Group.List
import Mathlib.Tactic.Ring
import Outreach.Proofs.Execution.Frame
import Outreach.Proofs.Funnel.Routes
import Outreach.Proofs.Run.Invariant
import Outreach.Proofs.Walk.Sightings

/-!
# What a walk may still do

In an accepted funnel whose connections declare the nodes that hold them, only the jumps of
conditions can lead back: every connection leads down in rank. So a node can be given a weight that
pays for all attempts at it and at everything behind it (`Funnel.Accepted.exists_pays`). What the
nodes that lie before a walk weigh, and what is left to be done at the node at which it stands, is
its worth; it falls with every wait, but for a jump, which adds at most the weight of all nodes
together (`Traversal.spends_resume`).
-/

namespace Outreach

namespace Funnel

/-! ## Weights -/

section

variable (f : Funnel) (retries : Nat) (weight : Node → Nat)

/-- What nodes weigh together. -/
def burden (nodes : List Node) : Nat :=
  (nodes.map weight).sum

@[simp] theorem burden_nil : burden weight [] = 0 := rfl

@[simp] theorem burden_cons (n : Node) (nodes : List Node) :
    burden weight (n :: nodes) = weight n + burden weight nodes := rfl

@[simp] theorem burden_append (first second : List Node) :
    burden weight (first ++ second) = burden weight first + burden weight second := by
  simp [burden]

theorem weight_le_burden {nodes : List Node} {n : Node} (hn : n ∈ nodes) :
    weight n ≤ burden weight nodes :=
  List.le_sum_of_mem (List.mem_map_of_mem hn)

/-- The weight of the target of a connection. -/
def targetWeight (c : Connection) : Nat :=
  ((f.node? c.target).map weight).getD 0

/-- What the targets of a node weigh together. -/
def spread (n : Node) : Nat :=
  (n.connections.map (f.targetWeight weight)).sum

/-- Every node weighs more than its targets, by what its own attempts take. -/
def Pays : Prop :=
  ∀ n ∈ f.nodes, 2 * retries + 2 + f.spread weight n ≤ weight n

end

variable {f : Funnel} {registry : Registry} {limits : Limits} {weight : Node → Nat}

theorem burden_target (f : Funnel) (weight : Node → Nat) (moment : Moment) (source id : String)
    (e : Execution) :
    burden weight (f.target moment source e id).1 = ((f.node? id).map weight).getD 0 := by
  unfold target
  cases f.node? id with
  | none => rfl
  | some m => simp [burden]

theorem burden_targets_le (f : Funnel) (weight : Node → Nat) (moment : Moment) (source : String)
    (connections : List Connection) (e : Execution) :
    burden weight (f.targets moment source connections e).1 ≤
      (connections.map (f.targetWeight weight)).sum := by
  induction connections generalizing e with
  | nil => exact Nat.le_refl _
  | cons c rest ih =>
    rw [List.map_cons, List.sum_cons]
    unfold targets
    split
    next e' _ =>
      dsimp only
      rw [burden_append, burden_target]
      exact Nat.add_le_add_left (ih _) _
    next e' _ => exact (ih e').trans (Nat.le_add_left _ _)

/-- The nodes that come next weigh no more than all targets, or all nodes if one was named. -/
theorem burden_onward_le (f : Funnel) (weight : Node → Nat) (moment : Moment) (n : Node)
    (named : Option String) (e : Execution) :
    burden weight (f.onward moment n named e).1 ≤
      f.spread weight n + if named.isSome then burden weight f.nodes else 0 := by
  -- Only a node that was named may be one that the connections do not lead down to.
  cases named with
  | none => exact burden_targets_le f weight moment n.id n.connections e
  | some id =>
    rw [onward, burden_target, Option.isSome_some, if_pos rfl]
    cases hm : f.node? id with
    | none => exact Nat.zero_le _
    | some m =>
      have hle := weight_le_burden weight (mem_of_node? hm)
      rw [Option.map_some, Option.getD_some]
      omega

/-- Targets that weigh at most so much weigh together at most so much for each connection. -/
theorem spread_le {n : Node} {bound : Nat}
    (h : ∀ c ∈ n.connections, ∀ m, f.node? c.target = some m → weight m ≤ bound) :
    f.spread weight n ≤ n.connections.length * bound := by
  have htarget : ∀ w ∈ n.connections.map (f.targetWeight weight), w ≤ bound := by
    intro w hw
    obtain ⟨c, hc, rfl⟩ := List.mem_map.mp hw
    unfold targetWeight
    cases hm : f.node? c.target with
    | none => exact Nat.zero_le _
    | some m => exact h c hc m hm
  have hsum := List.sum_le_card_nsmul _ _ htarget
  rwa [List.length_map, smul_eq_mul] at hsum

/-- A number that is greater than the number of connections of any node. -/
def base (f : Funnel) : Nat :=
  (f.nodes.map fun n => n.connections.length).sum + 1

theorem length_connections_lt_base {n : Node} (hn : n ∈ f.nodes) :
    n.connections.length < f.base :=
  Nat.lt_succ_of_le (List.le_sum_of_mem (List.mem_map_of_mem hn))

/-- The weight of the nodes of a rank. -/
def rankWeight (f : Funnel) (retries rank : Nat) : Nat :=
  (2 * retries + 2) * f.base ^ rank

theorem rankWeight_mono (f : Funnel) (retries : Nat) {rank rank' : Nat} (h : rank ≤ rank') :
    f.rankWeight retries rank ≤ f.rankWeight retries rank' :=
  Nat.mul_le_mul_left _ (Nat.pow_le_pow_right (Nat.succ_pos _) h)

/-- **Weights for an accepted funnel**: the rank of a node in the exponent, more than all
connections of a node in the base. -/
theorem Accepted.exists_pays (h : f.Accepted registry limits) (hf : f.DeclaresHolders)
    (retries : Nat) : ∃ weight, f.Pays retries weight := by
  obtain ⟨rank, hrank⟩ := h.exists_rank hf
  refine ⟨fun n => f.rankWeight retries (rank n), fun n hn => ?_⟩
  have hlower : ∀ c ∈ n.connections, ∀ m, f.node? c.target = some m → rank m < rank n :=
    fun c hc m hm => hrank hn ⟨c, hc, hm⟩
  cases hr : rank n with
  | zero =>
    -- Nothing ranks lower, so there are no targets.
    have hspread : f.spread (fun n => f.rankWeight retries (rank n)) n ≤
        n.connections.length * 0 := by
      refine spread_le fun c hc m hm => ?_
      have hlt := hlower c hc m hm
      omega
    have hweight : f.rankWeight retries (rank n) = 2 * retries + 2 := by
      rw [rankWeight, hr, pow_zero, mul_one]
    dsimp only
    omega
  | succ rank' =>
    let lower := f.rankWeight retries rank'
    have hspread : f.spread (fun n => f.rankWeight retries (rank n)) n ≤
        n.connections.length * lower := by
      refine spread_le fun c hc m hm => f.rankWeight_mono retries ?_
      have hlt := hlower c hc m hm
      omega
    have hone : 2 * retries + 2 ≤ lower :=
      Nat.le_mul_of_pos_right _ (Nat.pow_pos (Nat.succ_pos _))
    calc 2 * retries + 2 + f.spread (fun n => f.rankWeight retries (rank n)) n
        ≤ lower + n.connections.length * lower := Nat.add_le_add hone hspread
      _ = (n.connections.length + 1) * lower := by ring
      _ ≤ f.base * lower := Nat.mul_le_mul_right _ (length_connections_lt_base hn)
      _ = f.rankWeight retries (rank n) := by simp only [lower, rankWeight, hr, pow_succ]; ring

end Funnel

/-! ## What is left to be done -/

/-- What may still be done at a node: the targets, and two steps for each attempt that is left. -/
def Funnel.allowance (f : Funnel) (limits : Limits) (weight : Node → Nat) (e : Execution)
    (n : Node) : Nat :=
  f.spread weight n + 2 * (limits.retries - e.errorsAt n.id)

/-- What is left to be done at a point. -/
def Point.worth (f : Funnel) (limits : Limits) (weight : Node → Nat) (e : Execution) : Point → Nat
  | .saving _ (.proceed next) => 1 + Funnel.burden weight next
  | .saving _ .finish | .saving _ .halt => 1
  | .working n _ _ => f.allowance limits weight e n + 2
  | .pausing n => f.allowance limits weight e n + 3
  | .ended _ => 0

/-- Work that after a wait names no node to jump to. -/
def Task.IsUndirected (task : Task) : Prop :=
  task.Ends (fun _ => True) fun result => result.nextNode = none

/-- The nodes to which work may jump at once. -/
def Task.bonus (f : Funnel) (weight : Node → Nat) : Task → Nat
  | .done result => if result.nextNode.isSome then Funnel.burden weight f.nodes else 0
  | .sleep _ _ | .ask _ _ => 0

theorem Task.IsUndirected.continueTask {task : Task} (h : task.IsUndirected)
    (hwaits : ∀ result, task ≠ .done result) (wake : Wake) :
    ∃ result, Traversal.continueTask task wake = .done result ∧ result.nextNode = none := by
  cases h with
  | done => exact absurd rfl (hwaits _)
  | sleep h => exact h wake.moment.now
  | ask h => exact h wake.moment.now (wake.reply _)

namespace Traversal

/-- What is left to be done on a walk. -/
def worth (f : Funnel) (limits : Limits) (weight : Node → Nat) (t : Traversal) : Nat :=
  Funnel.burden weight t.pending + t.point.worth f limits weight t.execution

variable {engine : Engine} {f : Funnel} {weight : Node → Nat} {t : Traversal} {wake : Wake}
  {n : Node}

theorem allowance_congr {limits : Limits} {e e' : Execution} (h : e.errors = e'.errors) (n : Node) :
    f.allowance limits weight e n = f.allowance limits weight e' n := by
  rw [Funnel.allowance, Funnel.allowance, Execution.errorsAt_congr h]

theorem worth_of_point {limits : Limits} {p : Point} (hp : t.point = p) :
    t.worth f limits weight =
      Funnel.burden weight t.pending + p.worth f limits weight t.execution := by
  rw [worth, hp]

theorem worth_finish (limits : Limits) (outcome : Except EngineFault Unit) :
    (t.finish outcome).worth f limits weight = Funnel.burden weight t.pending := rfl

theorem worth_fail_le (fault : EngineFault) :
    (t.fail engine wake n fault).worth f engine.limits weight ≤
      Funnel.burden weight t.pending + f.allowance engine.limits weight t.execution n + 1 := by
  unfold fail
  dsimp only
  split
  next hr =>
    have hcount : (t.execution.recordError wake.moment (some n.id) fault.message none
        fault.isRetryable).errorsAt n.id = t.execution.errorsAt n.id + 1 :=
      Execution.errorsAt_recordError ..
    have hle : t.execution.errorsAt n.id + 1 ≤ engine.limits.retries := by
      rw [Limits.allowsRetry, hcount] at hr
      simpa using (Bool.and_eq_true_iff.mp hr).2
    simp only [worth, Point.worth, Funnel.allowance]
    rw [Execution.errorsAt_congr (Execution.errors_noteRetry ..), hcount]
    omega
  next =>
    simp only [worth, finish, Point.worth]
    omega

theorem worth_settle_le {limits : Limits} {step : Step} (bound : Nat)
    (h : ∀ next, step = .proceed next → Funnel.burden weight next ≤ bound) :
    (t.settle wake n step).worth f limits weight ≤
      Funnel.burden weight t.pending + (1 + bound) := by
  cases step with
  | proceed next => exact Nat.add_le_add_left (Nat.add_le_add_left (h next rfl) 1) _
  | finish => exact Nat.add_le_add_left (Nat.le_add_right 1 _) _
  | halt => exact Nat.add_le_add_left (Nat.le_add_right 1 _) _

theorem worth_conclude_le (result : ActionResult) :
    (t.conclude engine f wake n result).worth f engine.limits weight ≤
      Funnel.burden weight t.pending + f.allowance engine.limits weight t.execution n + 1 +
        (Task.done result).bonus f weight := by
  have herrors : (t.execution.take wake.moment n result).errors = t.execution.errors :=
    Execution.errors_take ..
  unfold conclude
  dsimp only
  split
  next =>
    refine (worth_fail_le _).trans ?_
    dsimp only
    rw [allowance_congr herrors]
    exact Nat.le_add_right _ _
  next =>
    have hbound : f.spread weight n ≤ f.allowance engine.limits weight t.execution n :=
      Nat.le_add_right _ _
    split
    next =>
      refine (worth_settle_le 0 (by rintro _ ⟨⟩)).trans ?_
      dsimp only
      omega
    next =>
      have hburden := Funnel.burden_onward_le f weight wake.moment n result.nextNode
        (t.execution.take wake.moment n result)
      refine (worth_settle_le _ (by rintro _ ⟨⟩; exact hburden)).trans ?_
      dsimp only [Task.bonus]
      omega

theorem worth_work_le (isExempt : Bool) (task : Task) :
    (t.work engine f wake n isExempt task).worth f engine.limits weight ≤
      Funnel.burden weight t.pending + f.allowance engine.limits weight t.execution n + 2 +
        task.bonus f weight := by
  cases task with
  | done result =>
    refine (worth_conclude_le result).trans ?_
    omega
  | sleep => exact Nat.le_refl _
  | ask => exact Nat.le_refl _

/-! ## From one wait to the next -/

/-- Something was taken from what is left to be done on a walk, but for jumps. -/
def Spends (f : Funnel) (limits : Limits) (weight : Node → Nat) (t t' : Traversal) : Prop :=
  t'.worth f limits weight + 1 + Funnel.burden weight f.nodes * t.jumps ≤
    t.worth f limits weight + Funnel.burden weight f.nodes * t'.jumps

theorem spends_of_le {limits : Limits} {t' : Traversal} (hjumps : t'.jumps = t.jumps)
    (h : t'.worth f limits weight + 1 ≤ t.worth f limits weight) :
    t.Spends f limits weight t' := by
  rw [Spends, hjumps]
  exact Nat.add_le_add_right h _

section

variable {channels : List Channel} {checked limits : Limits}

/-- A jump pays for the nodes to which an attempt may jump. -/
theorem bonus_perform_le (h : f.Accepted (.builtIn channels) checked) (hn : n ∈ f.nodes)
    {x : Executor} (hx : (Registry.builtIn channels).executor? n.type = some x) (now : Instant)
    (e : Execution) :
    (x.perform now n e).bonus f weight ≤
      Funnel.burden weight f.nodes * if (n.jump? e.vars).isSome then 1 else 0 := by
  have hends := h.ends hn hx now e
  generalize x.perform now n e = task at hends
  cases hends with
  | done hresult =>
    rw [Task.bonus, hresult.2]
    split <;> simp
  | sleep => exact Nat.zero_le _
  | ask => exact Nat.zero_le _

/-- An attempt costs what a node allows for it, and a jump may add the weight of all nodes. -/
theorem worth_attempt_le (h : f.Accepted (.builtIn channels) checked) (hn : n ∈ f.nodes)
    (t : Traversal) (wake : Wake) :
    (t.attempt ⟨.builtIn channels, limits⟩ f wake n).worth f limits weight +
        Funnel.burden weight f.nodes * t.jumps ≤
      Funnel.burden weight t.pending + f.allowance limits weight t.execution n + 2 +
        Funnel.burden weight f.nodes * (t.attempt ⟨.builtIn channels, limits⟩ f wake n).jumps := by
  obtain ⟨x, hx, -⟩ := (h.nodes n hn).executor
  let e := t.execution.enter wake.moment n
  let task := x.perform wake.moment.now n e
  have hjumps : (t.attempt ⟨.builtIn channels, limits⟩ f wake n).jumps =
      t.jumps + if (n.jump? e.vars).isSome then 1 else 0 :=
    countP_attempt fun _ => rfl
  have hbonus : task.bonus f weight ≤
      Funnel.burden weight f.nodes * if (n.jump? e.vars).isSome then 1 else 0 :=
    bonus_perform_le h hn hx wake.moment.now e
  have hwork : (t.attempt ⟨.builtIn channels, limits⟩ f wake n).worth f limits weight ≤
      Funnel.burden weight t.pending + f.allowance limits weight t.execution n + 2 +
        task.bonus f weight := by
    have hattempt : t.attempt ⟨.builtIn channels, limits⟩ f wake n =
        (see { t with execution := e } (.attempt n e)).work ⟨.builtIn channels, limits⟩ f wake n
          x.isExempt task := by
      unfold attempt
      dsimp only
      rw [hx]
    have herrors : e.errors = t.execution.errors := Execution.errors_enter ..
    rw [hattempt, ← allowance_congr herrors]
    exact worth_work_le x.isExempt task
  rw [hjumps, Nat.mul_add]
  omega

/-- The end of a node's work is paid for by what the node is allowed. -/
theorem spends_working {isExempt : Bool} {task : Task} (hp : t.point = .working n isExempt task)
    (hundirected : task.IsUndirected) (hwaits : ∀ result, task ≠ .done result) (wake : Wake) :
    t.Spends f limits weight (t.resume ⟨.builtIn channels, limits⟩ f wake) := by
  obtain ⟨result, hresult, hnone⟩ := hundirected.continueTask hwaits wake
  unfold resume
  rw [hp]
  dsimp only
  rw [hresult]
  split
  next =>
    refine spends_of_le (jumps_fail _) ?_
    rw [worth_of_point hp]
    exact Nat.succ_le_succ (worth_fail_le _)
  next budget _ =>
    refine spends_of_le (jumps_work isExempt (.done result)) ?_
    rw [worth_of_point hp]
    refine (Nat.succ_le_succ (worth_conclude_le result)).trans ?_
    simp only [Task.bonus, hnone, Point.worth]
    exact Nat.le_refl _

/-- Another attempt at a node is paid for by the pause before it. -/
theorem spends_pausing (h : f.Accepted (.builtIn channels) checked) (hp : t.point = .pausing n)
    (hn : n ∈ f.nodes) (wake : Wake) :
    t.Spends f limits weight (t.resume ⟨.builtIn channels, limits⟩ f wake) := by
  obtain ⟨e, he⟩ : ∃ e, t.execution.observe wake.moment wake.cancelled = e := ⟨_, rfl⟩
  have herrors : e.errors = t.execution.errors := he ▸ Execution.errors_observe ..
  unfold resume
  rw [hp]
  dsimp only
  rw [he]
  split
  next =>
    refine spends_of_le rfl ?_
    rw [worth_of_point hp, worth_finish]
    exact Nat.add_le_add_left (Nat.le_add_left 1 _) _
  next budget _ =>
    split
    next =>
      have hattempt : _ + Funnel.burden weight f.nodes * t.jumps ≤
          Funnel.burden weight t.pending + f.allowance limits weight e n + 2 + _ :=
        worth_attempt_le h hn { t with budget, execution := e, point := .pausing n } wake
      rw [allowance_congr herrors] at hattempt
      rw [Spends, worth_of_point hp]
      simp only [Point.worth]
      omega
    next =>
      refine spends_of_le (jumps_settle .halt) ?_
      change Funnel.burden weight t.pending + 1 + 1 ≤ _
      rw [worth_of_point hp, Point.worth]
      omega

variable (hpays : f.Pays limits.retries weight)

include hpays

/-- What lies before a walk pays for going on with the topmost node. -/
theorem worth_advance_le (h : f.Accepted (.builtIn channels) checked) (t : Traversal) (wake : Wake)
    (ht : t.pending ⊆ f.nodes) :
    (t.advance ⟨.builtIn channels, limits⟩ f wake).worth f limits weight +
        Funnel.burden weight f.nodes * t.jumps ≤
      Funnel.burden weight t.pending +
        Funnel.burden weight f.nodes * (t.advance ⟨.builtIn channels, limits⟩ f wake).jumps := by
  unfold advance
  split
  next hpending =>
    rw [worth_finish]
    exact Nat.le_refl _
  next n rest hpending =>
    have hn : n ∈ f.nodes := ht (hpending ▸ List.mem_cons_self)
    have hweight := hpays n hn
    obtain ⟨e, he⟩ : ∃ e, t.execution.observe wake.moment wake.cancelled = e := ⟨_, rfl⟩
    have hallowance : f.allowance limits weight e n ≤ f.spread weight n + 2 * limits.retries := by
      unfold Funnel.allowance
      omega
    rw [he, hpending, Funnel.burden_cons]
    dsimp only
    split
    next =>
      refine (worth_attempt_le h hn _ wake).trans ?_
      dsimp only
      omega
    next =>
      rw [worth_finish]
      exact Nat.add_le_add_right (Nat.le_add_left _ _) _

/-- What is done after a node is paid for by what comes next. -/
theorem spends_proceed (h : f.Accepted (.builtIn channels) checked) {step : Step}
    (hp : t.point = .saving n step) (hpending : t.pending ⊆ f.nodes)
    (hnext : ∀ next, step = .proceed next → next ⊆ f.nodes) (wake : Wake) :
    t.Spends f limits weight (t.proceed ⟨.builtIn channels, limits⟩ f wake n step) := by
  cases step with
  | proceed next =>
    have hsub : next ++ t.pending ⊆ f.nodes := List.append_subset.mpr ⟨hnext next rfl, hpending⟩
    have hadvance := worth_advance_le hpays h { t with pending := next ++ t.pending } wake hsub
    rw [Funnel.burden_append] at hadvance
    change _ + _ * t.jumps ≤ _ at hadvance
    rw [Spends, worth_of_point hp]
    simp only [proceed, Point.worth]
    omega
  | finish =>
    refine spends_of_le rfl ?_
    rw [worth_of_point hp]
    exact Nat.le_refl _
  | halt =>
    refine spends_of_le rfl ?_
    rw [worth_of_point hp]
    exact Nat.le_refl _

/-- **A wait takes something from what is left to be done on a walk**, but for a jump. -/
theorem spends_resume (h : f.Accepted (.builtIn channels) checked)
    {P : Execution → List Sighting → Prop}
    (ht : t.Upholds ⟨.builtIn channels, limits⟩ f (fun _ task => task.IsUndirected) P)
    (hgoing : ∀ outcome, t.point ≠ .ended outcome) (wake : Wake) :
    t.Spends f limits weight (t.resume ⟨.builtIn channels, limits⟩ f wake) := by
  have hpoint := ht.point
  cases hp : t.point with
  | ended outcome => exact absurd hp (hgoing outcome)
  | saving n step =>
    rw [hp] at hpoint
    have hproceed := spends_proceed hpays h hp ht.pending hpoint.2 wake
    unfold resume
    rw [hp]
    exact hproceed
  | working n isExempt task =>
    rw [hp] at hpoint
    exact spends_working hp hpoint.2.1 hpoint.2.2.1 wake
  | pausing n =>
    rw [hp] at hpoint
    exact spends_pausing h hp hpoint wake

end

end Traversal

end Outreach
