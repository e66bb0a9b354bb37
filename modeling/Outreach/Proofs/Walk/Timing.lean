import Outreach.Proofs.Walk.Agreement
import Outreach.Proofs.Walk.Step

/-!
# Walks whose time is limited

A walk looks at its budget only where a wait is charged. So a walk with a limit does what it would do
with all the time there is, as long as its waits cost no more than the limit
(`Traversal.drive_used`). The wait by which they do is cut where the limit is reached, and ends the
walk (`Traversal.resume_of_overdrawn`).
-/

namespace Outreach

namespace Budget

variable {limit spent wait : Nat}

/-- What is left of a limit when so much of it was spent. -/
def used (limit spent : Nat) : Budget :=
  ⟨limit, some (limit - spent)⟩

theorem charge_used (h : spent + wait ≤ limit) :
    (used limit spent).charge wait = some (used limit (spent + wait)) := by
  have hfits : wait ≤ limit - spent := Nat.le_sub_of_add_le' h
  rw [charge, used, used, Nat.sub_add_eq]
  exact if_pos hfits

theorem charge_used_of_lt (hspent : spent ≤ limit) (h : limit < spent + wait) :
    (used limit spent).charge wait = none := by
  have hlong : ¬ wait ≤ limit - spent := by omega
  exact if_neg hlong

/-- A wait that does not fit is cut where the limit is reached. -/
theorem cut_used (hspent : spent ≤ limit) (h : limit < spent + wait) :
    spent + (used limit spent).cut wait = limit := by
  have hcut : (used limit spent).cut wait = limit - spent := Nat.min_eq_right (by omega)
  rw [hcut, Nat.add_sub_of_le hspent]

end Budget

namespace Traversal

/-! ## Where the budget is not looked at -/

section

variable (engine : Engine) (f : Funnel) (t : Traversal) (b : Budget) (wake : Wake) (n : Node)

theorem fail_budget (fault : EngineFault) :
    { t with budget := b }.fail engine wake n fault =
      { t.fail engine wake n fault with budget := b } := by
  unfold fail
  dsimp only
  split <;> rfl

theorem conclude_budget (result : ActionResult) :
    { t with budget := b }.conclude engine f wake n result =
      { t.conclude engine f wake n result with budget := b } := by
  unfold conclude
  dsimp only
  split
  next => exact fail_budget engine { t with execution := t.execution.take wake.moment n result } ..
  next => split <;> rfl

theorem work_budget (isExempt : Bool) (task : Task) :
    { t with budget := b }.work engine f wake n isExempt task =
      { t.work engine f wake n isExempt task with budget := b } := by
  cases task with
  | done result => exact conclude_budget ..
  | sleep => rfl
  | ask => rfl

theorem attempt_budget :
    { t with budget := b }.attempt engine f wake n =
      { t.attempt engine f wake n with budget := b } := by
  let e := t.execution.enter wake.moment n
  let entered := see { t with execution := e } (.attempt n e)
  unfold attempt
  dsimp only
  split
  next => exact fail_budget engine entered ..
  next => exact work_budget engine f entered ..

theorem advance_budget :
    { t with budget := b }.advance engine f wake =
      { t.advance engine f wake with budget := b } := by
  unfold advance
  dsimp only
  split
  next => rfl
  next n rest _ =>
    split
    next =>
      let e := t.execution.observe wake.moment wake.cancelled
      exact attempt_budget engine f { t with execution := e, pending := rest } ..
    next => rfl

theorem proceed_budget (step : Step) :
    { t with budget := b }.proceed engine f wake n step =
      { t.proceed engine f wake n step with budget := b } := by
  cases step with
  | proceed next => exact advance_budget engine f { t with pending := next ++ t.pending } ..
  | finish => rfl
  | halt => rfl

theorem start_budget (limit : Budget) :
    t.start engine f wake n limit =
      { t.start engine f wake n .unlimited with budget := limit } :=
  advance_budget engine f { t with pending := [n], budget := .unlimited } limit wake

variable {t b}

/-- A wait that fits into a budget, and into another, leads to the same. -/
theorem resume_budget {left other : Budget}
    (hcharge : { t with budget := b }.charge wake.spent = some left)
    (hother : t.charge wake.spent = some other) :
    { t with budget := b }.resume engine f wake =
      { t.resume engine f wake with budget := left } := by
  unfold resume
  dsimp only
  rw [hcharge, hother]
  split
  next outcome hpoint =>
    rw [charge, hpoint] at hcharge
    rw [← Option.some.inj hcharge]
  next n step hpoint =>
    rw [charge, hpoint] at hcharge
    rw [← Option.some.inj hcharge]
    exact proceed_budget ..
  next n isExempt task _ => exact work_budget engine f { t with budget := other } ..
  next n _ =>
    dsimp only
    let e := t.execution.observe wake.moment wake.cancelled
    split
    next => exact attempt_budget engine f { t with budget := other, execution := e } ..
    next => rfl

variable {wake}

/-- A wait that does not fit ends a walk, and nothing is tried after it. -/
theorem resume_of_overdrawn (h : t.charge wake.spent = none) :
    (t.resume engine f wake).point = .ended (.error (.timeout t.budget.limit)) ∧
      (t.resume engine f wake).tried = t.tried := by
  unfold resume
  rw [h]
  split
  next outcome hpoint =>
    rw [charge, hpoint] at h
    cases h
  next n step hpoint =>
    rw [charge, hpoint] at h
    cases h
  next n _ _ _ =>
    have htimeout : (EngineFault.timeout t.budget.limit).isRetryable = false := rfl
    refine ⟨?_, tried_fail _⟩
    dsimp only
    rw [fail_of_not_isRetryable t htimeout]
    rfl
  next => exact ⟨rfl, rfl⟩

end

/-! ## What waits cost -/

section

variable (engine : Engine) (f : Funnel)

/-- What a wait costs: waits for executors count, but for those that are exempt, and so do pauses. -/
def price (t : Traversal) (wake : Wake) : Nat :=
  match t.point with
  | .working n _ _ =>
    if (engine.registry.executor? n.type).any fun x => !x.isExempt then wake.spent else 0
  | .pausing _ => wake.spent
  | .saving _ _ | .ended _ => 0

/-- What the waits of a walk cost. -/
def cost (t : Traversal) : List Wake → Nat
  | [] => 0
  | wake :: wakes => t.price engine wake + (t.resume engine f wake).cost wakes

variable {engine f} {Q : Node → Task → Prop} {P : Execution → List Sighting → Prop}
  {t : Traversal}

/-- Waits that cost something are the ones that are charged. -/
theorem price_eq (h : t.point.BelongsTo engine f Q) (wake : Wake) :
    t.price engine wake = if isCharged t.point then wake.spent else 0 := by
  unfold price
  cases hpoint : t.point with
  | working n isExempt task =>
    rw [hpoint] at h
    obtain ⟨-, -, -, x, hx, rfl⟩ := h
    simp [hx, isCharged]
  | pausing => rfl
  | saving => rfl
  | ended => rfl

/-- As much is taken from a budget as a wait costs. -/
theorem charge_of_price_le {limit spent : Nat} (h : t.point.BelongsTo engine f Q) {wake : Wake}
    (hfits : spent + t.price engine wake ≤ limit) :
    { t with budget := .used limit spent }.charge wake.spent =
      some (.used limit (spent + t.price engine wake)) := by
  rw [price_eq h] at hfits ⊢
  rw [charge]
  dsimp only
  split
  next hcharged =>
    rw [if_pos hcharged] at hfits
    exact Budget.charge_used hfits
  next => rfl

/-- A wait that costs too much is charged, and does not fit. -/
theorem charge_of_lt_price {limit spent : Nat} (h : t.point.BelongsTo engine f Q) {wake : Wake}
    (hspent : spent ≤ limit) (hlong : limit < spent + t.price engine wake) :
    { t with budget := .used limit spent }.charge wake.spent = none ∧
      spent + { t with budget := .used limit spent }.cut wake.spent = limit := by
  rw [price_eq h] at hlong
  rw [charge, cut]
  dsimp only
  split
  next hcharged =>
    rw [if_pos hcharged] at hlong
    exact ⟨Budget.charge_used_of_lt hspent hlong, Budget.cut_used hspent hlong⟩
  next hfree =>
    rw [if_neg hfree] at hlong
    exact absurd hspent (Nat.not_le.mpr hlong)

/-- With all the time there is, every wait fits. -/
theorem charge_of_unlimited (h : t.budget = .unlimited) (wait : Nat) :
    t.charge wait = some .unlimited := by
  rw [charge, h]
  split <;> rfl

theorem budget_resume_of_unlimited (h : t.budget = .unlimited) (wake : Wake) :
    (t.resume engine f wake).budget = .unlimited := by
  have hcharge : { t with budget := t.budget }.charge wake.spent = some .unlimited :=
    charge_of_unlimited h wake.spent
  have hresume := resume_budget engine f wake hcharge hcharge
  exact congrArg Traversal.budget hresume

theorem Upholds.drive (hQ : WorksWith engine f Q) (hP : Lasts engine f Q P)
    (h : t.Upholds engine f Q P) (wakes : List Wake) :
    (t.drive engine f wakes).Upholds engine f Q P := by
  induction wakes generalizing t with
  | nil => exact h
  | cons wake wakes ih => exact ih (h.resume wake hQ hP)

theorem cost_concat (t : Traversal) (wakes : List Wake) (wake : Wake) :
    t.cost engine f (wakes ++ [wake]) =
      t.cost engine f wakes + (t.drive engine f wakes).price engine wake := by
  induction wakes generalizing t with
  | nil => exact Nat.add_comm ..
  | cons first wakes ih =>
    rw [List.cons_append, cost, ih, cost, drive_cons, Nat.add_assoc]

/-- **A walk with a limit is the walk without one**, but for its budget, as long as what its waits cost
does not exceed what is left. -/
theorem drive_used {limit spent : Nat} (hQ : WorksWith engine f Q) (hP : Lasts engine f Q P)
    (h : t.Upholds engine f Q P) (hfree : t.budget = .unlimited) (wakes : List Wake)
    (hfits : spent + t.cost engine f wakes ≤ limit) :
    { t with budget := .used limit spent }.drive engine f wakes =
      { t.drive engine f wakes with
        budget := .used limit (spent + t.cost engine f wakes) } := by
  induction wakes generalizing t spent with
  | nil => rfl
  | cons wake wakes ih =>
    rw [cost, ← Nat.add_assoc] at hfits ⊢
    have hcharge := charge_of_price_le h.point.belongsTo (Nat.le_of_add_right_le hfits)
    have hresume := resume_budget engine f wake hcharge (charge_of_unlimited hfree wake.spent)
    rw [drive_cons, hresume, drive_cons]
    exact ih (h.resume wake hQ hP) (budget_resume_of_unlimited hfree wake) hfits

end

end Traversal

end Outreach
