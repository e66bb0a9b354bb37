import Mathlib.Algebra.BigOperators.Ring.Finset
import Outreach.Engine.Tally

/-!
# Runs that are counted at the same time

The additions to a tally may be made in any order (`Tally.addAll_perm`), so it makes no difference in
which order runs are counted, nor whether the two additions for one come right behind each other. In
the end every run has been counted once and under its own status, and its time has been added, all in
64 bits, which hold the numbers of fewer than `2 ^ 64` runs as they are (`Tally.counted_exactly`).
-/

namespace Outreach

namespace Tally

variable {t : Tally} {e : Execution} {es : List Execution}

/-! ## Sums in 64 bits -/

theorem sum64_right_comm (a b c : Nat) : sum64 (sum64 a b) c = sum64 (sum64 a c) b := by
  rw [sum64, sum64, sum64, sum64, Nat.mod_add_mod, Nat.mod_add_mod, Nat.add_right_comm]

/-- A sum that was cut to 64 bits can be added to as if it had not been. -/
theorem sum64_mod_left (a b : Nat) : sum64 (a % 2 ^ 64) b = (a + b) % 2 ^ 64 :=
  Nat.mod_add_mod a (2 ^ 64) b

theorem sum64_mod (a b : Nat) : sum64 (a % 2 ^ 64) (b % 2 ^ 64) = (a + b) % 2 ^ 64 :=
  (Nat.add_mod a b (2 ^ 64)).symm

/-! ## The order of additions -/

/-- Two additions may change places. -/
theorem add_add_comm (t : Tally) (first second : TallyStep) :
    (t.add first).add second = (t.add second).add first := by
  cases first <;> cases second <;> simp [add, sum64_right_comm]

/-- Additions may be made in any order. -/
theorem addAll_perm {steps other : List TallyStep} (h : steps.Perm other) (t : Tally) :
    t.addAll steps = t.addAll other :=
  h.foldl_eq' (fun first _ second _ t => add_add_comm t first second) t

/-- To count runs one after the other is to make all their additions. -/
theorem addAll_flatMap (t : Tally) (es : List Execution) :
    t.addAll (es.flatMap TallyStep.ofReport) = es.foldl countReport t := by
  induction es generalizing t with
  | nil => rfl
  | cons e rest ih => rw [List.flatMap_cons, addAll_append, addAll_ofReport, ih, List.foldl_cons]

/-- Runs whose additions are made in some order. -/
theorem addAll_of_perm {history : List TallyStep}
    (h : history.Perm (es.flatMap TallyStep.ofReport)) (t : Tally) :
    t.addAll history = es.foldl countReport t := by
  rw [addAll_perm h, addAll_flatMap]

/-! ## What is counted -/

/-- What the report of one run adds to a tally. -/
theorem countReport_of_isTerminal (h : e.status.isTerminal = true) (t : Tally) :
    t.countReport e =
      { completed := if e.status = .completed then sum64 t.completed 1 else t.completed,
        cancelled := if e.status = .cancelled then sum64 t.cancelled 1 else t.cancelled,
        failed := if e.status = .failed then sum64 t.failed 1 else t.failed,
        duration := sum64 t.duration (e.duration?.getD 0).toNat } := by
  unfold countReport Execution.report
  cases hstatus : e.status with
  | pending => simp [hstatus, Status.isTerminal] at h
  | running => simp [hstatus, Status.isTerminal] at h
  | completed => simp [hstatus, count, addDuration]
  | failed => simp [countError, addDuration]
  | cancelled => simp [hstatus, count, addDuration]

/-- A counter that goes on for the runs that it is for. -/
theorem sum64_countP_concat {p : Execution → Bool} (es : List Execution) (e : Execution) :
    (if p e = true then sum64 (es.countP p % 2 ^ 64) 1 else es.countP p % 2 ^ 64) =
      (es ++ [e]).countP p % 2 ^ 64 := by
  rw [List.countP_append, List.countP_singleton, sum64_mod_left]
  split <;> rfl

/-- What the reports of runs come to, one after the other. -/
theorem foldl_countReport (hended : ∀ e ∈ es, e.status.isTerminal = true) :
    es.foldl countReport empty =
      { completed := es.countP (fun e => e.status = .completed) % 2 ^ 64,
        cancelled := es.countP (fun e => e.status = .cancelled) % 2 ^ 64,
        failed := es.countP (fun e => e.status = .failed) % 2 ^ 64,
        duration := (es.map fun e => (e.duration?.getD 0).toNat).sum % 2 ^ 64 } := by
  induction es using List.reverseRecOn with
  | nil => rfl
  | append_singleton rest e ih =>
    have hrest : ∀ e ∈ rest, e.status.isTerminal = true :=
      fun e he => hended e (List.mem_append_left _ he)
    have he : e.status.isTerminal = true := hended e (List.mem_append_right _ List.mem_cons_self)
    rw [List.foldl_concat, countReport_of_isTerminal he, ih hrest]
    simp only [← sum64_countP_concat, decide_eq_true_eq, sum64_mod_left, List.map_append,
      List.sum_append, List.map_cons, List.map_nil, List.sum_singleton]

/-- A run that has ended counts under one status. -/
theorem countP_status (hended : ∀ e ∈ es, e.status.isTerminal = true) :
    es.countP (fun e => e.status = .completed) + es.countP (fun e => e.status = .cancelled) +
      es.countP (fun e => e.status = .failed) = es.length := by
  induction es with
  | nil => rfl
  | cons e rest ih =>
    obtain ⟨he, hrest⟩ := List.forall_mem_cons.mp hended
    have ih := ih hrest
    have hone : (if e.status = .completed then 1 else 0) + (if e.status = .cancelled then 1 else 0) +
        (if e.status = .failed then 1 else 0) = 1 := by
      cases hstatus : e.status <;> simp [hstatus, Status.isTerminal] at he ⊢
    simp only [List.countP_cons, decide_eq_true_eq, List.length_cons]
    omega

/-- The times of runs, added up in whole numbers. -/
theorem sum_durations {durations : List Int}
    (h : es.map Execution.duration? = durations.map some) :
    (((es.map fun e => (e.duration?.getD 0).toNat).sum : Nat) : Int) =
      (durations.map (max · 0)).sum := by
  have hmap := congrArg (List.map fun d : Option Int => (d.getD 0).toNat) h
  simp only [List.map_map, Function.comp_def, Option.getD_some] at hmap
  rw [hmap, Nat.cast_list_sum, List.map_map]
  congr 1
  apply List.map_congr_left
  intro d _
  exact Int.ofNat_toNat d

/-- **Every run that ended is counted once**, under its own status, whatever order runs are reported
in and however the additions for them come between each other. The tally then has the number of runs
with each status, their number in all and the sum of their times, with those below zero counted as
none, all of it in 64 bits. With fewer than `2 ^ 64` runs the numbers of runs are what they are, and
the average is the sum of the times divided by the number of runs, rounded down, as soon as there is a
run. It is what counting the runs one after the other comes to, in any order. -/
theorem counted_exactly (hended : ∀ e ∈ es, e.status.isTerminal = true) {durations : List Int}
    (hdurations : es.map Execution.duration? = durations.map some) {history : List TallyStep}
    (hhistory : history.Perm (es.flatMap TallyStep.ofReport)) :
    let t := empty.addAll history
    (t.completed = es.countP (fun e => e.status = .completed) % 2 ^ 64 ∧
      t.cancelled = es.countP (fun e => e.status = .cancelled) % 2 ^ 64 ∧
      t.failed = es.countP (fun e => e.status = .failed) % 2 ^ 64 ∧
      t.total = es.length % 2 ^ 64 ∧
      (t.duration : Int) = (durations.map (max · 0)).sum % 2 ^ 64) ∧
    (es.length < 2 ^ 64 →
      t.completed = es.countP (fun e => e.status = .completed) ∧
      t.cancelled = es.countP (fun e => e.status = .cancelled) ∧
      t.failed = es.countP (fun e => e.status = .failed) ∧ t.total = es.length ∧
      t.average? = if es = [] then none else some (t.duration / es.length)) ∧
    ∀ order : List Execution, order.Perm es → order.foldl countReport empty = t := by
  intro t
  have ht : t = es.foldl countReport empty := addAll_of_perm hhistory empty
  have hfields := ht.trans (foldl_countReport hended)
  have htotal : t.total = es.length % 2 ^ 64 := by
    rw [hfields, total, sum64_mod, sum64_mod, countP_status hended]
  refine ⟨⟨by rw [hfields], by rw [hfields], by rw [hfields], htotal, ?_⟩, fun hfew => ?_, ?_⟩
  · rw [hfields, ← sum_durations hdurations]
    exact Int.natCast_mod _ _
  · have hfits (p : Execution → Bool) : es.countP p % 2 ^ 64 = es.countP p :=
      Nat.mod_eq_of_lt (List.countP_le_length.trans_lt hfew)
    rw [Nat.mod_eq_of_lt hfew] at htotal
    refine ⟨?_, ?_, ?_, htotal, ?_⟩
    · rw [hfields]
      exact hfits _
    · rw [hfields]
      exact hfits _
    · rw [hfields]
      exact hfits _
    · simp only [average?, htotal, List.length_eq_zero_iff]
  · intro order horder
    rw [ht, ← addAll_flatMap, ← addAll_flatMap]
    exact addAll_perm (horder.flatMap_right _) empty

/-- A run whose clock was put back, one that was cancelled after 1500 milliseconds, and one that
failed after 25, reported at the same time. -/
theorem three_counted_at_once :
    let run (status : Status) (start stop : Nat) : Execution :=
      { Execution.create ⟨.ofMilliseconds start, fun _ => default⟩ "welcome" none [] with
        status, endedAt := some (.ofMilliseconds stop) }
    let es := [run .completed 70 10, run .cancelled 0 1500, run .failed 100 125]
    let history : List TallyStep :=
      [.completed, .failed, .cancelled, .duration 1500, .duration 0, .duration 25]
    history.Perm (es.flatMap TallyStep.ofReport) ∧ (empty.addAll history).total = 3 ∧
      (empty.addAll history).average? = some 508 := by
  intro run es history
  have hended : ∀ e ∈ es, e.status.isTerminal = true := by decide
  have hdurations : es.map Execution.duration? = [-60, 1500, 25].map some := by decide
  have hhistory : history.Perm (es.flatMap TallyStep.ofReport) := by decide
  obtain ⟨⟨-, -, -, -, hduration⟩, hexact, -⟩ := counted_exactly hended hdurations hhistory
  obtain ⟨-, -, -, htotal, haverage⟩ := hexact (by decide)
  have hsum : (empty.addAll history).duration = 1525 := by
    have hwhole : ((empty.addAll history).duration : Int) = (1525 : Nat) := hduration.trans (by decide)
    exact Int.natCast_inj.mp hwhole
  refine ⟨hhistory, htotal, ?_⟩
  rw [haverage, hsum, if_neg (List.cons_ne_nil _ _), show es.length = 3 from rfl]

end Tally

end Outreach
