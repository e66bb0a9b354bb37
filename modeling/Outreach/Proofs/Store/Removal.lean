import Outreach.Store.Shared

/-!
# What a slow reader removes

A reader of a shared store that found an entry expired removes its key one step later, without
looking again. If a new execution was put under the key in between, it is the new one that goes.
This is the only way in which an execution is lost before it expires: `SharedStore.get_after_put`
says exactly when a reader still gets it. `SharedStore.slow_reader_removes_fresh` is a run of four
steps in which it does not.
-/

namespace Outreach

namespace StoreStep

/-- The reading of the clock that a step goes by. -/
def time? : StoreStep → Option Nat
  | look now _ | put now _ _ _ | sweep now => some now
  | remove _ => none

/-- A step that comes before an entry expires, and puts no other in its place. -/
structure Precedes (key : String) (entry : MemoryEntry) (step : StoreStep) : Prop where
  unreplaced : ∀ now e seconds, step ≠ .put now key e seconds
  unexpired : ∀ now, step.time? = some now → entry.isExpired now = false

theorem removes_eq_true {key : String} {step : StoreStep} :
    step.removes key = true ↔ step = .remove key := by
  cases step <;> simp [removes]

end StoreStep

namespace SharedStore

variable {s : SharedStore} {key : String} {entry : MemoryEntry} {step : StoreStep}

/-! ## One step -/

/-- What is not there does not come back unless it is put in. -/
theorem get?_perform_eq_none (h : Members.get? key s.entries = none)
    (hput : ∀ now e seconds, step ≠ .put now key e seconds) :
    Members.get? key (s.perform step).entries = none := by
  cases step with
  | look =>
    rw [perform]
    split <;> exact h
  | remove other =>
    rw [perform]
    split
    next => simp [MemoryStore.drop, Members.get?_erase, h]
    next => exact h
  | put now other e seconds =>
    have hother : other ≠ key := by
      rintro rfl
      exact hput now e seconds rfl
    simp [perform, MemoryStore.put, Members.get?_insert, hother, h]
  | sweep => exact Members.get?_filter_eq_none h _

/-- An entry is still there after a step before it expires, unless a reader removes its key. -/
theorem get?_perform (h : Members.get? key s.entries = some entry)
    (hstep : step.Precedes key entry) : Members.get? key (s.perform step).entries =
      if key ∈ s.removals ∧ step.removes key = true then none else some entry := by
  cases step with
  | look =>
    rw [if_neg (by simp [StoreStep.removes]), perform]
    split <;> exact h
  | remove other =>
    by_cases hother : other = key
    · subst hother
      by_cases hdue : other ∈ s.removals <;>
        simp [perform, StoreStep.removes, hdue, h, MemoryStore.drop, Members.get?_erase]
    · rw [if_neg (by simp [StoreStep.removes, hother]), perform]
      split
      next => simp [MemoryStore.drop, Members.get?_erase, hother, h]
      next => exact h
  | put now other e seconds =>
    have hother : other ≠ key := by
      rintro rfl
      exact hstep.unreplaced now e seconds rfl
    simp [perform, StoreStep.removes, MemoryStore.put, Members.get?_insert, hother, h]
  | sweep now =>
    have hlive : entry.isExpired now = false := hstep.unexpired now rfl
    rw [if_neg (by simp [StoreStep.removes])]
    exact Members.get?_filter h (by simp [hlive])

/-- As long as an entry has not expired, no reader decides to remove its key, and none but the one
that removes it has it behind it. -/
theorem mem_removals_perform (h : Members.get? key s.entries = some entry)
    (hstep : step.Precedes key entry) (hkept : ¬ (key ∈ s.removals ∧ step.removes key = true)) :
    key ∈ (s.perform step).removals ↔ key ∈ s.removals := by
  cases step with
  | look now other =>
    rw [perform]
    split
    next hlook =>
      have hother : key ≠ other := by
        rintro rfl
        simp [MemoryStore.look_of_some h (hstep.unexpired now rfl)] at hlook
      simp [hother]
    next => exact Iff.rfl
    next => exact Iff.rfl
  | remove other =>
    rw [perform]
    split
    next hdue =>
      have hother : key ≠ other := by
        rintro rfl
        exact hkept ⟨hdue, StoreStep.removes_eq_true.mpr rfl⟩
      exact List.mem_erase_of_ne hother
    next => exact Iff.rfl
  | put | sweep => exact Iff.rfl

/-! ## Any number of steps -/

theorem get?_performAll_eq_none (h : Members.get? key s.entries = none) {steps : List StoreStep}
    (hput : ∀ step ∈ steps, ∀ now e seconds, step ≠ .put now key e seconds) :
    Members.get? key (s.performAll steps).entries = none := by
  induction steps generalizing s with
  | nil => exact h
  | cons step rest ih =>
    obtain ⟨hfirst, hrest⟩ := List.forall_mem_cons.mp hput
    exact ih (get?_perform_eq_none h hfirst) hrest

/-- **An entry stays until it expires or is replaced, exactly if no reader removes its key** that
had already looked when the entry was put in. -/
theorem get?_performAll (h : Members.get? key s.entries = some entry) {steps : List StoreStep}
    (hsteps : ∀ step ∈ steps, step.Precedes key entry) :
    Members.get? key (s.performAll steps).entries =
      if key ∈ s.removals ∧ steps.any (StoreStep.removes key) = true then none else some entry := by
  induction steps generalizing s with
  | nil => simpa [performAll] using h
  | cons step rest ih =>
    obtain ⟨hfirst, hrest⟩ := List.forall_mem_cons.mp hsteps
    have hafter := get?_perform h hfirst
    by_cases hremoved : key ∈ s.removals ∧ step.removes key = true
    · rw [if_pos hremoved] at hafter
      have hany : (step :: rest).any (StoreStep.removes key) = true := by simp [hremoved.2]
      rw [if_pos ⟨hremoved.1, hany⟩]
      exact get?_performAll_eq_none hafter fun step hstep => (hrest step hstep).unreplaced
    · rw [if_neg hremoved] at hafter
      have hremovals := mem_removals_perform h hfirst hremoved
      have hany : key ∈ s.removals ∧ (step :: rest).any (StoreStep.removes key) = true ↔
          key ∈ (s.perform step).removals ∧ rest.any (StoreStep.removes key) = true := by
        rw [hremovals, List.any_cons, Bool.or_eq_true]
        refine and_congr_right fun hdue => or_iff_right fun hremoves => ?_
        exact hremoved ⟨hdue, hremoves⟩
      rw [performAll_cons, ih hafter hrest]
      simp only [hany]

/-! ## Getting what was put in -/

/-- **What a reader gets of an execution before it expires or is replaced**, whatever was in the
store when the execution was put in, and however readers, writers and sweeps have taken turns since.
It gets nothing exactly if a reader that had found an older entry under the key expired has removed
the key since. Otherwise it gets what the snapshot of the execution reads as. -/
theorem get_after_put (s : SharedStore) (now : Nat) (key : String) (e : Execution) (seconds : Nat)
    {steps : List StoreStep}
    (hsteps : ∀ step ∈ steps,
      step.Precedes key ⟨.ofExecution e, MemoryStore.expiry now seconds⟩)
    {later : Nat} (hlater :
      MemoryEntry.isExpired ⟨.ofExecution e, MemoryStore.expiry now seconds⟩ later = false) :
    (MemoryStore.get ((s.perform (.put now key e seconds)).performAll steps).entries later key).1 =
      if key ∈ s.removals ∧ steps.any (StoreStep.removes key) = true then .ok none
      else (Snapshot.ofExecution e).read.map some := by
  have hput : Members.get? key (s.perform (.put now key e seconds)).entries =
      some ⟨.ofExecution e, MemoryStore.expiry now seconds⟩ := by
    simp [perform, MemoryStore.put, Members.get?_insert]
  have hentry : Members.get? key ((s.perform (.put now key e seconds)).performAll steps).entries =
      if key ∈ s.removals ∧ steps.any (StoreStep.removes key) = true then none
      else some ⟨.ofExecution e, MemoryStore.expiry now seconds⟩ := get?_performAll hput hsteps
  by_cases hremoved : key ∈ s.removals ∧ steps.any (StoreStep.removes key) = true
  · rw [if_pos hremoved] at hentry ⊢
    exact MemoryStore.get_of_none hentry
  · rw [if_neg hremoved] at hentry ⊢
    rw [MemoryStore.get_of_some hentry hlater]

/-- A reader looks, a sweep is made and an older entry under another key is removed: the execution
is still there a millisecond before it expires. -/
theorem kept_through_others :
    let e := Execution.create ⟨default, fun _ => default⟩ "welcome" none []
    let s := (ofStore []).performAll [.put 0 "other" e 0, .look 0 "other"]
    let steps : List StoreStep := [.look 2 "recent", .sweep 3, .remove "other"]
    let s' := (s.perform (.put 1 "recent" e 60)).performAll steps
    (s'.entries.get 60000 "recent").1 = (Snapshot.ofExecution e).read.map some := by
  intro e s steps s'
  have hsteps : ∀ step ∈ steps,
      step.Precedes "recent" ⟨.ofExecution e, MemoryStore.expiry 1 60⟩ := by
    simp only [steps, List.forall_mem_cons]
    exact ⟨⟨nofun, by rintro _ ⟨⟩; rfl⟩, ⟨nofun, by rintro _ ⟨⟩; rfl⟩, ⟨nofun, nofun⟩, nofun⟩
  have hlater : MemoryEntry.isExpired ⟨.ofExecution e, MemoryStore.expiry 1 60⟩ 60000 = false := rfl
  exact (get_after_put s 1 "recent" e 60 hsteps hlater).trans (if_neg (by decide))

/-- A reader finds an entry expired, a new execution is put under its key, and then the reader
removes the key: the next reader finds nothing, though the execution is to be kept for a minute. -/
theorem slow_reader_removes_fresh :
    let e := Execution.create ⟨default, fun _ => default⟩ "welcome" none []
    let s := (ofStore []).performAll
      [.put 0 "recent" e 0, .look 0 "recent", .put 1 "recent" e 60, .remove "recent"]
    (s.entries.get 2 "recent").1 = .ok none ∧
      MemoryEntry.isExpired ⟨.ofExecution e, MemoryStore.expiry 1 60⟩ 2 = false :=
  ⟨rfl, rfl⟩

end SharedStore

end Outreach
