import Outreach.Proofs.Json.Members
import Outreach.Store.Shared

/-!
# What a purge counts

A purge of a shared store takes the difference of two counts for the number of entries that it has
dropped. What others put in or take out between the two counts goes into the difference as well:
`SharedStore.count?_purge_iff` says exactly when the purge is right about its own sweep, and when its
subtraction goes below zero. `SharedStore.purge_miscounts` is a purge that does, and one that says
that it has dropped nothing though it has.
-/

namespace Outreach

namespace SharedStore

variable {s : SharedStore}

/-! ## Coming and going -/

/-- The number of entries that a step adds: one if it puts an execution under a key that had none. -/
def arrivals (s : SharedStore) : StoreStep → Nat
  | .put _ key _ _ => if Members.has s.entries key then 0 else 1
  | .look _ _ | .remove _ | .sweep _ => 0

/-- The number of entries that a step takes away: the one that a reader removes, or those that have
expired. -/
def departures (s : SharedStore) : StoreStep → Nat
  | .remove key => if key ∈ s.removals ∧ Members.has s.entries key = true then 1 else 0
  | .sweep now => s.entries.countP fun entry => entry.2.isExpired now
  | .look _ _ | .put _ _ _ _ => 0

/-- What is counted at every one of several steps, added up. -/
def total (count : SharedStore → StoreStep → Nat) (s : SharedStore) : List StoreStep → Nat
  | [] => 0
  | step :: rest => count s step + total count (s.perform step) rest

/-- What is counted at the steps of others between the two counts of a purge, added up. -/
def meanwhile (count : SharedStore → StoreStep → Nat) (s : SharedStore) (p : Purge) : Nat :=
  total count s p.early + total count (s.swept p) p.late

/-- A step keeps the entries in order. -/
theorem isAscending_perform (h : Members.IsAscending s.entries) (step : StoreStep) :
    Members.IsAscending (s.perform step).entries := by
  cases step with
  | look now key =>
    rw [perform]
    split <;> exact h
  | remove key =>
    rw [perform]
    split
    next => exact h.erase key
    next => exact h
  | put now key e seconds => exact h.insert key _
  | sweep now => exact h.filter _

theorem isAscending_performAll (h : Members.IsAscending s.entries) (steps : List StoreStep) :
    Members.IsAscending (s.performAll steps).entries := by
  induction steps generalizing s with
  | nil => exact h
  | cons step rest ih => exact ih (isAscending_perform h step)

/-- What has expired is counted as swept. -/
theorem length_sweep (store : MemoryStore) (now : Nat) :
    (store.sweep now).length + store.countP (fun entry => entry.2.isExpired now) =
      store.length := by
  have hsplit := List.length_eq_countP_add_countP (l := store) fun entry => entry.2.isExpired now
  have hkept : (store.sweep now).length = store.countP fun entry => !entry.2.isExpired now :=
    List.countP_eq_length_filter.symm
  simp only [Bool.not_eq_true, Bool.decide_eq_false] at hsplit
  omega

/-- A step changes the number of entries by what it adds and what it takes away. -/
theorem length_perform (h : Members.IsAscending s.entries) (step : StoreStep) :
    (s.perform step).entries.length + s.departures step = s.entries.length + s.arrivals step := by
  cases step with
  | look now key =>
    rw [perform]
    split <;> rfl
  | remove key =>
    have herase := h.length_erase key
    rw [perform, departures, arrivals]
    split
    next hdue =>
      simp only [hdue, true_and, MemoryStore.drop]
      exact herase
    next hnot => simp [hnot]
  | put now key e seconds => exact h.length_insert key _
  | sweep now => exact length_sweep s.entries now

theorem length_performAll (h : Members.IsAscending s.entries) (steps : List StoreStep) :
    (s.performAll steps).entries.length + total departures s steps =
      s.entries.length + total arrivals s steps := by
  induction steps generalizing s with
  | nil => rfl
  | cons step rest ih =>
    have hstep := length_perform h step
    have hrest := ih (isAscending_perform h step)
    rw [performAll_cons, total, total]
    omega

end SharedStore

/-! ## The difference of the two counts -/

namespace PurgeRecord

variable {r : PurgeRecord} {n : Nat}

theorem count?_eq_some_iff : r.count? = some n ↔ r.after + n = r.before := by
  rw [count?, Option.ite_none_right_eq_some, Option.some_inj]
  omega

theorem count?_eq_none_iff : r.count? = none ↔ r.before < r.after := by
  rw [count?, ite_eq_right_iff]
  simp

end PurgeRecord

namespace SharedStore

variable {s : SharedStore}

/-- What a purge drops and what others take away is what is missing in the end, apart from what has
come in. -/
theorem after_purge (h : Members.IsAscending s.entries) (p : Purge) :
    (s.purge p).after + (s.purge p).dropped + s.meanwhile departures p =
      (s.purge p).before + s.meanwhile arrivals p := by
  have hready := isAscending_performAll h p.early
  have hearly := length_performAll h p.early
  have hsweep := length_perform hready (.sweep p.now)
  have hlate := length_performAll (isAscending_perform hready (.sweep p.now)) p.late
  simp only [purge, meanwhile, swept, departures, arrivals] at hsweep hlate ⊢
  omega

/-- **When a purge is right about what it has dropped**, whatever has happened to the store before it
and whatever others do in between its steps: exactly if as many entries have come in between its two
counts as others have taken away. What it says is too low by those that have come in and too high by
those that others have taken away; its subtraction goes below zero exactly if more have come in than
it has dropped and others have taken away. -/
theorem count?_purge_iff (history : List StoreStep) (p : Purge) :
    let s := (ofStore []).performAll history
    ((s.purge p).count? = some (s.purge p).dropped ↔
        s.meanwhile arrivals p = s.meanwhile departures p) ∧
      ((s.purge p).count? = none ↔
        (s.purge p).dropped + s.meanwhile departures p < s.meanwhile arrivals p) ∧
      ∀ n, (s.purge p).count? = some n ↔
        n + s.meanwhile arrivals p = (s.purge p).dropped + s.meanwhile departures p := by
  intro s
  have hempty : Members.IsAscending (ofStore []).entries := Members.isAscending_nil
  have hs : Members.IsAscending s.entries := isAscending_performAll hempty history
  have hafter := after_purge hs p
  refine ⟨?_, ?_, fun n => ?_⟩
  · rw [PurgeRecord.count?_eq_some_iff]
    omega
  · rw [PurgeRecord.count?_eq_none_iff]
    omega
  · rw [PurgeRecord.count?_eq_some_iff]
    omega

/-- An execution is put into an empty store after a purge has counted it for the first time: the
subtraction goes below zero. Another is put in after a purge has dropped an older one: the purge says
that it has dropped nothing. -/
theorem purge_miscounts :
    let e := Execution.create ⟨default, fun _ => default⟩ "welcome" none []
    let put (key : String) (seconds : Nat) := StoreStep.put 0 key e seconds
    let hasty := (ofStore []).purge ⟨0, [put "recent" 60], []⟩
    let slow := ((ofStore []).performAll [put "old" 0]).purge ⟨0, [], [put "recent" 60]⟩
    (hasty.count? = none ∧ hasty.dropped = 0) ∧ slow.count? = some 0 ∧ slow.dropped = 1 :=
  ⟨⟨rfl, rfl⟩, rfl, rfl⟩

end SharedStore

end Outreach
