import Outreach.Store.Memory
import Outreach.Store.Table

/-!
# What a store hands out

A store hands out under a key only what an execution reads as that was put under this key, and
reading brings nothing new into it. `StoreAccess.Recalls` states this for any store by what its
states hold; the store in memory and the table both recall.
-/

namespace Outreach

/-- A store that hands out only what it holds. It holds under a key what an execution reads as that
was put there, and nothing else. -/
structure StoreAccess.Recalls {σ : Type} (access : StoreAccess σ)
    (holds : σ → String → Execution → Prop) : Prop where
  handed : ∀ {store : σ} {now : Nat} {key : String} {e : Execution},
    (access.get store now key).1 = .ok (some e) → holds store key e
  get : ∀ {store : σ} {now : Nat} {key other : String} {e : Execution},
    holds (access.get store now key).2 other e → holds store other e
  set : ∀ {store : σ} {now : Nat} {key : String} {saved : Execution} {seconds : Nat}
    {other : String} {e : Execution}, holds (access.set store now key saved seconds).2 other e →
      holds store other e ∨ (other = key ∧ (Snapshot.ofExecution saved).read = .ok e)

theorem Snapshot.read_of_map_some {snapshot : Snapshot} {e : Execution}
    (h : snapshot.read.map some = .ok (some e)) : snapshot.read = .ok e := by
  cases hread : snapshot.read with
  | error => simp [hread, Except.map] at h
  | ok found =>
    rw [hread] at h
    exact congrArg Except.ok (Option.some.inj (Except.ok.inj h))

namespace MemoryStore

/-- The execution that the entry under a key reads as, expired or not. -/
def Holds (store : MemoryStore) (key : String) (e : Execution) : Prop :=
  ∃ entry, Members.get? key store = some entry ∧ entry.snapshot.read = .ok e

theorem recalls : access.Recalls Holds where
  handed {store now key e} h := by
    have h : (store.get now key).1 = .ok (some e) := h
    unfold get look at h
    cases hentry : Members.get? key store with
    | none => simp [hentry] at h
    | some entry =>
      rw [hentry] at h
      by_cases hexpired : entry.isExpired now = true
      · simp [hexpired] at h
      · simp only [hexpired] at h
        exact ⟨entry, hentry, Snapshot.read_of_map_some h⟩
  get {store now key other e} h := by
    obtain ⟨entry, hentry, hread⟩ := h
    have hentry : Members.get? other (store.get now key).2 = some entry := hentry
    refine ⟨entry, ?_, hread⟩
    unfold get at hentry
    split at hentry
    next => exact hentry
    next =>
      rw [drop, Members.get?_erase] at hentry
      exact (Option.ite_none_left_eq_some.mp hentry).2
    next => exact hentry
  set {store now key saved seconds other e} h := by
    obtain ⟨entry, hentry, hread⟩ := h
    have hentry : Members.get? other (store.put now key saved seconds) = some entry := hentry
    rw [put, Members.get?_insert] at hentry
    split at hentry
    next hsame =>
      obtain rfl := Option.some.inj hentry
      exact .inr ⟨hsame.symm, hread⟩
    next => exact .inl ⟨entry, hentry, hread⟩

end MemoryStore

namespace TableStore

/-- The execution that a row with a key reads as, expired or not. -/
def Holds (store : TableStore) (key : String) (e : Execution) : Prop :=
  ∃ row ∈ store, row.key = key ∧ row.snapshot.read = .ok e

/-- A row that is put into the table, or one that it renews, has its key and its snapshot. -/
theorem mem_upsert {new row : SnapshotRow} {store : TableStore} (h : row ∈ upsert new store) :
    row ∈ store ∨ (row.key = new.key ∧ row.snapshot = new.snapshot) := by
  induction store with
  | nil =>
    rw [List.mem_singleton.mp h]
    exact .inr ⟨rfl, rfl⟩
  | cons old rest ih =>
    rw [upsert] at h
    split at h
    next hkey =>
      rcases List.mem_cons.mp h with rfl | h
      · exact .inr ⟨hkey, rfl⟩
      · exact .inl (List.mem_cons_of_mem _ h)
    next =>
      rcases List.mem_cons.mp h with rfl | h
      · exact .inl List.mem_cons_self
      · exact (ih h).imp_left (List.mem_cons_of_mem _)

theorem recalls (calendar : Nat → Instant) : (access calendar).Recalls Holds where
  handed {store now key e} h := by
    have h : store.get now key = .ok (some e) := h
    unfold get at h
    split at h
    next => cases h
    next row hrow =>
      have hkey : row.key = key := by
        have hfound := List.find?_some hrow
        simp only [Bool.and_eq_true, beq_iff_eq] at hfound
        exact hfound.1
      exact ⟨row, List.mem_of_find?_eq_some hrow, hkey, Snapshot.read_of_map_some h⟩
  get h := h
  set {store now key saved seconds other e} h := by
    obtain ⟨row, hrow, hkey, hread⟩ := h
    rcases mem_upsert hrow with hrow | ⟨hsame, hsnapshot⟩
    · exact .inl ⟨row, hrow, hkey, hread⟩
    · rw [hsnapshot] at hread
      exact .inr ⟨hkey.symm.trans hsame, hread⟩

end TableStore

end Outreach
