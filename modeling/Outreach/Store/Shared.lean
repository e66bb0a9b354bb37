import Outreach.Store.Memory

/-!
# A store that many use at once

Those who use a store in memory take turns after every single access to its entries. A reader that
found an entry expired removes its key in a second step. Others may come in between, and what lies
under the key by then is removed, whatever it is. A purge counts the entries, sweeps, and counts them
again. What it says to have dropped is the difference, whatever others have done in the meantime.
-/

namespace Outreach

/-- One access to the entries of a store that many use. -/
inductive StoreStep where
  /-- A reader looks an entry up. -/
  | look (now : Nat) (key : String)
  /-- A reader that found an entry expired removes its key. -/
  | remove (key : String)
  /-- A writer puts an execution in, to be kept for a number of seconds. -/
  | put (now : Nat) (key : String) (e : Execution) (seconds : Nat)
  /-- What had expired at a time is swept out. -/
  | sweep (now : Nat)

namespace StoreStep

/-- Whether a step removes a key. -/
def removes (key : String) : StoreStep → Bool
  | remove other => other == key
  | _ => false

end StoreStep

/-- A purge among others who use a store: the time that it goes by, what they do between its first
count and its sweep, and what they do between its sweep and its second count. -/
structure Purge where
  now : Nat
  early : List StoreStep
  late : List StoreStep

/-- What a purge does and sees. -/
structure PurgeRecord where
  /-- The number of entries at its first count. -/
  before : Nat
  /-- The number of entries that its sweep drops. -/
  dropped : Nat
  /-- The number of entries at its second count. -/
  after : Nat

namespace PurgeRecord

/-- The number of entries that a purge says to have dropped; none where its subtraction would go
below zero. -/
def count? (r : PurgeRecord) : Option Nat :=
  if r.after ≤ r.before then some (r.before - r.after) else none

end PurgeRecord

/-- A store in memory, and the keys that readers who found them expired have yet to remove. -/
structure SharedStore where
  entries : MemoryStore
  removals : List String

namespace SharedStore

/-- A store that nobody is using. -/
def ofStore (store : MemoryStore) : SharedStore :=
  ⟨store, []⟩

/-- What a step does. Only a reader that has looked can remove a key. -/
def perform (s : SharedStore) : StoreStep → SharedStore
  | .look now key =>
    match s.entries.look now key with
    | .expired => { s with removals := key :: s.removals }
    | .missing | .live _ => s
  | .remove key =>
    if key ∈ s.removals then ⟨s.entries.drop key, s.removals.erase key⟩ else s
  | .put now key e seconds => { s with entries := s.entries.put now key e seconds }
  | .sweep now => { s with entries := s.entries.sweep now }

/-- What steps do one after the other. -/
def performAll (s : SharedStore) (steps : List StoreStep) : SharedStore :=
  steps.foldl perform s

theorem performAll_cons (s : SharedStore) (step : StoreStep) (rest : List StoreStep) :
    s.performAll (step :: rest) = (s.perform step).performAll rest := rfl

/-- The store as a purge has left it when it has swept. -/
def swept (s : SharedStore) (p : Purge) : SharedStore :=
  (s.performAll p.early).perform (.sweep p.now)

/-- What a purge does and sees that begins now. -/
def purge (s : SharedStore) (p : Purge) : PurgeRecord where
  before := s.entries.length
  dropped := (s.performAll p.early).entries.countP fun entry => entry.2.isExpired p.now
  after := ((s.swept p).performAll p.late).entries.length

/-- A reader that nobody comes in between gets what is there. -/
theorem entries_get (store : MemoryStore) (now : Nat) (key : String) :
    ((ofStore store).performAll [.look now key, .remove key]).entries = (store.get now key).2 := by
  unfold MemoryStore.get
  split <;> next h => simp [performAll, perform, ofStore, h]

theorem entries_set (store : MemoryStore) (now : Nat) (key : String) (e : Execution)
    (seconds : Nat) :
    ((ofStore store).perform (.put now key e seconds)).entries =
      (store.set now key e seconds).2 := rfl

theorem entries_purge (store : MemoryStore) (now : Nat) :
    ((ofStore store).perform (.sweep now)).entries = (store.purge now).2 := rfl

/-- A purge that nobody comes in between says what the purge of the store itself says. -/
theorem count?_purge (store : MemoryStore) (now : Nat) :
    ((ofStore store).purge ⟨now, [], []⟩).count? = some (store.purge now).1 :=
  if_pos (List.length_filter_le _ store)

end SharedStore

end Outreach
