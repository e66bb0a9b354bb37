import Outreach.Store.Basic

/-!
# A store in memory

Every access to the entries is one step: looking one up, putting one in, dropping one, counting
them, and sweeping out what has expired. Setting is one step, getting two, and purging three.
-/

namespace Outreach

/-- A snapshot and the time at which it expires; none where that lies beyond all clocks. -/
structure MemoryEntry where
  snapshot : Snapshot
  expiresAt : Option Nat
  deriving DecidableEq, Repr

namespace MemoryEntry

/-- Whether an entry has expired. -/
def isExpired (entry : MemoryEntry) (now : Nat) : Bool :=
  entry.expiresAt.any fun due => due ≤ now

end MemoryEntry

/-- A store in memory. -/
abbrev MemoryStore := Members MemoryEntry

namespace MemoryStore

/-- The number of seconds that the clock can count. -/
def clockLimit : Nat := Nat.pow 2 63

/-- The time at which something expires that is kept for a number of seconds. -/
def expiry (now seconds : Nat) : Option Nat :=
  let due := now + seconds * 1000
  if due / 1000 < clockLimit then some due else none

/-- What a look at an entry finds. -/
inductive Look where
  | missing
  | expired
  | live (snapshot : Snapshot)
  deriving DecidableEq, Repr

/-- Looks an entry up. -/
def look (store : MemoryStore) (now : Nat) (key : String) : Look :=
  match Members.get? key store with
  | none => .missing
  | some entry => if entry.isExpired now then .expired else .live entry.snapshot

/-- Puts an entry in. -/
def put (store : MemoryStore) (now : Nat) (key : String) (e : Execution) (seconds : Nat) :
    MemoryStore :=
  Members.insert key ⟨.ofExecution e, expiry now seconds⟩ store

/-- Drops an entry. -/
def drop (store : MemoryStore) (key : String) : MemoryStore :=
  Members.erase key store

/-- Drops every entry that has expired. -/
def sweep (store : MemoryStore) (now : Nat) : MemoryStore :=
  store.filter fun entry => !entry.2.isExpired now

/-- Keeps an execution under a key for a number of seconds. -/
def set (store : MemoryStore) (now : Nat) (key : String) (e : Execution) (seconds : Nat) :
    Except StoreFault Unit × MemoryStore :=
  (.ok (), store.put now key e seconds)

/-- The execution under a key; an entry that has expired is dropped. -/
def get (store : MemoryStore) (now : Nat) (key : String) :
    Except StoreFault (Option Execution) × MemoryStore :=
  match store.look now key with
  | .missing => (.ok none, store)
  | .expired => (.ok none, store.drop key)
  | .live snapshot => (snapshot.read.map some, store)

/-- Drops what has expired, and says how many entries fewer there are. -/
def purge (store : MemoryStore) (now : Nat) : Nat × MemoryStore :=
  let swept := store.sweep now
  (store.length - swept.length, swept)

variable {store : MemoryStore} {now : Nat} {key : String} {entry : MemoryEntry}

theorem look_of_none (h : Members.get? key store = none) : store.look now key = .missing := by
  rw [look, h]

theorem look_of_some (h : Members.get? key store = some entry)
    (hlive : entry.isExpired now = false) : store.look now key = .live entry.snapshot := by
  rw [look, h]
  simp [hlive]

/-- A reader gets nothing where nothing is. -/
theorem get_of_none (h : Members.get? key store = none) : (store.get now key).1 = .ok none := by
  rw [get, look_of_none h]

/-- A reader gets what the snapshot of an entry reads as that has not expired. -/
theorem get_of_some (h : Members.get? key store = some entry)
    (hlive : entry.isExpired now = false) :
    (store.get now key).1 = entry.snapshot.read.map some := by
  rw [get, look_of_some h hlive]

/-- A store in memory as runs use it. -/
def access : StoreAccess MemoryStore where
  set := set
  get := get

end MemoryStore

end Outreach
