import Mathlib.Data.List.Induction
import Outreach.Proofs.Json.Members
import Outreach.Store.Memory
import Outreach.Store.Table

/-!
# The store in memory and the table agree

The two stores keep time in different ways: the one in memory drops what a reader finds expired and
knows times beyond all clocks, the table compares with a column that holds no more than
`TableStore.columnLimit`. Asked the same at the same times, they answer the same all the same
(`StoreCall.answered_alike`): the snapshot that was set last under a key, until its time is over.

What a store holds is seen through `Held`, one step is described by `StoreCall.Turns`, and what both
stores have in common after any number of steps is `StoreCall.Tells`.
-/

namespace Outreach

/-- Something that is asked of a store. A table also notes when it was written. -/
inductive StoreOrder where
  | set (written : Instant) (key : String) (e : Execution) (seconds : Nat)
  | get (key : String)
  | purge

/-- An order, and the time at which it is given. -/
structure StoreCall where
  now : Nat
  order : StoreOrder

/-- An execution that was set at a time, to be kept for a number of seconds. -/
structure Deposit where
  setAt : Nat
  execution : Execution
  seconds : Nat

/-- The time at which the execution is no longer to be seen. -/
def Deposit.due (d : Deposit) : Nat :=
  d.setAt + d.seconds * 1000

namespace StoreCall

/-- What a call sets under a key. -/
def deposit? (key : String) (c : StoreCall) : Option Deposit :=
  match c.order with
  | .set _ other e seconds => if other = key then some ⟨c.now, e, seconds⟩ else none
  | .get _ | .purge => none

/-- What calls set last under a key. -/
def lastDeposit? (calls : List StoreCall) (key : String) : Option Deposit :=
  calls.reverse.findSome? (deposit? key)

/-- What a reader is to get after calls: what was set last, as it reads, unless its time is over. -/
def answer (calls : List StoreCall) (now : Nat) (key : String) :
    Except StoreFault (Option Execution) :=
  match lastDeposit? calls key with
  | some d => if now < d.due then (Snapshot.ofExecution d.execution).read.map some else .ok none
  | none => .ok none

theorem lastDeposit?_concat (calls : List StoreCall) (c : StoreCall) (key : String) :
    lastDeposit? (calls ++ [c]) key = (c.deposit? key).or (lastDeposit? calls key) := by
  rw [lastDeposit?, List.reverse_append]
  cases h : c.deposit? key <;> simp [h, lastDeposit?]

/-- A purge sets nothing. -/
theorem lastDeposit?_purge (before after : List StoreCall) (now : Nat) (key : String) :
    lastDeposit? (before ++ ⟨now, .purge⟩ :: after) key = lastDeposit? (before ++ after) key := by
  have hpurge : deposit? key ⟨now, .purge⟩ = none := rfl
  simp [lastDeposit?, List.findSome?_append, hpurge]

end StoreCall

/-- A store after one more call. -/
def MemoryStore.serve (store : MemoryStore) (c : StoreCall) : MemoryStore :=
  match c.order with
  | .set _ key e seconds => (store.set c.now key e seconds).2
  | .get key => (store.get c.now key).2
  | .purge => (store.purge c.now).2

@[inherit_doc MemoryStore.serve]
def TableStore.serve (store : TableStore) (c : StoreCall) : TableStore :=
  match c.order with
  | .set written key e seconds => store.set c.now written key e seconds
  | .get _ => store
  | .purge => (store.purge c.now).2

/-! ## What a store holds -/

/-- What a store holds under a key: a snapshot, and whether its time is over. -/
structure Held where
  snapshot : Snapshot
  isOver : Nat → Bool

namespace Held

/-- It is what was set, on a clock that stays below what a column holds. -/
structure Shows (held : Held) (d : Deposit) : Prop where
  snapshot : held.snapshot = .ofExecution d.execution
  isOver : ∀ now < TableStore.columnLimit, held.isOver now = decide (d.due ≤ now)

/-- What a reader gets of it. -/
def answer (held : Option Held) (now : Nat) : Except StoreFault (Option Execution) :=
  match held with
  | some h => if h.isOver now then .ok none else h.snapshot.read.map some
  | none => .ok none

end Held

namespace StoreCall

/-- How a call may change what a store holds: it brings what it sets, and what it does not set stays
as it is or goes when its time is over. -/
def Turns (c : StoreCall) (before after : String → Option Held) : Prop :=
  ∀ key, match c.deposit? key with
    | some d => ∃ held, after key = some held ∧ held.Shows d
    | none => after key = before key ∨
      (after key = none ∧ ∀ held, before key = some held → held.isOver c.now = true)

/-- What a store holds after calls: what was set last, if it has not gone when its time was over. -/
def Tells (calls : List StoreCall) (now : Nat) (holds : String → Option Held) : Prop :=
  ∀ key, match lastDeposit? calls key with
    | some d => (∃ held, holds key = some held ∧ held.Shows d) ∨ (holds key = none ∧ d.due ≤ now)
    | none => holds key = none

variable {calls : List StoreCall} {c : StoreCall} {now later : Nat}
  {holds before after : String → Option Held}

/-- What is over stays over. -/
theorem Tells.mono (h : Tells calls now holds) (hle : now ≤ later) : Tells calls later holds := by
  intro key
  have hkey := h key
  split at hkey
  next => exact hkey.imp_right fun hgone => ⟨hgone.1, Nat.le_trans hgone.2 hle⟩
  next => exact hkey

/-- One step: a store still tells what was set last after one more call. -/
theorem Tells.concat (h : Tells calls c.now before) (hc : c.Turns before after)
    (hlimit : c.now < TableStore.columnLimit) : Tells (calls ++ [c]) c.now after := by
  intro key
  have hkey := h key
  have hturns := hc key
  rw [lastDeposit?_concat]
  cases hset : c.deposit? key with
  | some d =>
    -- Whatever was there is replaced.
    rw [hset] at hturns
    exact .inl hturns
  | none =>
    -- What was set last stays what it was, and may go only if it is over by now.
    rw [hset] at hturns
    rw [Option.none_or]
    cases hlast : lastDeposit? calls key with
    | none =>
      rw [hlast] at hkey
      exact hturns.elim (·.trans hkey) And.left
    | some d =>
      rw [hlast] at hkey
      rcases hkey with ⟨held, hheld, hshows⟩ | ⟨hgone, hdue⟩
      · refine hturns.imp (fun hsame => ⟨held, hsame.trans hheld, hshows⟩) fun hdropped => ?_
        have hover : decide (d.due ≤ c.now) = true :=
          (hshows.isOver c.now hlimit).symm.trans (hdropped.2 held hheld)
        exact ⟨hdropped.1, of_decide_eq_true hover⟩
      · exact .inr ⟨hturns.elim (·.trans hgone) And.left, hdue⟩

/-- A reader of a store that tells what was set last gets what it is to get. -/
theorem Tells.answer_eq (h : Tells calls now holds) (hlimit : now < TableStore.columnLimit)
    (key : String) : Held.answer (holds key) now = answer calls now key := by
  have hkey := h key
  unfold StoreCall.answer
  cases hlast : lastDeposit? calls key with
  | none =>
    rw [hlast] at hkey
    rw [hkey, Held.answer]
  | some d =>
    rw [hlast] at hkey
    rcases hkey with ⟨held, hheld, hshows⟩ | ⟨hgone, hdue⟩
    · have hover : held.isOver now = !decide (now < d.due) := by
        simp [hshows.isOver now hlimit, ← decide_not]
      by_cases hlive : now < d.due <;> simp [hheld, Held.answer, hover, hlive, hshows.snapshot]
    · simp [hgone, Held.answer, Nat.not_lt.mpr hdue]

section serve

variable {σ : Type} {serve : σ → StoreCall → σ} {holds : σ → String → Option Held}
  {Sound : σ → Prop}

/-- How a store serves calls: it stays sound, and what it holds changes as calls may change it. -/
def Serves (serve : σ → StoreCall → σ) (holds : σ → String → Option Held) (Sound : σ → Prop) :
    Prop :=
  ∀ store c, Sound store → Sound (serve store c) ∧ c.Turns (holds store) (holds (serve store c))

/-- A store stays sound. -/
theorem Serves.sound_foldl (hserve : Serves serve holds Sound) {store : σ} (h : Sound store)
    (calls : List StoreCall) : Sound (calls.foldl serve store) := by
  induction calls generalizing store with
  | nil => exact h
  | cons c rest ih => exact ih (hserve store c h).1

/-- All steps: a store that starts empty tells what was set last. -/
theorem Serves.tells_foldl (hserve : Serves serve holds Sound) {start : σ} (hstart : Sound start)
    (hempty : ∀ key, holds start key = none)
    (hordered : calls.Pairwise fun c d => c.now ≤ d.now) (hnow : ∀ c ∈ calls, c.now ≤ now)
    (hlimit : now < TableStore.columnLimit) : Tells calls now (holds (calls.foldl serve start)) := by
  induction calls using List.reverseRecOn generalizing now with
  | nil => exact hempty
  | append_singleton calls c ih =>
    obtain ⟨hcalls, -, hlast⟩ := List.pairwise_append.mp hordered
    have hc : c.now ≤ now := hnow c (by simp)
    have hclimit : c.now < TableStore.columnLimit := Nat.lt_of_le_of_lt hc hlimit
    have htells := ih hcalls (fun d hd => hlast d hd c (by simp)) hclimit
    obtain ⟨-, hturns⟩ := hserve _ c (hserve.sound_foldl hstart calls)
    rw [List.foldl_append, List.foldl_cons, List.foldl_nil]
    exact (htells.concat hturns hclimit).mono hc

end serve

end StoreCall

/-! ## The store in memory -/

namespace MemoryStore

variable {store : MemoryStore} {now : Nat} {key : String}

/-- What is held under a key. -/
def held? (store : MemoryStore) (key : String) : Option Held :=
  (Members.get? key store).map fun entry => ⟨entry.snapshot, entry.isExpired⟩

theorem isExpired_expiry (snapshot : Snapshot) (setAt seconds : Nat) {now : Nat}
    (hlimit : now < TableStore.columnLimit) :
    MemoryEntry.isExpired ⟨snapshot, expiry setAt seconds⟩ now =
      decide (setAt + seconds * 1000 ≤ now) := by
  unfold MemoryEntry.isExpired expiry
  dsimp only
  split
  next => rfl
  next hbeyond =>
    simp only [clockLimit, TableStore.columnLimit, Nat.pow_eq] at hbeyond hlimit
    simp only [Option.any_none, Bool.false_eq, decide_eq_false_iff_not]
    omega

theorem answer_held? (store : MemoryStore) (now : Nat) (key : String) :
    (store.get now key).1 = Held.answer (store.held? key) now := by
  unfold get look held?
  cases Members.get? key store with
  | none => rfl
  | some entry => cases h : entry.isExpired now <;> simp [Held.answer, h]

/-- What a sieve drops has expired. -/
theorem held?_sweep (h : Members.IsAscending store) (now : Nat) (key : String) :
    (store.sweep now).held? key = store.held? key ∨ ((store.sweep now).held? key = none ∧
      ∀ held, store.held? key = some held → held.isOver now = true) := by
  unfold sweep held?
  rw [h.get?_filter]
  cases Members.get? key store with
  | none => exact .inl rfl
  | some entry =>
    rw [Option.filter_some]
    cases hexpired : entry.isExpired now with
    | false => exact .inl rfl
    | true =>
      refine .inr ⟨rfl, ?_⟩
      rintro held ⟨⟩
      exact hexpired

theorem held?_drop (hexpired : store.look now key = .expired) (other : String) :
    (store.drop key).held? other = store.held? other ∨ ((store.drop key).held? other = none ∧
      ∀ held, store.held? other = some held → held.isOver now = true) := by
  unfold drop held?
  rw [Members.get?_erase]
  by_cases hkey : key = other
  · subst hkey
    rw [if_pos rfl]
    refine .inr ⟨rfl, ?_⟩
    unfold look at hexpired
    cases hentry : Members.get? key store with
    | none => exact nofun
    | some entry =>
      rintro held ⟨⟩
      by_contra hlive
      simp_all
  · rw [if_neg hkey]
    exact .inl rfl

/-- What a call does to the store in memory. -/
theorem serves : StoreCall.Serves serve held? Members.IsAscending := by
  intro store ⟨now, order⟩ h
  cases order with
  | set written key e seconds =>
    refine ⟨h.insert _ _, fun other => ?_⟩
    by_cases hkey : key = other
    · simp only [StoreCall.deposit?, if_pos hkey]
      let entry : MemoryEntry := ⟨.ofExecution e, expiry now seconds⟩
      refine ⟨⟨entry.snapshot, entry.isExpired⟩, ?_, rfl, fun t ht => isExpired_expiry _ _ _ ht⟩
      simp [entry, serve, set, put, held?, Members.get?_insert, hkey]
    · simp only [StoreCall.deposit?, if_neg hkey]
      exact .inl (by simp [serve, set, put, held?, Members.get?_insert, hkey])
  | get key =>
    unfold serve get
    dsimp only
    split
    next => exact ⟨h, fun _ => .inl rfl⟩
    next hexpired => exact ⟨h.erase key, held?_drop hexpired⟩
    next => exact ⟨h, fun _ => .inl rfl⟩
  | purge => exact ⟨h.filter _, held?_sweep h now⟩

end MemoryStore

/-! ## The table -/

namespace TableStore

variable {store : TableStore} {now : Nat} {key : String} {new : SnapshotRow}

/-- The row of a key. -/
def row? (store : TableStore) (key : String) : Option SnapshotRow :=
  store.find? fun row => row.key == key

/-- What is held under a key. -/
def held? (store : TableStore) (key : String) : Option Held :=
  (store.row? key).map fun row => ⟨row.snapshot, fun now => !isLive now row⟩

/-- Every key has one row. -/
def IsKeyed (store : TableStore) : Prop :=
  store.Pairwise fun a b => a.key ≠ b.key

theorem isLive_row (now : Nat) (written : Instant) (key : String) (e : Execution) (seconds : Nat)
    {later : Nat} (hlimit : later < columnLimit) :
    (!isLive later (row now written key e seconds)) =
      decide (now + seconds * 1000 ≤ later) := by
  have hcolumn : columnLimit ≤ Nat.pow 2 64 - 1 := by decide
  have hlive : later < expiry now seconds ↔ later < now + seconds * 1000 := by
    unfold expiry
    omega
  simp [isLive, row, hlive, ← decide_not]

theorem row?_cons (first : SnapshotRow) (rest : TableStore) (key : String) :
    row? (first :: rest) key = if first.key = key then some first else row? rest key := by
  by_cases h : first.key = key <;> simp [row?, h]

theorem row?_eq_none_iff : store.row? key = none ↔ ∀ row ∈ store, row.key ≠ key := by
  simp [row?]

/-- A key that is set has the row it had, renewed, or the new one. -/
theorem row?_upsert (new : SnapshotRow) (store : TableStore) :
    (upsert new store).row? new.key =
      some (((store.row? new.key).map (renew · new)).getD new) := by
  induction store with
  | nil => simp [upsert, row?]
  | cons first rest ih =>
    rw [upsert]
    split
    next hkey => simp [row?_cons, renew, hkey]
    next hkey => simpa [row?_cons, hkey] using ih

theorem row?_upsert_self (new : SnapshotRow) (store : TableStore) :
    ∃ row, (upsert new store).row? new.key = some row ∧ row.snapshot = new.snapshot ∧
      row.expiresAt = new.expiresAt := by
  refine ⟨_, row?_upsert new store, ?_⟩
  cases store.row? new.key <;> exact ⟨rfl, rfl⟩

theorem row?_upsert_of_ne (hkey : new.key ≠ key) (store : TableStore) :
    (upsert new store).row? key = store.row? key := by
  induction store with
  | nil => simp [upsert, row?, hkey]
  | cons first rest ih =>
    rw [upsert]
    split
    next hsame => simp [row?_cons, renew, hsame, hkey]
    next => simp [row?_cons, ih]

theorem IsKeyed.upsert (h : store.IsKeyed) (new : SnapshotRow) : (upsert new store).IsKeyed := by
  induction store with
  | nil => exact List.pairwise_singleton _ _
  | cons first rest ih =>
    obtain ⟨hfirst, hrest⟩ := List.pairwise_cons.mp h
    rw [TableStore.upsert]
    split
    next => exact List.pairwise_cons.mpr ⟨hfirst, hrest⟩
    next hkey =>
      refine List.pairwise_cons.mpr ⟨fun row hrow => ?_, ih hrest⟩
      rw [ne_comm]
      refine row?_eq_none_iff.mp ?_ row hrow
      rw [row?_upsert_of_ne (Ne.symm hkey)]
      exact row?_eq_none_iff.mpr fun row hrow => (hfirst row hrow).symm

/-- The row of a key among those that pass a sieve. -/
theorem IsKeyed.find?_and (h : store.IsKeyed) (key : String) (p : SnapshotRow → Bool) :
    (store.find? fun row => row.key == key && p row) = (store.row? key).filter p := by
  induction store with
  | nil => rfl
  | cons first rest ih =>
    obtain ⟨hfirst, hrest⟩ := List.pairwise_cons.mp h
    rw [row?_cons]
    by_cases hkey : first.key = key
    · subst hkey
      have hgone : row? rest first.key = none :=
        row?_eq_none_iff.mpr fun row hrow => (hfirst row hrow).symm
      rw [if_pos rfl, Option.filter_some]
      cases hp : p first <;> simp [hp, ih hrest, hgone]
    · simp [hkey, ih hrest]

theorem IsKeyed.row?_filter (h : store.IsKeyed) (key : String) (p : SnapshotRow → Bool) :
    row? (store.filter p) key = (store.row? key).filter p := by
  rw [← h.find?_and, row?, List.find?_filter]
  congr 1
  funext row
  cases p row <;> simp [beq_eq_decide]

theorem answer_held? (h : store.IsKeyed) (now : Nat) (key : String) :
    store.get now key = Held.answer (store.held? key) now := by
  unfold get held?
  rw [h.find?_and]
  cases store.row? key with
  | none => rfl
  | some row =>
    rw [Option.filter_some]
    cases hlive : isLive now row <;> simp [Held.answer, hlive]

/-- A row that is set shows what was set. -/
theorem held?_set_self (store : TableStore) (now : Nat) (written : Instant) (key : String)
    (e : Execution) (seconds : Nat) :
    ∃ held, (store.set now written key e seconds).held? key = some held ∧
      held.Shows ⟨now, e, seconds⟩ := by
  obtain ⟨row, hrow, hsnapshot, hexpires⟩ :=
    row?_upsert_self (TableStore.row now written key e seconds) store
  have hrow : (store.set now written key e seconds).row? key = some row := hrow
  refine ⟨⟨row.snapshot, fun t => !isLive t row⟩, by rw [held?, hrow]; rfl, hsnapshot,
    fun t ht => ?_⟩
  have hlive : isLive t row = isLive t (TableStore.row now written key e seconds) := by
    rw [isLive, isLive, hexpires]
  exact (congrArg Bool.not hlive).trans (isLive_row now written key e seconds ht)

/-- What a purge drops has expired. -/
theorem held?_purge (h : store.IsKeyed) (now : Nat) (key : String) :
    (store.purge now).2.held? key = store.held? key ∨ ((store.purge now).2.held? key = none ∧
      ∀ held, store.held? key = some held → held.isOver now = true) := by
  simp only [purge, held?]
  rw [h.row?_filter]
  cases store.row? key with
  | none => exact .inl rfl
  | some row =>
    rw [Option.filter_some]
    cases hlive : isLive now row with
    | true => exact .inl rfl
    | false =>
      refine .inr ⟨rfl, ?_⟩
      rintro held ⟨⟩
      exact congrArg Bool.not hlive

/-- What a call does to the table. -/
theorem serves : StoreCall.Serves serve held? IsKeyed := by
  intro store ⟨now, order⟩ h
  cases order with
  | set written key e seconds =>
    refine ⟨h.upsert _, fun other => ?_⟩
    by_cases hkey : key = other
    · subst hkey
      simp only [StoreCall.deposit?, if_pos]
      exact store.held?_set_self now written key e seconds
    · simp only [StoreCall.deposit?, if_neg hkey]
      refine .inl ?_
      simp only [serve, set, held?]
      rw [row?_upsert_of_ne hkey]
  | get key => exact ⟨h, fun _ => .inl rfl⟩
  | purge => exact ⟨List.Pairwise.filter _ h, held?_purge h now⟩

end TableStore

/-! ## Both of them -/

namespace StoreCall

variable {calls : List StoreCall} {now : Nat}

/-- **The store in memory and the table answer the same after the same calls at the same times**,
whatever the text of an error: a reader gets what was set last under its key, exactly as long as the
time for which it was to be kept is not over. A purge in between changes no answer. -/
theorem answered_alike (hordered : calls.Pairwise fun c d => c.now ≤ d.now)
    (hnow : ∀ c ∈ calls, c.now ≤ now) (hlimit : now < TableStore.columnLimit) (key : String) :
    let memory (calls : List StoreCall) :=
      (MemoryStore.get (calls.foldl MemoryStore.serve []) now key).1.toOption
    let table (calls : List StoreCall) :=
      (TableStore.get (calls.foldl TableStore.serve []) now key).toOption
    memory calls = (answer calls now key).toOption ∧ table calls = (answer calls now key).toOption ∧
      ∀ before time after, calls = before ++ ⟨time, .purge⟩ :: after →
        memory calls = memory (before ++ after) ∧ table calls = table (before ++ after) := by
  have hboth {calls : List StoreCall} (hordered : calls.Pairwise fun c d => c.now ≤ d.now)
      (hnow : ∀ c ∈ calls, c.now ≤ now) :
      (MemoryStore.get (calls.foldl MemoryStore.serve []) now key).1 = answer calls now key ∧
        TableStore.get (calls.foldl TableStore.serve []) now key = answer calls now key := by
    have hmemory := MemoryStore.serves.tells_foldl Members.isAscending_nil (fun _ => rfl) hordered
      hnow hlimit
    have htable := TableStore.serves.tells_foldl List.Pairwise.nil (fun _ => rfl) hordered hnow
      hlimit
    have hkeyed := TableStore.serves.sound_foldl List.Pairwise.nil calls
    exact ⟨(MemoryStore.answer_held? _ now key).trans (hmemory.answer_eq hlimit key),
      (TableStore.answer_held? hkeyed now key).trans (htable.answer_eq hlimit key)⟩
  intro memory table
  obtain ⟨hmemory, htable⟩ := hboth hordered hnow
  refine ⟨congrArg Except.toOption hmemory, congrArg Except.toOption htable,
    fun before time after hcalls => ?_⟩
  subst hcalls
  have hsub : (before ++ after).Sublist (before ++ ⟨time, .purge⟩ :: after) :=
    (List.sublist_cons_self _ _).append_left before
  obtain ⟨hmemory', htable'⟩ := hboth (hordered.sublist hsub) fun c hc => hnow c (hsub.subset hc)
  have hsame : answer (before ++ ⟨time, .purge⟩ :: after) now key =
      answer (before ++ after) now key := by
    rw [answer, answer, lastDeposit?_purge]
  simp only [memory, table, hmemory, htable, hmemory', htable', hsame, and_self]

/-- Something kept for a second is gone after it, with a purge in between or without; something kept
for as long as can be said is there at the end of the clock. -/
theorem brief_and_endless_answers :
    let e := Execution.create ⟨default, fun _ => default⟩ "welcome" none []
    let calls : List StoreCall := [⟨0, .set default "brief" e 1⟩, ⟨999, .purge⟩,
      ⟨999, .set default "endless" e (Nat.pow 2 64 - 1)⟩, ⟨1000, .get "brief"⟩]
    let now := TableStore.columnLimit - 1
    let memory (key : String) := (MemoryStore.get (calls.foldl MemoryStore.serve []) now key).1
    let table (key : String) := TableStore.get (calls.foldl TableStore.serve []) now key
    (memory "brief").toOption = some none ∧ (table "brief").toOption = some none ∧
      (memory "endless").toOption = ((Snapshot.ofExecution e).read.map some).toOption ∧
      (table "endless").toOption = ((Snapshot.ofExecution e).read.map some).toOption := by
  intro e calls now memory table
  have hordered : calls.Pairwise fun c d => c.now ≤ d.now := by simp [calls]
  have hnow : ∀ c ∈ calls, c.now ≤ now := by simp [calls, now, TableStore.columnLimit]
  have hlimit : now < TableStore.columnLimit := by decide
  have hbrief : answer calls now "brief" = .ok none := by
    have hlast : lastDeposit? calls "brief" = some ⟨0, e, 1⟩ := rfl
    have hover : ¬ now < Deposit.due ⟨0, e, 1⟩ := by simp [now, Deposit.due, TableStore.columnLimit]
    simp only [answer, hlast, if_neg hover]
  have hendless : answer calls now "endless" = (Snapshot.ofExecution e).read.map some := by
    have hlast : lastDeposit? calls "endless" = some ⟨999, e, Nat.pow 2 64 - 1⟩ := rfl
    have hlive : now < Deposit.due ⟨999, e, Nat.pow 2 64 - 1⟩ :=
      Nat.lt_of_lt_of_le hlimit (by decide)
    simp only [answer, hlast, if_pos hlive]
  obtain ⟨hmemory, htable, -⟩ := answered_alike hordered hnow hlimit "brief"
  obtain ⟨hmemory', htable', -⟩ := answered_alike hordered hnow hlimit "endless"
  rw [hbrief] at hmemory htable
  rw [hendless] at hmemory' htable'
  exact ⟨hmemory, htable, hmemory', htable'⟩

end StoreCall

end Outreach
