import Outreach.Proofs.Execution.Recall
import Outreach.Proofs.Store.Agreement

/-!
# What a store gives back

An execution that was set in a store is given back field by field until its time is over, whatever
else is asked of the store in the meantime, unless something else is set under its key
(`StoreCall.given_back`). The one condition is on how deep its value is nested: what services answer
is written at any depth, and read only up to `Source.depthLimit`.
-/

namespace Outreach

namespace StoreCall

/-- A call that leaves a deposit alone: it sets nothing in its place and comes before its time is
over. -/
structure Spares (c : StoreCall) (key : String) (d : Deposit) : Prop where
  unreplaced : c.deposit? key = none
  before : c.now < d.due
  limit : c.now < TableStore.columnLimit

section serve

variable {σ : Type} {serve : σ → StoreCall → σ} {holds : σ → String → Option Held}
  {Sound : σ → Prop} {store : σ} {calls : List StoreCall} {key : String} {d : Deposit}

/-- What shows a deposit still shows it after calls that leave it alone. -/
theorem Serves.shows_foldl (hserve : Serves serve holds Sound) (h : Sound store)
    (hshows : ∃ held, holds store key = some held ∧ held.Shows d)
    (hcalls : ∀ c ∈ calls, c.Spares key d) :
    ∃ held, holds (calls.foldl serve store) key = some held ∧ held.Shows d := by
  induction calls generalizing store with
  | nil => exact hshows
  | cons c rest ih =>
    obtain ⟨hc, hrest⟩ := List.forall_mem_cons.mp hcalls
    obtain ⟨hsound, hturns⟩ := hserve store c h
    obtain ⟨held, hheld, hd⟩ := hshows
    have hkey := hturns key
    rw [hc.unreplaced] at hkey
    refine ih hsound ⟨held, ?_, hd⟩ hrest
    rcases hkey with hsame | ⟨-, hover⟩
    · exact hsame.trans hheld
    · -- Only what is over goes, and the deposit is not.
      have hdue : decide (d.due ≤ c.now) = true :=
        (hd.isOver c.now hc.limit).symm.trans (hover held hheld)
      exact absurd (of_decide_eq_true hdue) (Nat.not_le.mpr hc.before)

/-- A reader gets what was set, whatever was asked of the store since that leaves it alone. -/
theorem Serves.answer_after_set (hserve : Serves serve holds Sound) (h : Sound store)
    {c : StoreCall} (hset : c.deposit? key = some d) (hcalls : ∀ c ∈ calls, c.Spares key d)
    {later : Nat} (hlater : later < d.due) (hlimit : later < TableStore.columnLimit) :
    Held.answer (holds (calls.foldl serve (serve store c)) key) later =
      (Snapshot.ofExecution d.execution).read.map some := by
  obtain ⟨hsound, hturns⟩ := hserve store c h
  have hkey := hturns key
  rw [hset] at hkey
  obtain ⟨held, hheld, hshows⟩ := hserve.shows_foldl hsound hkey hcalls
  have hlive : held.isOver later = false :=
    (hshows.isOver later hlimit).trans (decide_eq_false (Nat.not_le.mpr hlater))
  rw [hheld, Held.answer, hlive, hshows.snapshot]
  rfl

end serve

/-- **Both stores give an execution back as it was set**, with its variables, logs, errors and
metadata and to the nanosecond, at any time before it is due: exactly if its value is nested no
deeper than a text is read, and with an error otherwise. It does not matter what was asked of the
store before, nor what is asked of it in the meantime, as long as nothing else is set under the
key. -/
theorem given_back {e : Execution} (he : e.IsProper) (before between : List StoreCall)
    (now seconds : Nat) (written : Instant) (key : String)
    (hbetween : ∀ c ∈ between, c.Spares key ⟨now, e, seconds⟩) {later : Nat}
    (hlater : later < now + seconds * 1000) (hlimit : later < TableStore.columnLimit) :
    let calls := before ++ ⟨now, .set written key e seconds⟩ :: between
    let answer : Except StoreFault (Option Execution) :=
      if e.toJson.nesting ≤ Source.depthLimit then .ok (some e.recalled)
      else .error (.serialization Fault.malformed.message)
    (MemoryStore.get (calls.foldl MemoryStore.serve []) later key).1 = answer ∧
      TableStore.get (calls.foldl TableStore.serve []) later key = answer := by
  intro calls answer
  have hset : deposit? key ⟨now, .set written key e seconds⟩ = some ⟨now, e, seconds⟩ := if_pos rfl
  have hread : (Snapshot.ofExecution e).read.map some = answer := by
    rw [Snapshot.read_ofExecution he]
    simp only [answer]
    split <;> rfl
  have hascending := MemoryStore.serves.sound_foldl Members.isAscending_nil before
  have hkeyed := TableStore.serves.sound_foldl List.Pairwise.nil before
  have hafter := TableStore.serves.sound_foldl List.Pairwise.nil calls
  refine ⟨(MemoryStore.answer_held? _ later key).trans ?_,
    (TableStore.answer_held? hafter later key).trans ?_⟩
  · simp only [calls, List.foldl_append, List.foldl_cons]
    rw [← hread]
    exact MemoryStore.serves.answer_after_set hascending hset hbetween hlater hlimit
  · simp only [calls, List.foldl_append, List.foldl_cons]
    rw [← hread]
    exact TableStore.serves.answer_after_set hkeyed hset hbetween hlater hlimit

end StoreCall

/-! ## An execution of any depth -/

theorem Identifier.isProper_default : (default : Identifier).IsProper :=
  Nat.two_pow_pos 128

theorem Instant.isProper_default : (default : Instant).IsProper :=
  ⟨by decide, by decide⟩

/-- Null in so many lists inside each other. -/
def Json.nested : Nat → Json
  | 0 => .null
  | depth + 1 => .array [nested depth]

theorem Json.isProper_nested (depth : Nat) : (nested depth).IsProper := by
  induction depth with
  | zero => exact .null
  | succ depth ih => exact .array (List.forall_mem_singleton.mpr ih)

theorem Json.nesting_nested (depth : Nat) : (nested depth).nesting = depth := by
  induction depth with
  | zero => rfl
  | succ depth ih => simp [nested, nesting, itemsNesting, ih]

namespace Execution

/-- A run that got its reply in so many lists, and noted it with null for the data. -/
def replied (depth : Nat) : Execution :=
  { create ⟨default, fun _ => default⟩ "welcome" none [("reply", .nested depth)] with
    logs := [⟨default, default, .info, none, "replied", some .null⟩] }

theorem isProper_replied (depth : Nat) : (replied depth).IsProper where
  id := Identifier.isProper_default
  vars := .object (List.pairwise_singleton _ _)
    (List.forall_mem_singleton.mpr (Json.isProper_nested depth))
  logs := List.forall_mem_singleton.mpr 
    ⟨Identifier.isProper_default, Instant.isProper_default, by rintro _ ⟨⟩; exact .null⟩
  errors := nofun
  startedAt := Instant.isProper_default
  endedAt := nofun
  metadata := .object List.Pairwise.nil nofun

theorem nesting_replied {depth : Nat} (h : 0 < depth) :
    (replied depth).toJson.nesting = depth + 2 := by
  rw [toJson_eq]
  simp [replied, create, entries, LogEntry.toJson_eq, LogEntry.entries, WrittenEntry.present,
    WrittenEntry.of, Layout.written, Json.identifier, Json.instant, Json.nesting,
    Json.itemsNesting, Json.membersNesting, Json.nesting_nested]
  omega

end Execution

namespace StoreCall

/-- A reply in 125 lists is given back after a purge, at the last millisecond; in one list more it
cannot be read. -/
theorem nested_reply_given_back :
    let calls (depth : Nat) : List StoreCall :=
      [⟨5, .set default "recent" (.replied depth) 60⟩, ⟨30000, .purge⟩]
    let memory (depth : Nat) :=
      (MemoryStore.get ((calls depth).foldl MemoryStore.serve []) 60004 "recent").1
    let table (depth : Nat) :=
      TableStore.get ((calls depth).foldl TableStore.serve []) 60004 "recent"
    memory 125 = .ok (some (Execution.replied 125).recalled) ∧
      table 125 = .ok (some (Execution.replied 125).recalled) ∧
      memory 126 = .error (.serialization Fault.malformed.message) ∧
      table 126 = .error (.serialization Fault.malformed.message) := by
  intro calls memory table
  have hback (depth : Nat) (hdepth : 0 < depth) :
      let answer : Except StoreFault (Option Execution) :=
        if depth + 2 ≤ 127 then .ok (some (Execution.replied depth).recalled)
        else .error (.serialization Fault.malformed.message)
      memory depth = answer ∧ table depth = answer := by
    have hbefore : 30000 < 5 + 60 * 1000 := by decide
    have hlater : 60004 < 5 + 60 * 1000 := by decide
    have hspares : ∀ c ∈ [StoreCall.mk 30000 .purge], c.Spares "recent" ⟨5, .replied depth, 60⟩ :=
      List.forall_mem_singleton.mpr ⟨rfl, hbefore, by decide⟩
    have hgiven := given_back (Execution.isProper_replied depth) [] [⟨30000, .purge⟩] 5 60 default
      "recent" hspares hlater (by decide)
    rwa [Execution.nesting_replied hdepth] at hgiven
  exact ⟨(hback 125 (by decide)).1, (hback 125 (by decide)).2, (hback 126 (by decide)).1,
    (hback 126 (by decide)).2⟩

end StoreCall

end Outreach
