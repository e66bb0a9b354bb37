import Outreach.Proofs.Execution.Identifier
import Outreach.Proofs.Store.Recall
import Outreach.Proofs.System.Alone

/-!
# Runs do not interfere

A run comes to the same execution as alone with the requests to cancel its own identifier, and who
asks for the latest snapshot of an execution gets what a snapshot of this execution reads as
(`System.runs_kept_apart`). The latter holds since a store that recalls hands out only what was put
under the key that was asked for (`System.Change.storesOwn`), and a key belongs to one identifier.
-/

namespace Outreach

/-- The snapshots of a run have its identifier. -/
theorem Run.ComesFrom.id_of_mem_snapshots {engine : Engine} {moment : Moment} {call : Call}
    {r : Run} (h : r.ComesFrom engine moment call) {saved : Execution}
    (hsaved : saved ∈ r.snapshots) : saved.id = r.execution.id := by
  obtain ⟨-, -, hlast⟩ := List.pairwise_append.mp h.isGrown.history.grows
  exact (hlast saved hsaved r.execution (List.mem_singleton_self _)).id.symm

namespace System

variable {σ : Type} {access : StoreAccess σ} {holds : σ → String → Execution → Prop}
  {engine : Engine} {s s' : System σ} {key : String} {e : Execution}

/-- A store holds only what snapshots of runs of the system read as, each under its key. -/
def StoresOwn (holds : σ → String → Execution → Prop) (s : System σ) : Prop :=
  ∀ ⦃key : String⦄ ⦃e : Execution⦄, holds s.store key e →
    ∃ (job : Nat) (r : Run) (saved : Execution), s.jobs[job]? = some (.begun r) ∧
      saved ∈ r.snapshots ∧ saved.key = key ∧ (Snapshot.ofExecution saved).read = .ok e

theorem holds_keep (hrecalls : access.Recalls holds) {limits : Limits} {now : Nat} {store : σ}
    {snapshots : List Execution} (h : holds (keep access limits now store snapshots) key e) :
    holds store key e ∨
      ∃ saved ∈ snapshots, saved.key = key ∧ (Snapshot.ofExecution saved).read = .ok e := by
  induction snapshots generalizing store with
  | nil => exact .inl h
  | cons first rest ih =>
    rcases ih h with hbefore | ⟨saved, hsaved, hkey, hread⟩
    · rcases hrecalls.set hbefore with hbefore | ⟨hkey, hread⟩
      · exact .inl hbefore
      · exact .inr ⟨first, List.mem_cons_self, hkey.symm, hread⟩
    · exact .inr ⟨saved, List.mem_cons_of_mem _ hsaved, hkey, hread⟩

/-- A run that is put into its place adds its own snapshots to the store. -/
theorem holds_place (hrecalls : access.Recalls holds) {now job seen : Nat} {r : Run}
    {manager : Manager}
    (h : holds (s.place access engine now job seen r manager).store key e) :
    holds s.store key e ∨
      ∃ saved ∈ r.snapshots, saved.key = key ∧ (Snapshot.ofExecution saved).read = .ok e := by
  refine (holds_keep hrecalls h).imp_right ?_
  rintro ⟨saved, hsaved, hkey, hread⟩
  obtain ⟨sighting, hsighting, hsame⟩ := List.mem_filterMap.mp hsaved
  exact ⟨saved, List.mem_filterMap.mpr ⟨sighting, List.mem_of_mem_drop hsighting, hsame⟩, hkey,
    hread⟩

/-- **Every change leaves only snapshots of the runs in the store.** -/
theorem Change.storesOwn (h : s.Change access engine s') (hrecalls : access.Recalls holds)
    (hruns : s.RunsCalls engine) (hs : s.StoresOwn holds) : s'.StoresOwn holds := by
  have hold {key : String} {e : Execution} (hholds : holds s.store key e) :
      ∃ (job : Nat) (r : Run) (saved : Execution), s'.jobs[job]? = some (.begun r) ∧
        saved ∈ r.snapshots ∧ saved.key = key ∧ (Snapshot.ofExecution saved).read = .ok e := by
    obtain ⟨job, r, saved, hjob, hsaved, hkey, hread⟩ := hs hholds
    obtain ⟨r', hjob', -, htrace⟩ := h.exists_begun hruns hjob
    have hsaved' : saved ∈ r'.snapshots := (htrace.filterMap Sighting.snapshot?).subset hsaved
    exact ⟨job, r', saved, hjob', hsaved', hkey, hread⟩
  intro key e hholds
  cases h with
  | rest | call | cancel | finish => exact hold hholds
  | @begin job _ _ _ hwaiting _ =>
    obtain ⟨hlt, -⟩ := List.getElem?_eq_some_iff.mp hwaiting
    rcases holds_place hrecalls hholds with hbefore | ⟨saved, hsaved, hkey, hread⟩
    · exact hold hbefore
    · exact ⟨job, _, saved, List.getElem?_set_self hlt, hsaved, hkey, hread⟩
  | @goOn job _ _ hrunning _ =>
    obtain ⟨hlt, -⟩ := List.getElem?_eq_some_iff.mp hrunning
    rcases holds_place hrecalls hholds with hbefore | ⟨saved, hsaved, hkey, hread⟩
    · exact hold hbefore
    · exact ⟨job, _, saved, List.getElem?_set_self hlt, hsaved, hkey, hread⟩

theorem storesOwn_happenAll (hrecalls : access.Recalls holds) {store : σ}
    (hempty : ∀ key e, ¬ holds store key e) (happenings : List Happening) :
    ((create engine.limits store).happenAll access engine happenings).StoresOwn holds := by
  let P (s : System σ) := s.RunsCalls engine ∧ s.StoresOwn holds
  have hcreated : P (create engine.limits store) :=
    ⟨by simp [RunsCalls, create], fun key e hholds => absurd hholds (hempty key e)⟩
  have hkeep (s s' : System σ) (hchange : s.Change access engine s') (hs : P s) : P s' :=
    ⟨hchange.runsCalls hs.1, hchange.storesOwn hrecalls hs.1 hs.2⟩
  have hread (s : System σ) (now : Nat) (key : String) (hs : P s) :
      P { s with store := (access.get s.store now key).2 } :=
    ⟨hs.1, fun _ _ hholds => hs.2 (hrecalls.get hholds)⟩
  exact (happenAll_keeps (P := P) _ hcreated hkeep hread happenings).2

/-- **Runs do not interfere**, whatever the funnels, the executors and the limits are, however the
runs take turns, whoever is cancelled and whatever is read. A run whose identifier no other run drew
is as far as it comes alone, when nothing happens but its own call, the grant of its slot, its own
wakes with what it learned at them, and the requests to cancel its identifier: its walk is the same,
and with it its execution, what it tried, what it saw and what it wrote. Of a store that recalls,
and in which nothing was before, whoever asks for the execution of an identifier gets what a
snapshot of the run with this identifier reads as, if anything. -/
theorem runs_kept_apart (hrecalls : access.Recalls holds) (engine : Engine) {store : σ}
    (hempty : ∀ key e, ¬ holds store key e) (happenings : List Happening) :
    let s := (create engine.limits store).happenAll access engine happenings
    (∀ (job : Nat) (r : Run), s.jobs[job]? = some (.begun r) → Job.OwnsId s.jobs job →
      ∃ r' : Run, ((create engine.limits store).performAll access engine
          ((create engine.limits store).ownActions access engine job r.execution.id
            happenings)).jobs = [.begun r'] ∧
        r'.phase = r.phase ∧ r'.walk = r.walk) ∧
      ∀ (now : Nat) (id : Identifier) (e : Execution), id.value < 2 ^ 128 →
        (∀ (job : Nat) (r : Run), s.jobs[job]? = some (.begun r) →
          r.execution.id.value < 2 ^ 128) →
        s.execution? access now id = .ok (some e) →
        ∃ (job : Nat) (r : Run), s.jobs[job]? = some (.begun r) ∧ r.execution.id = id ∧
          ∃ saved ∈ r.snapshots, (Snapshot.ofExecution saved).read = .ok e := by
  intro s
  refine ⟨fun job r hjob hown => ?_, fun now id e hid hids hread => ?_⟩
  · have hsame : ∀ r', s.jobs[job]? = some (.begun r') → r'.execution.id = r.execution.id := by
      intro r' hjob'
      obtain rfl : r = r' := by simpa [hjob] using hjob'
      rfl
    cases mirrors_happenAll access access engine store store happenings hown hsame with
    | absent hnone => simp [s, hnone] at hjob
    | waiting hwaiting => simp [s, hwaiting] at hjob
    | @begun r₀ r' hbegun halone hr =>
      obtain rfl : r = r₀ := Job.begun.inj (Option.some.inj (hjob.symm.trans hbegun))
      exact ⟨r', halone, hr.phase, hr.walk⟩
  · have hholds : holds s.store (Execution.keyOf id) e := hrecalls.handed hread
    obtain ⟨job, r, saved, hjob, hsaved, hkey, hsnapshot⟩ :=
      storesOwn_happenAll hrecalls hempty happenings hholds
    obtain ⟨_, _, hr⟩ := runsCalls_happenAll store happenings hjob
    have hfits := hids job r hjob
    rw [Execution.key, hr.id_of_mem_snapshots hsaved] at hkey
    exact ⟨job, r, hjob, Execution.keyOf_injective hfits hid hkey, saved, hsaved, hsnapshot⟩

/-- Two runs share a store in memory, the second is cancelled, and the first is read before it goes
on. The first is as far as it is alone, and what is read of it afterwards is its own. -/
theorem first_run_apart :
    let engine : Engine := ⟨.errands, .standard⟩
    let call : Call := ⟨{ Funnel.errands with nodes := [] }, none, []⟩
    let moment (id : Nat) : Moment := { Wake.outage.moment with fresh := fun _ => ⟨id⟩ }
    let happenings : List Happening := [.act (.call call), .act (.call call),
      .act (.grant (moment 1)), .read 0 ⟨1⟩, .act (.grant (moment 2)), .act (.cancel ⟨2⟩),
      .act (.resume 0 .outage)]
    let alone : List Action := [.call call, .grant (moment 1), .resume 0 .outage]
    let s := (create engine.limits []).happenAll MemoryStore.access engine happenings
    ∃ r r' : Run, s.jobs[0]? = some (.begun r) ∧ r.phase = .closing ∧
      ((create engine.limits []).performAll MemoryStore.access engine alone).jobs = [.begun r'] ∧
      r'.phase = .closing ∧ r'.walk = r.walk ∧
      ∃ snapshot : Snapshot,
        s.execution? MemoryStore.access 0 ⟨1⟩ = snapshot.read.map some ∧
        ∀ e, snapshot.read = .ok e →
          ∃ saved ∈ r.snapshots, (Snapshot.ofExecution saved).read = .ok e := by
  intro engine call moment happenings alone s
  have hs : s = (create engine.limits []).happenAll MemoryStore.access engine happenings := rfl
  have halone : (create engine.limits []).ownActions MemoryStore.access engine 0 ⟨1⟩ happenings =
      alone := rfl
  obtain ⟨r, r₂, hjobs, hid, hid₂, hphase⟩ : ∃ r r₂ : Run, s.jobs = [.begun r, .begun r₂] ∧
      r.execution.id = ⟨1⟩ ∧ r₂.execution.id = ⟨2⟩ ∧ r.phase = .closing :=
    ⟨_, _, rfl, rfl, rfl, rfl⟩
  have hstored : (Members.get? (Execution.keyOf ⟨1⟩) s.store).any
      (fun entry => !entry.isExpired 0) = true := by decide +kernel
  have hempty : ∀ key e, ¬ MemoryStore.Holds [] key e := by
    rintro key e ⟨entry, hentry, -⟩
    cases hentry
  obtain ⟨hruns, hreads⟩ := runs_kept_apart MemoryStore.recalls engine hempty happenings
  rw [← hs] at hruns hreads
  -- From here on nothing has to be computed.
  clear_value s
  have hplaces : ∀ (job : Nat) (r' : Run), s.jobs[job]? = some (.begun r') →
      (job = 0 ∧ r' = r) ∨ (job = 1 ∧ r' = r₂) := by
    intro job r' hjob
    rw [hjobs] at hjob
    rcases job with _ | _ | job <;> cases hjob
    · exact .inl ⟨rfl, rfl⟩
    · exact .inr ⟨rfl, rfl⟩
  have hfirst : s.jobs[0]? = some (.begun r) := by rw [hjobs]; rfl
  have hown : Job.OwnsId s.jobs 0 := by
    intro r₀ hjob other r' hother hsame
    obtain rfl : r = r₀ := by simpa [hfirst] using hjob
    rcases hplaces other r' hother with ⟨rfl, -⟩ | ⟨-, rfl⟩
    · rfl
    · simp [hid, hid₂] at hsame
  have hids : ∀ (job : Nat) (r' : Run), s.jobs[job]? = some (.begun r') →
      r'.execution.id.value < 2 ^ 128 := by
    intro job r' hjob
    rcases hplaces job r' hjob with ⟨-, rfl⟩ | ⟨-, rfl⟩
    · simp [hid]
    · simp [hid₂]
  obtain ⟨r', hjob', hphase', hwalk⟩ := hruns 0 r hfirst hown
  rw [hid, halone] at hjob'
  obtain ⟨entry, hentry, hlive⟩ : ∃ entry,
      Members.get? (Execution.keyOf ⟨1⟩) s.store = some entry ∧ entry.isExpired 0 = false := by
    cases hentry : Members.get? (Execution.keyOf ⟨1⟩) s.store with
    | none => simp [hentry] at hstored
    | some entry => exact ⟨entry, rfl, by simpa [hentry] using hstored⟩
  have hread : s.execution? MemoryStore.access 0 ⟨1⟩ = entry.snapshot.read.map some :=
    MemoryStore.get_of_some hentry hlive
  refine ⟨r, r', hfirst, hphase, hjob', hphase'.trans hphase, hwalk, entry.snapshot, hread, ?_⟩
  intro e he
  have hgot : s.execution? MemoryStore.access 0 ⟨1⟩ = .ok (some e) := by
    rw [hread, he]
    rfl
  obtain ⟨job, r₁, hjob, hid₁, hsaved⟩ := hreads 0 ⟨1⟩ e (by decide) hids hgot
  rcases hplaces job r₁ hjob with ⟨-, rfl⟩ | ⟨-, rfl⟩
  · exact hsaved
  · simp [hid₂] at hid₁

end System

end Outreach
