import Mathlib.Data.List.Perm.Basic
import Mathlib.Data.List.Dedup
import Outreach.Proofs.Source.HandedOut
import Outreach.Proofs.Store.Snapshots

/-!
# What a table lists

A row holds twice what its snapshot tells: in columns, by which it is found, and in the text. A key
that is set again brings its row a new snapshot, a new status and a new time of expiry, but the
funnel and the identifier in the columns stay those of the execution that came first (`Tenure`,
`SnapshotRow.Shows`). A funnel's listing goes by the column, so it is right exactly when the column
is (`StoreCall.listed_exactly_iff`).
-/

namespace Outreach

/-- The sets to which a row goes back: the one that put it into the table, and the one that came
last. -/
structure Tenure where
  first : Deposit
  last : Deposit

namespace StoreCall

/-- What a call makes of the row of a key: setting the key puts the row in or renews it, and a purge
drops it when its time is over. -/
def turn (key : String) (tenure : Option Tenure) (c : StoreCall) : Option Tenure :=
  match c.order with
  | .set _ other e seconds =>
    if other = key then
      let d : Deposit := ⟨c.now, e, seconds⟩
      some ⟨(tenure.map Tenure.first).getD d, d⟩
    else tenure
  | .get _ => tenure
  | .purge => tenure.filter fun t => c.now < t.last.due

/-- The sets to which the row of a key goes back after calls, if there is one. -/
def tenure? (calls : List StoreCall) (key : String) : Option Tenure :=
  calls.foldl (turn key) none

/-- The funnel of the execution that came first to the row of a key. -/
def founder? (calls : List StoreCall) (key : String) : Option String :=
  (tenure? calls key).map fun t => t.first.execution.funnelId

/-- The key that a call sets. -/
def key? (c : StoreCall) : Option String :=
  match c.order with
  | .set _ key _ _ => some key
  | .get _ | .purge => none

/-- The executions that are to be seen after calls, each with its key: what was set last under the
key, until its time is over. -/
def current (calls : List StoreCall) (now : Nat) : List (String × Execution) :=
  (calls.filterMap key?).dedup.filterMap fun key =>
    ((lastDeposit? calls key).filter fun d => now < d.due).map fun d => (key, d.execution)

variable {calls : List StoreCall} {c : StoreCall} {now : Nat} {key : String} {d : Deposit}

theorem key?_of_deposit? (h : c.deposit? key = some d) : c.key? = some key := by
  obtain ⟨time, order⟩ := c
  cases order with
  | set => exact congrArg some (Option.ite_none_right_eq_some.mp h).1
  | get => cases h
  | purge => cases h

theorem exists_deposit?_of_lastDeposit? (h : lastDeposit? calls key = some d) :
    ∃ c ∈ calls, c.deposit? key = some d := by
  obtain ⟨c, hc, hset⟩ := List.exists_of_findSome?_eq_some h
  exact ⟨c, List.mem_reverse.mp hc, hset⟩

theorem mem_current {entry : String × Execution} :
    entry ∈ current calls now ↔
      ∃ d, lastDeposit? calls entry.1 = some d ∧ now < d.due ∧ d.execution = entry.2 := by
  obtain ⟨key, e⟩ := entry
  simp only [current, List.mem_filterMap, List.mem_dedup, Option.map_eq_some_iff,
    Option.filter_eq_some_iff, decide_eq_true_eq, Prod.mk.injEq]
  constructor
  · rintro ⟨_, -, d, ⟨hlast, hlive⟩, rfl, he⟩
    exact ⟨d, hlast, hlive, he⟩
  · rintro ⟨d, hlast, hlive, he⟩
    obtain ⟨c, hc, hset⟩ := exists_deposit?_of_lastDeposit? hlast
    exact ⟨key, ⟨c, hc, key?_of_deposit? hset⟩, d, ⟨hlast, hlive⟩, rfl, he⟩

/-- Every key is there once. -/
theorem nodup_current (calls : List StoreCall) (now : Nat) :
    ((current calls now).map Prod.fst).Nodup := by
  have hsub : ((current calls now).map Prod.fst).Sublist (calls.filterMap key?).dedup := by
    rw [current, List.map_filterMap]
    induction (calls.filterMap key?).dedup with
    | nil => exact .slnil
    | cons key rest ih =>
      rw [List.filterMap_cons]
      cases (lastDeposit? calls key).filter fun d => decide (now < d.due) with
      | none => exact ih.cons key
      | some => exact ih.cons_cons key
  exact hsub.nodup (List.nodup_dedup _)

/-- A row's last set is the last one of its key, as long as that is to be seen. -/
theorem last_tenure? (hnow : ∀ c ∈ calls, c.now ≤ now) (key : String) :
    ((tenure? calls key).map Tenure.last).filter (fun d => now < d.due) =
      (lastDeposit? calls key).filter fun d => now < d.due := by
  induction calls using List.reverseRecOn with
  | nil => rfl
  | append_singleton calls c ih =>
    have hc : c.now ≤ now := hnow c (by simp)
    have ih := ih fun other hother => hnow other (by simp [hother])
    rw [lastDeposit?_concat, tenure?, List.foldl_append, List.foldl_cons, List.foldl_nil, ← tenure?]
    obtain ⟨time, order⟩ := c
    cases order with
    | set written other e seconds =>
      by_cases hkey : other = key
      · simp [turn, deposit?, hkey]
      · simpa [turn, deposit?, hkey] using ih
    | get => exact ih
    | purge =>
      -- What the purge drops was over at its time, so it is over by now.
      rw [show deposit? key ⟨time, .purge⟩ = none from rfl, Option.none_or, ← ih]
      cases tenure? calls key with
      | none => rfl
      | some t =>
        by_cases hlive : now < t.last.due
        · have hkept : time < t.last.due := Nat.lt_of_le_of_lt hc hlive
          simp [turn, Option.filter_some, hlive, hkept]
        · by_cases hkept : time < t.last.due <;> simp [turn, Option.filter_some, hlive, hkept]

/-- What is to be seen under a key is what the last set of its row brought. -/
theorem mem_current_iff_tenure? (hnow : ∀ c ∈ calls, c.now ≤ now) {entry : String × Execution} :
    entry ∈ current calls now ↔
      ∃ t, tenure? calls entry.1 = some t ∧ now < t.last.due ∧ t.last.execution = entry.2 := by
  have hlast := last_tenure? hnow entry.1
  rw [mem_current]
  constructor
  · rintro ⟨d, hd, hlive, he⟩
    rw [hd, Option.filter_some, if_pos (decide_eq_true hlive), Option.filter_eq_some_iff] at hlast
    obtain ⟨t, ht, rfl⟩ := Option.map_eq_some_iff.mp hlast.1
    exact ⟨t, ht, hlive, he⟩
  · rintro ⟨t, ht, hlive, he⟩
    rw [ht, Option.map_some, Option.filter_some, if_pos (decide_eq_true hlive)] at hlast
    exact ⟨t.last, (Option.filter_eq_some_iff.mp hlast.symm).1, hlive, he⟩

end StoreCall

/-! ## The rows -/

/-- What a row shows of the sets to which it goes back: the funnel and the identifier of the first
one's execution, and all else of the last one's. -/
structure SnapshotRow.Shows (row : SnapshotRow) (t : Tenure) : Prop where
  executionId : row.executionId = t.first.execution.id.render
  funnelId : row.funnelId = t.first.execution.funnelId
  status : row.status = t.last.execution.status.label
  snapshot : row.snapshot = .ofExecution t.last.execution
  expiresAt : row.expiresAt = TableStore.expiry t.last.setAt t.last.seconds

namespace TableStore

variable {store : TableStore} {now : Nat} {key : String} {row : SnapshotRow} {t : Tenure}

theorem isLive_of_shows (h : row.Shows t) (hlimit : now < columnLimit) :
    isLive now row = decide (now < t.last.due) := by
  have hlive := isLive_row t.last.setAt default row.key t.last.execution t.last.seconds hlimit
  have hsame : isLive now row =
      isLive now (TableStore.row t.last.setAt default row.key t.last.execution t.last.seconds) := by
    rw [isLive, h.expiresAt]
    rfl
  rw [← Bool.not_not (isLive now row), hsame, hlive, ← decide_not]
  exact decide_eq_decide.mpr Nat.not_le

theorem IsKeyed.row?_eq_some_iff (h : store.IsKeyed) :
    store.row? key = some row ↔ row ∈ store ∧ row.key = key := by
  induction store with
  | nil => simp [row?]
  | cons first rest ih =>
    obtain ⟨hfirst, hrest⟩ := List.pairwise_cons.mp h
    rw [row?_cons]
    by_cases hkey : first.key = key
    · have hother : row ∈ rest → row.key ≠ key := fun hrow hsame =>
        hfirst row hrow (hkey.trans hsame.symm)
      rw [if_pos hkey, Option.some_inj, List.mem_cons]
      constructor
      · rintro rfl
        exact ⟨.inl rfl, hkey⟩
      · rintro ⟨rfl | hrow, hsame⟩
        · rfl
        · exact absurd hsame (hother hrow)
    · rw [if_neg hkey, ih hrest, List.mem_cons]
      refine ⟨fun hrow => ⟨.inr hrow.1, hrow.2⟩, ?_⟩
      rintro ⟨rfl | hrow, hsame⟩
      · exact absurd hsame hkey
      · exact ⟨hrow, hsame⟩

/-- A new row goes back to one set. -/
theorem shows_row (now : Nat) (written : Instant) (key : String) (e : Execution) (seconds : Nat) :
    (TableStore.row now written key e seconds).Shows ⟨⟨now, e, seconds⟩, ⟨now, e, seconds⟩⟩ :=
  ⟨rfl, rfl, rfl, rfl, rfl⟩

theorem shows_renew {old new : SnapshotRow} {first last : Deposit} (hold : old.Shows t)
    (hnew : new.Shows ⟨first, last⟩) : (renew old new).Shows ⟨t.first, last⟩ where
  executionId := hold.executionId
  funnelId := hold.funnelId
  status := hnew.status
  snapshot := hnew.snapshot
  expiresAt := hnew.expiresAt

/-- One step: every key's row shows the sets to which it goes back. -/
theorem shows_serve (h : store.IsKeyed) {tenure : Option Tenure}
    (hshows : Option.Rel SnapshotRow.Shows (store.row? key) tenure) {c : StoreCall}
    (hlimit : c.now < columnLimit) :
    Option.Rel SnapshotRow.Shows ((store.serve c).row? key) (c.turn key tenure) := by
  obtain ⟨time, order⟩ := c
  cases order with
  | set written other e seconds =>
    by_cases hkey : other = key
    · subst hkey
      have hnew := shows_row time written other e seconds
      have hrow : (store.set time written other e seconds).row? other =
          some (((store.row? other).map (renew · (TableStore.row time written other e seconds))).getD
            (TableStore.row time written other e seconds)) :=
        row?_upsert (TableStore.row time written other e seconds) store
      simp only [serve, StoreCall.turn, if_true, hrow]
      generalize TableStore.row time written other e seconds = new at hnew ⊢
      generalize store.row? other = found at hshows ⊢
      cases hshows with
      | none => exact .some hnew
      | some hold => exact .some (shows_renew hold hnew)
    · have hrow : ((store.set time written other e seconds).row? key) = store.row? key :=
        row?_upsert_of_ne hkey store
      simpa only [serve, StoreCall.turn, if_neg hkey, hrow] using hshows
  | get => exact hshows
  | purge =>
    simp only [serve, purge, StoreCall.turn]
    rw [h.row?_filter]
    generalize store.row? key = found at hshows ⊢
    cases hshows with
    | none => exact .none
    | some hold =>
      rw [Option.filter_some, Option.filter_some, isLive_of_shows hold hlimit]
      split
      next => exact .some hold
      next => exact .none

/-- All steps: every row goes back to a set that put it in and one that came last, and shows them. -/
theorem shows_foldl {calls : List StoreCall} (hlimit : ∀ c ∈ calls, c.now < columnLimit)
    (key : String) :
    Option.Rel SnapshotRow.Shows (row? (calls.foldl serve []) key)
      (StoreCall.tenure? calls key) := by
  induction calls using List.reverseRecOn with
  | nil => exact .none
  | append_singleton calls c ih =>
    rw [StoreCall.tenure?, List.foldl_append, List.foldl_append]
    have ih := ih fun other hother => hlimit other (by simp [hother])
    have hkeyed : IsKeyed (calls.foldl serve []) := serves.sound_foldl List.Pairwise.nil calls
    exact shows_serve hkeyed ih (hlimit c (by simp))

end TableStore

/-! ## The listing -/

namespace StoreCall

/-- The executions that are to be seen and whose row one of a funnel came first to. -/
def founded (calls : List StoreCall) (now : Nat) (funnelId : String) : List (String × Execution) :=
  (current calls now).filter fun entry => founder? calls entry.1 == some funnelId

/-- The executions of a funnel that are to be seen. -/
def owned (calls : List StoreCall) (now : Nat) (funnelId : String) : List (String × Execution) :=
  (current calls now).filter fun entry => entry.2.funnelId == funnelId

end StoreCall

namespace TableStore

variable {calls : List StoreCall} {now : Nat} {limit : Nat}

/-- The live rows with a funnel in their column. -/
def rowsOf (store : TableStore) (now : Nat) (funnelId : String) : List SnapshotRow :=
  store.filter fun row => row.funnelId == funnelId && isLive now row

/-- The rows of a listing are those of the executions that are to be seen whose row one of the funnel
came first to, each once. -/
theorem perm_rowsOf (hnow : ∀ c ∈ calls, c.now ≤ now) (hlimit : now < columnLimit)
    (funnelId : String) :
    ((rowsOf (calls.foldl serve []) now funnelId).map fun row => (row.key, row.snapshot)).Perm
      ((StoreCall.founded calls now funnelId).map fun entry =>
        (entry.1, Snapshot.ofExecution entry.2)) := by
  have hkeyed : IsKeyed (calls.foldl serve []) := serves.sound_foldl List.Pairwise.nil calls
  have hearly (c : StoreCall) (hc : c ∈ calls) : c.now < columnLimit :=
    Nat.lt_of_le_of_lt (hnow c hc) hlimit
  have hshows := shows_foldl hearly
  generalize calls.foldl serve [] = store at hkeyed hshows ⊢
  have hrows : ((rowsOf store now funnelId).map fun row => (row.key, row.snapshot)).Nodup := by
    refine List.Nodup.of_map Prod.fst ?_
    rw [List.map_map]
    exact List.pairwise_map.mpr (hkeyed.filter _)
  have hentries : ((StoreCall.founded calls now funnelId).map fun entry =>
      (entry.1, Snapshot.ofExecution entry.2)).Nodup := by
    refine List.Nodup.of_map Prod.fst ?_
    rw [List.map_map]
    exact (StoreCall.nodup_current calls now).sublist (List.filter_sublist.map Prod.fst)
  refine (List.perm_ext_iff_of_nodup hrows hentries).mpr fun listed => ?_
  simp only [List.mem_map, rowsOf, StoreCall.founded, List.mem_filter, StoreCall.founder?,
    StoreCall.mem_current_iff_tenure? hnow, Bool.and_eq_true, beq_iff_eq, Option.map_eq_some_iff]
  constructor
  · rintro ⟨row, ⟨hrow, hfunnel, hlive⟩, rfl⟩
    have hfound := hshows row.key
    rw [hkeyed.row?_eq_some_iff.mpr ⟨hrow, rfl⟩] at hfound
    generalize htenure : StoreCall.tenure? calls row.key = tenure at hfound
    cases hfound with
    | @some _ t hshown =>
      rw [isLive_of_shows hshown hlimit] at hlive
      exact ⟨(row.key, t.last.execution),
        ⟨⟨t, htenure, of_decide_eq_true hlive, rfl⟩, t, htenure, hshown.funnelId.symm.trans hfunnel⟩,
        Prod.ext rfl hshown.snapshot.symm⟩
  · rintro ⟨⟨key, e⟩, ⟨⟨t, ht, hlive, rfl⟩, t', ht', hfunnel⟩, rfl⟩
    obtain rfl : t = t' := Option.some.inj (ht.symm.trans ht')
    have hfound := hshows key
    rw [ht] at hfound
    generalize hrow : store.row? key = found at hfound
    cases hfound with
    | @some row _ hshown =>
      obtain ⟨hstore, rfl⟩ := hkeyed.row?_eq_some_iff.mp hrow
      have hlive : isLive now row = true := by
        rw [isLive_of_shows hshown hlimit]
        exact decide_eq_true hlive
      exact ⟨row, ⟨hstore, hshown.funnelId.trans hfunnel, hlive⟩, Prod.ext rfl hshown.snapshot⟩

/-- A listing that is long enough reads all rows of the funnel, in some order. -/
theorem exists_list_eq {store : TableStore} {funnelId : String}
    (hroom : (rowsOf store now funnelId).length ≤ limit) :
    ∃ rows : List SnapshotRow, rows.Perm (rowsOf store now funnelId) ∧
      list store now funnelId limit = rows.mapM fun row => row.snapshot.read := by
  refine ⟨_, List.mergeSort_perm _ fun a b => !decide (a.updatedAt < b.updatedAt), ?_⟩
  rw [list, ← rowsOf, List.take_of_length_le]
  rwa [List.length_mergeSort]

/-- A listing that is long enough succeeds with executions, in some order, exactly if the snapshots
of its rows read as these. -/
theorem list_eq_ok_iff (hnow : ∀ c ∈ calls, c.now ≤ now) (hlimit : now < columnLimit)
    (funnelId : String) (hroom : (StoreCall.current calls now).length ≤ limit)
    {es : List Execution} :
    (∃ listed, list (calls.foldl serve []) now funnelId limit = .ok listed ∧ listed.Perm es) ↔
      ((StoreCall.founded calls now funnelId).map fun entry =>
        (Snapshot.ofExecution entry.2).read).Perm (es.map .ok) := by
  have hpairs := perm_rowsOf hnow hlimit funnelId
  have hlength : (rowsOf (calls.foldl serve []) now funnelId).length ≤ limit := by
    have hsame := hpairs.length_eq
    rw [List.length_map, List.length_map] at hsame
    exact hsame.trans_le ((List.length_filter_le _ _).trans hroom)
  obtain ⟨rows, hrows, hlist⟩ := exists_list_eq hlength
  have hreads : (rows.map fun row => row.snapshot.read).Perm
      ((StoreCall.founded calls now funnelId).map fun entry =>
        (Snapshot.ofExecution entry.2).read) := by
    have hread := hpairs.map fun pair => pair.2.read
    simp only [List.map_map, Function.comp_def] at hread
    exact (hrows.map _).trans hread
  have hreordered := congrFun (congrFun (List.eq_map_comp_perm (Except.ok (ε := StoreFault)))
    (rows.map fun row => row.snapshot.read)) es
  rw [hlist]
  simp only [mapM_eq_ok_iff]
  exact (Iff.of_eq hreordered).trans ⟨hreads.symm.trans, hreads.trans⟩

end TableStore

namespace StoreCall

variable {calls : List StoreCall} {now : Nat}

theorem isProper_of_mem_current
    (hproper : ∀ c ∈ calls, ∀ key, ∀ d ∈ c.deposit? key, d.execution.IsProper)
    {entry : String × Execution} (h : entry ∈ current calls now) : entry.2.IsProper := by
  obtain ⟨d, hlast, -, he⟩ := mem_current.mp h
  obtain ⟨c, hc, hset⟩ := exists_deposit?_of_lastDeposit? hlast
  exact he ▸ hproper c hc entry.1 d hset

/-- **A funnel's listing is right exactly when the columns are**, however often keys were set before,
under any funnels, looked up and purged. Every row shows the funnel and the identifier of the
execution that came to it first, and the status, the snapshot and the time of expiry of the one that
came last. A listing that is long enough hands out, each once, the executions to be seen whose row
one of its funnel came first to, if all of these can be read back. So it hands out the executions of
the funnel, none of another and none missing, exactly if every row to be seen came with the funnel
that it has now, as far as this one is concerned, and the funnel's executions can be read back. -/
theorem listed_exactly_iff
    (hproper : ∀ c ∈ calls, ∀ key, ∀ d ∈ c.deposit? key, d.execution.IsProper)
    (hnow : ∀ c ∈ calls, c.now ≤ now) (hlimit : now < TableStore.columnLimit) (funnelId : String)
    {limit : Nat} (hroom : (current calls now).length ≤ limit) :
    let store := calls.foldl TableStore.serve []
    let lists (entries : List (String × Execution)) := ∃ listed,
      store.list now funnelId limit = .ok listed ∧
        listed.Perm (entries.map fun entry => entry.2.recalled)
    let fits (entry : String × Execution) := entry.2.toJson.nesting ≤ Source.depthLimit
    (∀ row ∈ store, ∃ t, tenure? calls row.key = some t ∧ row.Shows t) ∧
      ((∀ entry ∈ founded calls now funnelId, fits entry) → lists (founded calls now funnelId)) ∧
      (lists (owned calls now funnelId) ↔
        ∀ entry ∈ current calls now,
          (founder? calls entry.1 = some funnelId ↔ entry.2.funnelId = funnelId) ∧
            (entry.2.funnelId = funnelId → fits entry)) := by
  intro store lists fits
  have hread (entry) (h : entry ∈ current calls now) := Snapshot.read_ofExecution
    (isProper_of_mem_current hproper h)
  have hlists (entries) : lists entries ↔ ((founded calls now funnelId).map fun entry =>
      (Snapshot.ofExecution entry.2).read).Perm
        ((entries.map fun entry => entry.2.recalled).map .ok) :=
    TableStore.list_eq_ok_iff hnow hlimit funnelId hroom
  have hfits (h : ∀ entry ∈ founded calls now funnelId, fits entry) :
      lists (founded calls now funnelId) := by
    refine (hlists _).mpr (.of_eq ?_)
    rw [List.map_map]
    refine List.map_congr_left fun entry hentry => ?_
    exact (hread entry (List.mem_of_mem_filter hentry)).trans (if_pos (h entry hentry))
  refine ⟨?_, hfits, ?_, ?_⟩
  · intro row hrow
    have hkeyed : TableStore.IsKeyed store := TableStore.serves.sound_foldl List.Pairwise.nil calls
    have hearly (c : StoreCall) (hc : c ∈ calls) : c.now < TableStore.columnLimit :=
      Nat.lt_of_le_of_lt (hnow c hc) hlimit
    have hshows := TableStore.shows_foldl hearly row.key
    rw [hkeyed.row?_eq_some_iff.mpr ⟨hrow, rfl⟩] at hshows
    generalize tenure? calls row.key = tenure at hshows ⊢
    cases hshows with
    | @some _ t hshown => exact ⟨t, rfl, hshown⟩
  · intro h
    have hperm := (hlists _).mp h
    -- What is listed is read, and is the funnel's.
    have hsub (entry) (hentry : entry ∈ founded calls now funnelId) :
        fits entry ∧ entry.2.funnelId = funnelId := by
      have hmem := hperm.subset (List.mem_map_of_mem hentry)
      rw [hread entry (List.mem_of_mem_filter hentry), List.map_map, List.mem_map] at hmem
      obtain ⟨other, hother, hsame⟩ := hmem
      split at hsame
      next hfit =>
        obtain ⟨-, hfunnel⟩ := List.mem_filter.mp hother
        have hfunnels := congrArg Execution.funnelId (Except.ok.inj hsame)
        exact ⟨hfit, hfunnels.symm.trans (beq_iff_eq.mp hfunnel)⟩
      next => cases hsame
    -- As it is all that is the funnel's, there are no others.
    have hsublist : (founded calls now funnelId).Sublist (owned calls now funnelId) := by
      have hfilter : founded calls now funnelId = (owned calls now funnelId).filter fun entry =>
          founder? calls entry.1 == some funnelId := by
        rw [owned, List.filter_filter]
        refine List.filter_congr fun entry hentry => ?_
        cases hfounded : founder? calls entry.1 == some funnelId with
        | false => rfl
        | true => simp [(hsub entry (List.mem_filter.mpr ⟨hentry, hfounded⟩)).2]
      rw [hfilter]
      exact List.filter_sublist
    have hsame := hsublist.eq_of_length (by simpa using hperm.length_eq)
    intro entry hentry
    have hiff : entry ∈ founded calls now funnelId ↔ entry ∈ owned calls now funnelId := by
      rw [hsame]
    simp only [founded, owned, List.mem_filter, hentry, true_and, beq_iff_eq] at hiff
    refine ⟨hiff, fun hfunnel => (hsub entry ?_).1⟩
    exact List.mem_filter.mpr ⟨hentry, beq_iff_eq.mpr (hiff.mpr hfunnel)⟩
  · intro h
    have hsame : owned calls now funnelId = founded calls now funnelId := by
      refine List.filter_congr fun entry hentry => ?_
      simpa [beq_eq_decide] using (h entry hentry).1.symm
    rw [hsame]
    refine hfits fun entry hentry => ?_
    obtain ⟨hcurrent, hfunnel⟩ := List.mem_filter.mp (hsame ▸ hentry)
    exact (h entry hcurrent).2 (beq_iff_eq.mp hfunnel)

end StoreCall

/-! ## A key that is set again -/

namespace Execution

/-- An execution in which nothing has happened yet. -/
def fresh (funnelId : String) : Execution :=
  create ⟨default, fun _ => default⟩ funnelId none []

theorem isProper_fresh (funnelId : String) : (fresh funnelId).IsProper where
  id := Identifier.isProper_default
  vars := .object List.Pairwise.nil nofun
  logs := nofun
  errors := nofun
  startedAt := Instant.isProper_default
  endedAt := nofun
  metadata := .object List.Pairwise.nil nofun

theorem nesting_fresh (funnelId : String) : (fresh funnelId).toJson.nesting = 2 := by
  rw [toJson_eq]
  simp [fresh, create, entries, WrittenEntry.present, WrittenEntry.of, Layout.written,
    Json.identifier, Json.instant, Json.nesting, Json.itemsNesting, Json.membersNesting]

end Execution

namespace StoreCall

/-- A key that is set again for its own funnel is listed there, beside another key of the funnel,
and what another funnel has is not. -/
theorem renewed_key_listed :
    let calls : List StoreCall := [⟨0, .set default "k" (.fresh "a") 60⟩,
      ⟨1, .set default "l" (.fresh "a") 60⟩, ⟨2, .set default "m" (.fresh "b") 60⟩,
      ⟨3, .set default "k" (.fresh "a") 60⟩]
    ∃ listed, (calls.foldl TableStore.serve []).list 4 "a" 3 = .ok listed ∧
      listed.Perm [(Execution.fresh "a").recalled, (Execution.fresh "a").recalled] := by
  intro calls
  have hproper : ∀ c ∈ calls, ∀ key, ∀ d ∈ c.deposit? key, d.execution.IsProper := by
    simp only [calls, List.forall_mem_cons, deposit?, Option.mem_def, Option.ite_none_right_eq_some]
    refine ⟨?_, ?_, ?_, ?_, List.forall_mem_nil _⟩ <;> rintro _ _ ⟨-, ⟨⟩⟩ <;>
      exact Execution.isProper_fresh _
  have hnow : ∀ c ∈ calls, c.now ≤ 4 := by decide
  have hcurrent : current calls 4 = [("l", .fresh "a"), ("m", .fresh "b"), ("k", .fresh "a")] := rfl
  obtain ⟨-, -, hexactly⟩ := listed_exactly_iff hproper hnow (by decide) "a"
    (congrArg List.length hcurrent).le
  have hfits (funnelId : String) : (Execution.fresh funnelId).toJson.nesting ≤ Source.depthLimit := by
    rw [Execution.nesting_fresh]
    decide
  refine hexactly.mpr ?_
  rw [hcurrent]
  simp only [List.forall_mem_cons]
  have hother : (Execution.fresh "b").funnelId ≠ "a" := by decide
  exact ⟨⟨iff_of_true rfl rfl, fun _ => hfits "a"⟩,
    ⟨iff_of_false (by decide) hother, fun h => absurd h hother⟩,
    ⟨iff_of_true rfl rfl, fun _ => hfits "a"⟩, List.forall_mem_nil _⟩

/-- **A key that is set again for another funnel stays listed under its first one**: there it is
handed out as what it is now, and its own funnel lacks it. -/
theorem moved_key_misplaced :
    let calls : List StoreCall := [⟨0, .set default "k" (.fresh "a") 60⟩,
      ⟨1, .set default "k" (.fresh "b") 60⟩]
    let store := calls.foldl TableStore.serve []
    current calls 2 = [("k", .fresh "b")] ∧ store.list 2 "b" 1 = .ok [] ∧
      store.list 2 "a" 1 = .ok [(Execution.fresh "b").recalled] := by
  intro calls store
  have hread : (Snapshot.ofExecution (.fresh "b")).read = .ok (Execution.fresh "b").recalled := by
    rw [Snapshot.read_ofExecution (Execution.isProper_fresh "b"), Execution.nesting_fresh]
    rfl
  have hother : store.rowsOf 2 "b" = [] := rfl
  obtain ⟨row, hrow, hsnapshot⟩ : ∃ row, store.rowsOf 2 "a" = [row] ∧
      row.snapshot = .ofExecution (.fresh "b") := ⟨_, rfl, rfl⟩
  refine ⟨rfl, ?_, ?_⟩
  · have hroom : (store.rowsOf 2 "b").length ≤ 1 := by simp [hother]
    obtain ⟨rows, hrows, hlist⟩ := TableStore.exists_list_eq hroom
    rw [hother, List.perm_nil] at hrows
    rw [hlist, hrows]
    rfl
  · have hroom : (store.rowsOf 2 "a").length ≤ 1 := by simp [hrow]
    obtain ⟨rows, hrows, hlist⟩ := TableStore.exists_list_eq hroom
    rw [hrow, List.perm_singleton] at hrows
    rw [hlist, hrows, mapM_eq_ok_iff]
    simp [hsnapshot, hread]

end StoreCall

end Outreach
