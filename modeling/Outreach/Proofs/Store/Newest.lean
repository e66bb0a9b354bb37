import Outreach.Proofs.Store.Listing
import Outreach.Proofs.Time.Order

/-!
# What a table lists first

A listing is sorted by the text of the time at which a row was written, and cut off behind its limit.
The texts are in the order of the instants (`Instant.bytes_lt_iff`), and a row bears the text of the
last set of its key (`TableStore.written_foldl`); so the listing begins with what was set last
(`StoreCall.listed_newest_first`). Setting a key again moves its row to the front.
-/

namespace Outreach

namespace StoreCall

/-- The instant that a call writes into a row. -/
def written? (c : StoreCall) : Option Instant :=
  match c.order with
  | .set written _ _ _ => some written
  | .get _ | .purge => none

/-- The instant that a call writes into the row of a key. -/
def writtenFor? (key : String) (c : StoreCall) : Option Instant :=
  if c.key? = some key then c.written? else none

/-- The instant at which a key was set last. -/
def lastWritten? (calls : List StoreCall) (key : String) : Option Instant :=
  calls.reverse.findSome? (writtenFor? key)

/-- One key was set last at a later instant than another. -/
def IsNewer (calls : List StoreCall) (key other : String) : Prop :=
  ∃ s t, lastWritten? calls other = some s ∧ lastWritten? calls key = some t ∧ s.before t = true

/-- What a caller of a table keeps to: the clock gives every set an instant of its own, later than
those before it and in a year of four digits, and a key is set for one funnel. -/
structure AreOrderly (calls : List StoreCall) : Prop where
  proper : ∀ c ∈ calls, ∀ key, ∀ d ∈ c.deposit? key, d.execution.IsProper
  common : ∀ c ∈ calls, ∀ t ∈ c.written?, t.IsCommon
  increasing : (calls.filterMap written?).Pairwise fun s t => s.before t = true
  funnels : ∀ c ∈ calls, ∀ c' ∈ calls, ∀ key, ∀ d ∈ c.deposit? key, ∀ d' ∈ c'.deposit? key,
    d.execution.funnelId = d'.execution.funnelId

variable {calls : List StoreCall} {c : StoreCall} {key key' : String} {t : Instant} {now : Nat}

theorem writtenFor?_eq_some_iff :
    writtenFor? key c = some t ↔ c.key? = some key ∧ c.written? = some t :=
  Option.ite_none_right_eq_some

theorem lastWritten?_concat (calls : List StoreCall) (c : StoreCall) (key : String) :
    lastWritten? (calls ++ [c]) key = (writtenFor? key c).or (lastWritten? calls key) := by
  rw [lastWritten?, List.reverse_append, List.reverse_singleton, List.singleton_append,
    List.findSome?_cons]
  cases writtenFor? key c <;> rfl

theorem exists_written_of_lastWritten? (h : lastWritten? calls key = some t) :
    ∃ c ∈ calls, c.key? = some key ∧ c.written? = some t := by
  obtain ⟨c, hc, hset⟩ := List.exists_of_findSome?_eq_some h
  exact ⟨c, List.mem_reverse.mp hc, writtenFor?_eq_some_iff.mp hset⟩

/-- Different keys were set last at different instants. -/
theorem AreOrderly.key_eq (h : AreOrderly calls) (hkey : lastWritten? calls key = some t)
    (hkey' : lastWritten? calls key' = some t) : key = key' := by
  obtain ⟨c, hc, hset, hwritten⟩ := exists_written_of_lastWritten? hkey
  obtain ⟨c', hc', hset', hwritten'⟩ := exists_written_of_lastWritten? hkey'
  have hapart : calls.Pairwise fun c c' =>
      c = c' ∨ ∀ s ∈ c.written?, ∀ t ∈ c'.written?, s ≠ t := by
    refine (List.pairwise_filterMap.mp h.increasing).imp fun hbefore => .inr ?_
    rintro s hs _ ht rfl
    simpa [Instant.before] using hbefore s hs s ht
  have : Std.Symm fun c c' : StoreCall =>
      c = c' ∨ ∀ s ∈ c.written?, ∀ t ∈ c'.written?, s ≠ t :=
    ⟨fun _ _ h => h.imp Eq.symm fun h s hs t ht => (h t ht s hs).symm⟩
  rcases hapart.forall_of_forall (fun _ _ => .inl rfl) hc hc' with rfl | hne
  · exact Option.some.inj (hset.symm.trans hset')
  · exact absurd rfl (hne t hwritten t hwritten')

/-- The sets to which a row goes back are among the calls. -/
theorem exists_deposit?_of_tenure? {tenure : Tenure} (h : tenure? calls key = some tenure) :
    (∃ c ∈ calls, c.deposit? key = some tenure.first) ∧
      ∃ c ∈ calls, c.deposit? key = some tenure.last := by
  induction calls using List.reverseRecOn generalizing tenure with
  | nil => cases h
  | append_singleton calls c ih =>
    have hearlier {d : Deposit} (h : ∃ c ∈ calls, c.deposit? key = some d) :
        ∃ c' ∈ calls ++ [c], c'.deposit? key = some d :=
      h.imp fun c' h => ⟨List.mem_append_left _ h.1, h.2⟩
    rw [tenure?, List.foldl_append, List.foldl_cons, List.foldl_nil, ← tenure?] at h
    obtain ⟨time, order⟩ := c
    cases order with
    | set written other e seconds =>
      by_cases hkey : other = key
      · have hlast : ∃ c' ∈ calls ++ [⟨time, .set written other e seconds⟩],
            c'.deposit? key = some ⟨time, e, seconds⟩ :=
          ⟨_, List.mem_append_right _ (List.mem_singleton_self _), if_pos hkey⟩
        simp only [turn, if_pos hkey, Option.some_inj] at h
        subst h
        cases hfound : tenure? calls key with
        | none => exact ⟨hlast, hlast⟩
        | some old => exact ⟨hearlier (ih hfound).1, hlast⟩
      · simp only [turn, if_neg hkey] at h
        exact (ih h).imp hearlier hearlier
    | get => exact (ih h).imp hearlier hearlier
    | purge =>
      have hold := (Option.filter_eq_some_iff.mp h).1
      exact (ih hold).imp hearlier hearlier

/-- If a key is set for one funnel, the executions whose row one of a funnel came first to are the
executions of that funnel. -/
theorem AreOrderly.founded_eq (h : AreOrderly calls) (hnow : ∀ c ∈ calls, c.now ≤ now)
    (funnelId : String) : founded calls now funnelId = owned calls now funnelId := by
  refine List.filter_congr fun entry hentry => ?_
  obtain ⟨t, ht, -, he⟩ := (mem_current_iff_tenure? hnow).mp hentry
  obtain ⟨⟨c, hc, hfirst⟩, c', hc', hlast⟩ := exists_deposit?_of_tenure? ht
  have hsame := h.funnels c hc c' hc' entry.1 t.first hfirst t.last hlast
  rw [founder?, ht, Option.map_some, hsame, he, Option.some_beq_some]

end StoreCall

namespace TableStore

variable {calls : List StoreCall} {key : String} {row : SnapshotRow} {now limit : Nat}

/-- A row bears the instant at which its key was set last. -/
theorem written_foldl (h : row? (calls.foldl serve []) key = some row) :
    ∃ t, StoreCall.lastWritten? calls key = some t ∧ row.updatedAt = t.renderNumeric := by
  induction calls using List.reverseRecOn generalizing row with
  | nil => cases h
  | append_singleton calls c ih =>
    have hkeyed : IsKeyed (calls.foldl serve []) := serves.sound_foldl List.Pairwise.nil calls
    rw [List.foldl_append, List.foldl_cons, List.foldl_nil] at h
    rw [StoreCall.lastWritten?_concat]
    generalize calls.foldl serve [] = store at ih hkeyed h
    obtain ⟨time, order⟩ := c
    cases order with
    | set written other e seconds =>
      by_cases hkey : other = key
      · subst hkey
        have hrow : (store.set time written other e seconds).row? other =
            some (((store.row? other).map
              (renew · (TableStore.row time written other e seconds))).getD
                (TableStore.row time written other e seconds)) :=
          row?_upsert (TableStore.row time written other e seconds) store
        obtain rfl := Option.some.inj (hrow.symm.trans h)
        refine ⟨written, by simp [StoreCall.writtenFor?, StoreCall.key?, StoreCall.written?], ?_⟩
        cases store.row? other <;> rfl
      · have hrow : (store.set time written other e seconds).row? key = store.row? key :=
          row?_upsert_of_ne hkey store
        rw [StoreCall.writtenFor?, if_neg (by simpa [StoreCall.key?] using hkey), Option.none_or]
        exact ih (hrow.symm.trans h)
    | get => exact ih h
    | purge =>
      rw [serve, purge, hkeyed.row?_filter] at h
      exact ih (Option.filter_eq_some_iff.mp h).1

/-- The rows of a listing, the text that is larger first. -/
def sortedRows (store : TableStore) (now : Nat) (funnelId : String) : List SnapshotRow :=
  (rowsOf store now funnelId).mergeSort fun a b => !decide (a.updatedAt < b.updatedAt)

theorem sortedRows_pairwise (store : TableStore) (now : Nat) (funnelId : String) :
    (sortedRows store now funnelId).Pairwise fun a b => ¬ a.updatedAt < b.updatedAt := by
  have hiff (a b : SnapshotRow) :
      (!decide (a.updatedAt < b.updatedAt)) = true ↔ b.updatedAt ≤ a.updatedAt := by
    rw [Bool.not_eq_true', decide_eq_false_iff_not, String.not_lt]
  have htotal (a b : SnapshotRow) :
      (!decide (a.updatedAt < b.updatedAt) || !decide (b.updatedAt < a.updatedAt)) = true :=
    Bool.or_eq_true_iff.mpr
      ((String.le_total b.updatedAt a.updatedAt).imp (hiff a b).mpr (hiff b a).mpr)
  have hsorted := List.pairwise_mergeSort (fun a b c hab hbc =>
    (hiff a c).mpr (String.le_trans ((hiff b c).mp hbc) ((hiff a b).mp hab))) htotal
      (rowsOf store now funnelId)
  exact hsorted.imp fun hle => String.not_lt.mpr ((hiff _ _).mp hle)

/-- The rows of a listing are sorted by the instants of the last sets of their keys. -/
theorem sortedRows_newest_first (h : StoreCall.AreOrderly calls) (now : Nat) (funnelId : String) :
    (sortedRows (calls.foldl serve []) now funnelId).Pairwise fun a b =>
      StoreCall.IsNewer calls a.key b.key := by
  have hkeyed : IsKeyed (calls.foldl serve []) := serves.sound_foldl List.Pairwise.nil calls
  have hperm : (sortedRows (calls.foldl serve []) now funnelId).Perm
      (rowsOf (calls.foldl serve []) now funnelId) := List.mergeSort_perm _ _
  have hbears (row) (hrow : row ∈ sortedRows (calls.foldl serve []) now funnelId) :
      ∃ t, StoreCall.lastWritten? calls row.key = some t ∧ row.updatedAt = t.renderNumeric := by
    have hstore := List.mem_of_mem_filter (hperm.subset hrow)
    exact written_foldl (hkeyed.row?_eq_some_iff.mpr ⟨hstore, rfl⟩)
  have hcommon {key t} (hwritten : StoreCall.lastWritten? calls key = some t) : t.IsCommon := by
    obtain ⟨c, hc, -, hset⟩ := StoreCall.exists_written_of_lastWritten? hwritten
    exact h.common c hc t hset
  have hkeys : (sortedRows (calls.foldl serve []) now funnelId).Pairwise fun a b => a.key ≠ b.key :=
    (hperm.pairwise_iff Ne.symm).mpr (hkeyed.filter _)
  refine ((sortedRows_pairwise _ now funnelId).and hkeys).imp_of_mem fun {a b} ha hb hrows => ?_
  obtain ⟨hsorted, hkey⟩ := hrows
  obtain ⟨t, ht, hta⟩ := hbears a ha
  obtain ⟨s, hs, hsb⟩ := hbears b hb
  refine ⟨s, t, hs, ht, ?_⟩
  -- The keys are different, so the instants are.
  rcases Instant.before_trichotomy s t with hbefore | rfl | hafter
  · exact hbefore
  · exact absurd (h.key_eq ht hs) hkey
  · rw [hta, hsb] at hsorted
    exact absurd (Instant.text_lt (hcommon ht) (hcommon hs) hafter) hsorted

/-- Every listing of a funnel reads the first rows of the funnel's executions in one order. -/
theorem list_eq_mapM {store : TableStore} {funnelId : String} {entries : List (String × Execution)}
    (h : (sortedRows store now funnelId).map (fun row => (row.key, row.snapshot)) =
      entries.map fun entry => (entry.1, Snapshot.ofExecution entry.2)) (limit : Nat) :
    list store now funnelId limit =
      (entries.take limit).mapM fun entry => (Snapshot.ofExecution entry.2).read := by
  have hlist : list store now funnelId limit =
      ((sortedRows store now funnelId).take limit).mapM fun row => row.snapshot.read := rfl
  have hread := congrArg (fun pairs => (pairs.take limit).mapM fun pair => pair.2.read) h
  simp only [← List.map_take, List.mapM_map, Function.comp_def] at hread
  rw [hlist, hread]

end TableStore

namespace StoreCall

variable {calls : List StoreCall} {now : Nat}

/-- **A listing begins with what was set last.** The executions of a funnel that are to be seen are
in one order, that of the instants at which their keys were set last, the latest first; and a listing
of any length reads the first ones of them, each as it was set last, and fails only where one among
these is nested too deeply to be read. The table sorts by the texts of the instants: their bytes are
in the order of the instants, with no fraction or one of three, six or nine digits. -/
theorem listed_newest_first (h : AreOrderly calls) (hnow : ∀ c ∈ calls, c.now ≤ now)
    (hlimit : now < TableStore.columnLimit) (funnelId : String) :
    (∀ s t : Instant, s.IsCommon → t.IsCommon →
      (s.renderNumeric.toUTF8.data.toList < t.renderNumeric.toUTF8.data.toList ↔
        s.before t = true)) ∧
    ∃ listed : List (String × Execution), listed.Perm (owned calls now funnelId) ∧
      (listed.Pairwise fun a b => IsNewer calls a.1 b.1) ∧
      ∀ limit, (calls.foldl TableStore.serve []).list now funnelId limit =
        (listed.take limit).mapM fun entry =>
          if entry.2.toJson.nesting ≤ Source.depthLimit then .ok entry.2.recalled
          else .error (.serialization Fault.malformed.message) := by
  refine ⟨fun s t => Instant.bytes_lt_iff, ?_⟩
  have hrows := TableStore.perm_rowsOf hnow hlimit funnelId
  rw [h.founded_eq hnow] at hrows
  have hsorted : ((TableStore.sortedRows (calls.foldl TableStore.serve []) now funnelId).map
      fun row => (row.key, row.snapshot)).Perm
        ((owned calls now funnelId).map fun entry => (entry.1, Snapshot.ofExecution entry.2)) :=
    ((List.mergeSort_perm _ _).map _).trans hrows
  -- The executions in the order of the rows.
  have hcomp := (congrFun (congrFun (List.eq_map_comp_perm fun entry : String × Execution =>
    (entry.1, Snapshot.ofExecution entry.2)) _) _).mpr hsorted
  obtain ⟨listed, hlisted, hperm⟩ := hcomp
  have hkeys := congrArg (List.map Prod.fst) hlisted
  simp only [List.map_map, Function.comp_def] at hkeys
  refine ⟨listed, hperm, ?_, fun limit => ?_⟩
  · have hnewest : (listed.map fun entry => entry.1).Pairwise (IsNewer calls) := by
      rw [← hkeys]
      exact List.pairwise_map.mpr (TableStore.sortedRows_newest_first h now funnelId)
    exact List.pairwise_map.mp hnewest
  · have hread (entry) (hentry : entry ∈ listed.take limit) : (Snapshot.ofExecution entry.2).read =
        if entry.2.toJson.nesting ≤ Source.depthLimit then .ok entry.2.recalled
        else .error (.serialization Fault.malformed.message) := by
      have howned := hperm.subset (List.mem_of_mem_take hentry)
      exact Snapshot.read_ofExecution
        (isProper_of_mem_current h.proper (List.mem_of_mem_filter howned))
    have hmapped := congrArg (List.mapM id) (List.map_congr_left hread)
    simp only [List.mapM_map, Function.id_comp] at hmapped
    rw [TableStore.list_eq_mapM hlisted, hmapped]

/-- A key that is set again a nanosecond after a whole second is listed before one that was set half a
second earlier, though its text was the first one in the table. -/
theorem renewed_key_first :
    let calls : List StoreCall := [⟨0, .set ⟨0, 500000000⟩ "k" (.replied 1) 60⟩,
      ⟨1, .set ⟨0, 500001000⟩ "l" (.replied 2) 60⟩, ⟨2, .set ⟨1, 1⟩ "k" (.replied 3) 60⟩]
    let store := calls.foldl TableStore.serve []
    store.list 3 "welcome" 1 = .ok [(Execution.replied 3).recalled] ∧
      store.list 3 "welcome" 9 =
        .ok [(Execution.replied 3).recalled, (Execution.replied 2).recalled] := by
  intro calls store
  have hdeposit {c : StoreCall} (hc : c ∈ calls) {key : String} {d : Deposit}
      (hd : c.deposit? key = some d) : ∃ depth, d.execution = .replied depth := by
    revert c
    simp only [calls, List.forall_mem_cons, deposit?, Option.ite_none_right_eq_some]
    refine ⟨?_, ?_, ?_, List.forall_mem_nil _⟩ <;> rintro ⟨-, ⟨⟩⟩ <;> exact ⟨_, rfl⟩
  have horderly : AreOrderly calls := {
    proper := fun c hc key d hd => by
      obtain ⟨depth, he⟩ := hdeposit hc hd
      exact he ▸ Execution.isProper_replied depth
    common := by
      simp only [calls, List.forall_mem_cons, written?, Option.mem_def, Option.some_inj, forall_eq']
      refine ⟨?_, ?_, ?_, List.forall_mem_nil _⟩ <;> exact ⟨⟨by decide, by decide⟩, by decide⟩
    increasing := by
      change List.Pairwise _ [(⟨0, 500000000⟩ : Instant), ⟨0, 500001000⟩, ⟨1, 1⟩]
      decide
    funnels := fun c hc c' hc' key d hd d' hd' => by
      obtain ⟨depth, he⟩ := hdeposit hc hd
      obtain ⟨depth', he'⟩ := hdeposit hc' hd'
      rw [he, he']
      rfl }
  have hnow : ∀ c ∈ calls, c.now ≤ 3 := by decide
  obtain ⟨-, listed, hperm, hnewest, hlist⟩ := listed_newest_first horderly hnow (by decide) "welcome"
  have howned : owned calls 3 "welcome" = [("l", .replied 2), ("k", .replied 3)] := rfl
  have hk : lastWritten? calls "k" = some ⟨1, 1⟩ := rfl
  have hl : lastWritten? calls "l" = some ⟨0, 500001000⟩ := rfl
  obtain ⟨a, b, rfl⟩ := List.length_eq_two.mp (hperm.trans (.of_eq howned)).length_eq
  have ha : a ∈ [("l", .replied 2), ("k", .replied 3)] := hperm.subset List.mem_cons_self
  have hb : b ∈ [("l", .replied 2), ("k", .replied 3)] :=
    hperm.subset (List.mem_cons_of_mem _ List.mem_cons_self)
  have hlater : IsNewer calls a.1 b.1 := List.rel_of_pairwise_cons hnewest List.mem_cons_self
  -- Of the ways to fill the two places only one has the later instant first.
  obtain ⟨rfl, rfl⟩ : a = ("k", .replied 3) ∧ b = ("l", .replied 2) := by
    simp only [List.mem_cons, List.not_mem_nil, or_false] at ha hb
    rcases ha with rfl | rfl <;> rcases hb with rfl | rfl <;>
      simp [IsNewer, hk, hl, Instant.before] at hlater ⊢
  have hfits (depth : Nat) (h : 0 < depth ∧ depth ≤ 3) :
      (Execution.replied depth).toJson.nesting ≤ Source.depthLimit := by
    rw [Execution.nesting_replied h.1]
    exact Nat.le_trans (Nat.add_le_add_right h.2 2) (by decide)
  refine ⟨(hlist 1).trans ?_, (hlist 9).trans ?_⟩
  · rw [mapM_eq_ok_iff]
    simp [hfits]
  · rw [mapM_eq_ok_iff]
    simp [hfits]

end StoreCall

end Outreach
