import Outreach.Execution.Codec
import Outreach.Proofs.Json.Written

/-!
# Reading what was written

A reader reads a written value back (`Reader.ReadsBack`) if it gets from it what it was written for,
exactly when its containers are nested no deeper than a text is read, and finds the text malformed
otherwise. The readers for texts, lists, objects and free-form values do, and a record type does if
the reader of each of its fields does (`Layout.readsBack`).
-/

namespace Outreach

/-! ## How deep a value is nested -/

namespace Json

mutual

/-- The number of containers that stand inside each other, at most. -/
def nesting : Json → Nat
  | .array items => itemsNesting items + 1
  | .object members => membersNesting members + 1
  | .null | .bool _ | .number _ | .string _ => 0

def itemsNesting : List Json → Nat
  | [] => 0
  | item :: rest => max (nesting item) (itemsNesting rest)

def membersNesting : List (String × Json) → Nat
  | [] => 0
  | (_, value) :: rest => max (nesting value) (membersNesting rest)

end

end Json

open Source (depthLimit asWritten itemsAsWritten_eq membersAsWritten_eq)

namespace Reads

variable {α β : Type}

/-- Read, unless containers are nested up to a depth at which they cannot be. -/
def within (reached : Nat) (a : α) : Reads α :=
  if reached ≤ depthLimit then .ok a else .error .malformed

theorem within_of_le {reached : Nat} (h : reached ≤ depthLimit) (a : α) :
    within reached a = .ok a := if_pos h

theorem within_of_lt {reached : Nat} (h : depthLimit < reached) (a : α) :
    within reached a = .error .malformed := if_neg (Nat.not_le.mpr h)

theorem map_within (f : α → β) (reached : Nat) (a : α) :
    (within reached a).map f = within reached (f a) := by
  by_cases h : reached ≤ depthLimit <;> simp [within, h, Except.map]

theorem within_bind_ok (f : α → β) (reached : Nat) (a : α) :
    (within reached a >>= fun x => .ok (f x)) = within reached (f a) := by
  by_cases h : reached ≤ depthLimit <;> simp [within, h] <;> rfl

/-- Two readings after each other reach as deep as the deeper one. -/
theorem within_bind {reached other : Nat} {a : α} {b : β} {next : α → Reads β}
    (h : next a = within other b) :
    (within reached a >>= next) = within (max reached other) b := by
  by_cases hreached : reached ≤ depthLimit
  · have hboth : max reached other ≤ depthLimit ↔ other ≤ depthLimit := by omega
    rw [within_of_le hreached]
    refine h.trans ?_
    simp only [within, hboth]
  · rw [within_of_lt (Nat.not_le.mp hreached), within_of_lt (by omega)]
    rfl

end Reads

/-- A reader gets `a` from a text in which `v` is written, exactly if the text is not nested too
deep. -/
structure Reader.ReadsBack {α : Type} (read : Reader α) (v : Json) (a : α) : Prop where
  proper : v.IsProper
  within : ∀ depth ≤ depthLimit, read .json (asWritten depth v) = .within (depth + v.nesting) a

namespace Reader

variable {α β : Type}

/-! ## Free-form values -/

theorem anyItems_map {items : List Json} {depth : Nat} (hdepth : depth ≤ depthLimit)
    (h : ∀ item ∈ items, anyValue (asWritten depth item) = .within (depth + item.nesting) item) :
    anyItems (items.map (asWritten depth)) = .within (depth + Json.itemsNesting items) items := by
  induction items with
  | nil => exact (Reads.within_of_le hdepth _).symm
  | cons item rest ih =>
    obtain ⟨hitem, hrest⟩ := List.forall_mem_cons.mp h
    rw [List.map_cons, anyItems, hitem, Json.itemsNesting, ← Nat.add_max_add_left]
    refine Reads.within_bind ?_
    rw [ih hrest, Reads.within_bind_ok]

theorem anyEntries_mapValues {members : Members Json} {depth : Nat} (hdepth : depth ≤ depthLimit)
    (h : ∀ entry ∈ members,
      anyValue (asWritten depth entry.2) = .within (depth + entry.2.nesting) entry.2) :
    anyEntries (members.mapValues (asWritten depth)) =
      .within (depth + Json.membersNesting members) members := by
  induction members with
  | nil => exact (Reads.within_of_le hdepth _).symm
  | cons entry rest ih =>
    obtain ⟨name, value⟩ := entry
    obtain ⟨hvalue, hrest⟩ := List.forall_mem_cons.mp h
    rw [Json.membersNesting, ← Nat.add_max_add_left]
    change (anyValue (asWritten depth value) >>= _) = _
    rw [hvalue]
    refine Reads.within_bind ?_
    change (anyEntries (Members.mapValues _ rest) >>= _) = _
    rw [ih hrest, Reads.within_bind_ok]

/-- What a container is read as, given what is read of its contents. -/
theorem within_container {depth inner : Nat} (hdepth : depth ≤ depthLimit) {a : α}
    {whole : Source} {read : Source → Reads α}
    (hopen : depth < depthLimit → read whole = .within (depth + 1 + inner) a)
    (hshut : read .unreadable = .error .malformed) :
    read (if depth < depthLimit then whole else .unreadable) = .within (depth + (inner + 1)) a := by
  by_cases h : depth < depthLimit
  · rw [if_pos h, hopen h]
    congr 1
    omega
  · rw [if_neg h, hshut, Reads.within_of_lt (by omega)]

/-- **A free-form value is read back.** -/
theorem anyValue_asWritten {v : Json} (h : v.IsProper) {depth : Nat} (hdepth : depth ≤ depthLimit) :
    anyValue (asWritten depth v) = .within (depth + v.nesting) v := by
  induction h generalizing depth with
  | null => exact (Reads.within_of_le hdepth _).symm
  | bool b => exact (Reads.within_of_le hdepth _).symm
  | string s => exact (Reads.within_of_le hdepth _).symm
  | @number n hn =>
    rw [Json.nesting, Nat.add_zero, Reads.within_of_le hdepth]
    cases n with
    | int i => rfl
    | double d =>
      cases d with
      | nan => cases hn.1
      | infinite => cases hn.2
      | finite => rfl
  | @array items hitems ih =>
    rw [asWritten, itemsAsWritten_eq]
    refine within_container hdepth (fun hopen => ?_) rfl
    rw [anyValue, anyItems_map hopen fun item hitem => ih item hitem hopen]
    exact Reads.within_bind_ok _ _ _
  | @object members hascending hmembers ih =>
    rw [asWritten, membersAsWritten_eq]
    refine within_container hdepth (fun hopen => ?_) rfl
    rw [anyValue, anyEntries_mapValues hopen fun entry hentry => ih entry hentry hopen]
    refine (Reads.within_bind_ok _ _ _).trans ?_
    rw [hascending.ofEntries_eq]

theorem readsBack_any {v : Json} (h : v.IsProper) : any.ReadsBack v v :=
  ⟨h, fun _ hdepth => anyValue_asWritten h hdepth⟩

/-! ## Texts, lists and objects -/

theorem readsBack_text (s : String) : text.ReadsBack (.string s) s :=
  ⟨.string s, fun _ hdepth => (Reads.within_of_le hdepth _).symm⟩

theorem readsBack_bool (b : Bool) : bool.ReadsBack (.bool b) b :=
  ⟨.bool b, fun _ hdepth => (Reads.within_of_le hdepth _).symm⟩

theorem readsBack_nat32 {n : Nat} (h : n < 2 ^ 32) : nat32.ReadsBack (.nat n) n := by
  have hproper : (Number.int n).IsProper := ⟨by omega, by omega⟩
  refine ⟨.number hproper, fun depth hdepth => ?_⟩
  have hbounds : 0 ≤ (n : Int) ∧ (n : Int) < Nat.pow 2 32 := by
    rw [Nat.pow_eq]
    omega
  have hwhole : wholeNumber? (asWritten depth (.nat n)) = some (n : Int) := by
    rw [Json.nat, asWritten]
    rfl
  have hnesting : (Json.nat n).nesting = 0 := rfl
  rw [hnesting, Nat.add_zero, Reads.within_of_le hdepth]
  simp only [nat32, natural, hwhole, if_pos hbounds, Int.toNat_natCast]

theorem readsBack_double {d : Double} (h : (Number.double d).IsProper) :
    double.ReadsBack (.number (.double d)) d :=
  ⟨.number h, fun _ hdepth => (Reads.within_of_le hdepth _).symm⟩

/-- A text that stands for something is read as what it is parsed to. -/
theorem readsBack_parsed {expected s : String} {parse : String → Except Misfit α} {a : α}
    (h : parse s = .ok a) : (parsed expected parse).ReadsBack (.string s) a := by
  refine ⟨.string s, fun depth hdepth => ?_⟩
  rw [Json.nesting, Nat.add_zero, Reads.within_of_le hdepth]
  change (parse s).mapError _ = _
  rw [h]
  rfl

/-- A label that no other thing has is read as the thing. -/
theorem readsBack_labelled {all : List α} {label : α → String} {a : α} (ha : a ∈ all)
    (hlabel : ∀ b ∈ all, label b = label a → b = a) :
    (labelled all label).ReadsBack (.string (label a)) a := by
  refine ⟨.string _, fun depth hdepth => ?_⟩
  rw [Json.nesting, Nat.add_zero, Reads.within_of_le hdepth]
  have hfind : (all.map fun b => (label b, b)).find? (fun entry => entry.1 == label a) =
      some (label a, a) := by
    rw [List.find?_map]
    cases hfound : all.find? ((fun entry => entry.1 == label a) ∘ fun b => (label b, b)) with
    | none => exact absurd (List.find?_eq_none.mp hfound a ha) (by simp)
    | some b =>
      have hsame : label b = label a := by simpa using List.find?_some hfound
      rw [hlabel b (List.mem_of_find?_eq_some hfound) hsame]
      rfl
  simp only [asWritten, labelled, variant, hfind]

/-- Null is read as absent. -/
theorem readsBack_absent (read : Reader α) : (optional read).ReadsBack .null none :=
  ⟨.null, fun _ hdepth => (Reads.within_of_le hdepth _).symm⟩

/-- What is not null is read as present. -/
theorem ReadsBack.optional {read : Reader α} {v : Json} {a : α} (h : read.ReadsBack v a)
    (hv : v.isNull = false) : (optional read).ReadsBack v (some a) := by
  refine ⟨h.proper, fun depth hdepth => ?_⟩
  have hsome : (Reader.optional read) .json (asWritten depth v) =
      (read .json (asWritten depth v)).map some := by
    cases v with
    | null => cases hv
    | bool | number | string => rfl
    | array | object =>
      rw [asWritten]
      split <;> rfl
  rw [hsome, h.within depth hdepth, Reads.map_within]

/-- Items that are read back one by one are read back as a list. -/
theorem ReadsBack.listOf {read : Reader α} {write : β → Json} {back : β → α} {items : List β}
    (h : ∀ item ∈ items, read.ReadsBack (write item) (back item)) :
    (listOf read).ReadsBack (.array (items.map write)) (items.map back) := by
  have hitems {depth : Nat} (hdepth : depth ≤ depthLimit) :
      ((items.map write).map (asWritten depth)).mapM (read .json) =
        .within (depth + Json.itemsNesting (items.map write)) (items.map back) := by
    induction items with
    | nil => exact (Reads.within_of_le hdepth _).symm
    | cons item rest ih =>
      obtain ⟨hitem, hrest⟩ := List.forall_mem_cons.mp h
      simp only [List.map_cons, List.mapM_cons, Json.itemsNesting]
      rw [hitem.within depth hdepth, ← Nat.add_max_add_left]
      refine Reads.within_bind ?_
      rw [ih hrest]
      exact Reads.within_bind_ok _ _ _
  refine ⟨.array (List.forall_mem_map.mpr fun item hitem => (h item hitem).proper),
    fun depth hdepth => ?_⟩
  rw [asWritten, itemsAsWritten_eq]
  refine within_container hdepth (fun hopen => ?_) rfl
  change (((items.map write).map (asWritten (depth + 1))).mapM (read .json) >>= _) = _
  rw [hitems hopen]
  exact Reads.within_bind_ok (fun values => values) _ _

/-- Members in order whose values are read back are read back as members. -/
theorem ReadsBack.membersOf {read : Reader α} {write : β → Json} {back : β → α}
    {members : Members β} (hascending : Members.IsAscending members)
    (h : ∀ entry ∈ members, read.ReadsBack (write entry.2) (back entry.2)) :
    (membersOf read).ReadsBack (.object (members.mapValues write)) (members.mapValues back) := by
  have hentries {depth : Nat} (hdepth : depth ≤ depthLimit) :
      (((members.mapValues write).mapValues (asWritten depth)).mapM fun entry =>
        (read .json entry.2).map fun v => (entry.1, v)) =
        Reads.within (depth + Json.membersNesting (members.mapValues write))
          (members.mapValues back) := by
    clear hascending
    induction members with
    | nil => exact (Reads.within_of_le hdepth _).symm
    | cons entry rest ih =>
      obtain ⟨name, value⟩ := entry
      obtain ⟨hvalue, hrest⟩ := List.forall_mem_cons.mp h
      simp only [Members.mapValues, List.map_cons, List.mapM_cons, Json.membersNesting]
      rw [hvalue.within depth hdepth, ← Nat.add_max_add_left, Reads.map_within]
      refine Reads.within_bind ?_
      have hrest := ih hrest
      simp only [Members.mapValues] at hrest
      rw [hrest]
      exact Reads.within_bind_ok _ _ _
  refine ⟨.object (hascending.mapValues write)
    (List.forall_mem_map.mpr fun entry hentry => (h entry hentry).proper), fun depth hdepth => ?_⟩
  rw [asWritten, membersAsWritten_eq]
  refine within_container hdepth (fun hopen => ?_) rfl
  change ((((members.mapValues write).mapValues (asWritten (depth + 1))).mapM fun entry =>
    (read .json entry.2).map fun v => (entry.1, v)) >>= _) = _
  rw [hentries hopen]
  refine (Reads.within_bind_ok Members.ofEntries _ _).trans ?_
  rw [(hascending.mapValues back).ofEntries_eq]

/-- Free-form members are read back. -/
theorem readsBack_membersOf_any {members : Members Json} (h : (Json.object members).IsProper) :
    (membersOf any).ReadsBack (.object members) members := by
  cases h with
  | object hascending hmembers =>
    have hback : (membersOf any).ReadsBack (.object (Members.mapValues id members))
        (Members.mapValues id members) :=
      ReadsBack.membersOf hascending fun entry hentry => readsBack_any (hmembers entry hentry)
    simpa [Members.mapValues] using hback

end Reader

/-! ## Records -/

/-- An entry that is written of a record, and what reading it does to a record. -/
structure WrittenEntry (α : Type) where
  name : String
  value : Json
  update : α → α

namespace WrittenEntry

variable {α β γ : Type}

/-- An entry that puts `b` into a record. -/
def of (name : String) (value : Json) (set : β → α → α) (b : β) : WrittenEntry α :=
  ⟨name, value, set b⟩

/-- The entry of something that may be absent. -/
def present (name : String) (value : Option γ) (write : γ → Json) (set : β → α → α)
    (back : γ → β) : List (WrittenEntry α) :=
  (value.map fun v => of name (write v) set (back v)).toList

end WrittenEntry

namespace Layout

variable {α β γ : Type} {layout : Layout α} {entries : List (WrittenEntry α)}

/-- An entry has a field, and what the field takes from it is put into the record. -/
structure Takes (layout : Layout α) (entry : WrittenEntry α) : Prop where
  proper : entry.value.IsProper
  field : ∃ f, (layout.fields.find? fun f => f.name == entry.name) = some f ∧
    ∀ depth ≤ depthLimit, ∀ record, f.put .json (asWritten depth entry.value) record =
      .within (depth + entry.value.nesting) (entry.update record)

section fields

variable {name : String} {read : Reader β} {set : β → α → α}

theorem takes_required {v : Json} {b : β}
    (hfield : (layout.fields.find? fun f => f.name == name) = some (.required name read set))
    (h : read.ReadsBack v b) : layout.Takes (.of name v set b) :=
  ⟨h.proper, _, hfield, fun depth hdepth record =>
    (congrArg _ (h.within depth hdepth)).trans (Reads.map_within (set · record) _ b)⟩

theorem takes_defaulted {v : Json} {b : β}
    (hfield : (layout.fields.find? fun f => f.name == name) = some (.defaulted name read set))
    (h : read.ReadsBack v b) : layout.Takes (.of name v set b) :=
  ⟨h.proper, _, hfield, fun depth hdepth record =>
    (congrArg _ (h.within depth hdepth)).trans (Reads.map_within (set · record) _ b)⟩

/-- What may be absent is taken if it is there. -/
theorem takes_present {value : Option γ} {write : γ → Json} {back : γ → β}
    (hfield : (layout.fields.find? fun f => f.name == name) = some (.defaulted name read set))
    (h : ∀ v ∈ value, read.ReadsBack (write v) (back v)) :
    ∀ entry ∈ WrittenEntry.present name value write set back, layout.Takes entry := by
  cases value with
  | none => nofun
  | some v => exact List.forall_mem_singleton.mpr (takes_defaulted hfield (h v rfl))

end fields

/-- What is written of entries. -/
def written (entries : List (WrittenEntry α)) : Members Json :=
  entries.map fun entry => (entry.name, entry.value)

/-- A record with entries put into it. -/
def updateAll (entries : List (WrittenEntry α)) (record : α) : α :=
  entries.foldl (fun record entry => entry.update record) record

/-- What is written of a record is in order. -/
theorem isAscending_of_record {raw : List (String × Json)}
    (h : Json.record raw = .object (written entries)) : Members.IsAscending (written entries) :=
  Json.object.inj h ▸ Members.isAscending_ofEntries raw

/-- Entries under different names are taken one after the other. -/
theorem readEntries_written (h : ∀ entry ∈ entries, layout.Takes entry)
    (hnodup : (entries.map WrittenEntry.name).Nodup) (seen : List String)
    (hseen : ∀ entry ∈ entries, entry.name ∉ seen) {depth : Nat} (hdepth : depth ≤ depthLimit)
    (record : α) :
    layout.readEntries .json ((written entries).mapValues (asWritten depth)) seen record =
      .within (depth + Json.membersNesting (written entries))
        ((entries.map WrittenEntry.name).reverse ++ seen, updateAll entries record) := by
  induction entries generalizing seen record with
  | nil => exact (Reads.within_of_le hdepth _).symm
  | cons entry rest ih =>
    obtain ⟨⟨-, f, hfield, hput⟩, hrest⟩ := List.forall_mem_cons.mp h
    obtain ⟨hnew, hseen⟩ := List.forall_mem_cons.mp hseen
    obtain ⟨hfresh, hnodup⟩ := List.nodup_cons.mp hnodup
    have hlater : ∀ other ∈ rest, other.name ∉ entry.name :: seen := by
      intro other hother hmem
      rcases List.mem_cons.mp hmem with hsame | hmem
      · exact hfresh (hsame ▸ List.mem_map_of_mem hother)
      · exact hseen other hother hmem
    simp only [written, Members.mapValues, List.map_cons, readEntries, hfield, Json.membersNesting]
    rw [if_neg (by simpa using hnew), hput depth hdepth, ← Nat.add_max_add_left]
    refine Reads.within_bind ?_
    have hrest := ih hrest hnodup _ hlater (entry.update record)
    simp only [written, Members.mapValues] at hrest
    rw [hrest]
    simp [updateAll]

/-- **A record is read back if each of its fields is**, and no required field is missing. -/
theorem readsBack (h : ∀ entry ∈ entries, layout.Takes entry)
    (hascending : Members.IsAscending (written entries))
    (hrequired : ∀ f ∈ layout.fields, f.absence = .refused →
      f.name ∈ entries.map WrittenEntry.name) :
    layout.read.ReadsBack (.object (written entries)) (updateAll entries layout.blank) := by
  have hnodup : (entries.map WrittenEntry.name).Nodup := by
    refine List.pairwise_map.mpr ((List.pairwise_map.mp hascending).imp fun hlt => ?_)
    exact String.ne_of_lt hlt
  refine ⟨.object hascending (List.forall_mem_map.mpr fun entry hentry => (h entry hentry).proper),
    fun depth hdepth => ?_⟩
  -- Every required field has been seen when all entries are read.
  have hmissing : layout.firstMissing ((entries.map WrittenEntry.name).reverse ++ []) = none := by
    rw [firstMissing, Option.map_eq_none_iff, List.find?_eq_none]
    intro f hf
    by_cases hrefused : f.absence = .refused
    · have hmem := hrequired f hf hrefused
      simpa [hrefused] using hmem
    · simp [hrefused]
  rw [asWritten, membersAsWritten_eq]
  refine Reader.within_container hdepth (fun hopen => ?_) rfl
  have hentries := readEntries_written h hnodup [] (by simp) hopen layout.blank
  change (layout.readEntries .json _ [] layout.blank >>= _) = _
  rw [hentries]
  refine (Reads.within_bind ?_).trans (congrArg (Reads.within · _) (Nat.max_zero _))
  rw [Reads.within_of_le (Nat.zero_le _)]
  simp only [hmissing]
  rfl

end Layout

end Outreach
