import Outreach.Program.Assignment
import Outreach.Proofs.Funnel.Recall
import Outreach.Proofs.Text.Blank

/-!
# What the command line assigns

Variables are made of an object and assignments, unless what is given as the object is no object or
an assignment is malformed. A variable has the value of the last assignment to it, or else the one it
has in the object (`Assignment.vars_exact`). An assignment that is written for a key and a value gives
the key that value, because what is written of a value is never taken for a mere text
(`Assignment.assigns_written`).
-/

namespace Outreach

/-! ## Texts of values -/

namespace Reader

/-- Members are read of a source that is read as an object, and of no other. -/
theorem membersOf_any_eq_ok_iff {source : Source} {depth : Nat} (h : source.Fits depth)
    {members : Members Json} :
    membersOf any .json source = .ok members ↔ anyValue source = .ok (.object members) := by
  cases h with
  | null | bool | string | unreadable | broken => exact iff_of_false nofun nofun
  | @number _ n hn =>
    refine iff_of_false nofun fun hvalue => ?_
    cases n with
    | int i => cases hvalue
    | double d =>
      rw [anyValue, Json.double_of_isProper hn] at hvalue
      cases hvalue
  | @list _ items ending =>
    refine iff_of_false (fun hmembers => by cases hmembers) fun hvalue => ?_
    rw [anyValue] at hvalue
    obtain ⟨values, -, hfinish⟩ := Reads.bind_eq_ok_iff.mp hvalue
    cases (Reads.finish_eq_ok_iff.mp hfinish).2
  | @record _ entries ending =>
    rw [anyValue, anyEntries_eq_mapM, Reads.bind_eq_ok_iff]
    refine Reads.bind_eq_ok_iff.trans (exists_congr fun values => and_congr_right fun _ => ?_)
    rw [Reads.finish_eq_ok_iff, Reads.finish_eq_ok_iff, Json.object.injEq]

variable {α : Type} {read : Reader α} {text : String} {a : α}

theorem ofJsonText_eq_ok_iff :
    read.ofJsonText text = .ok a ↔
      read .json (Source.scan text).1 = .ok a ∧ (Source.scan text).2 = true := by
  unfold ofJsonText
  generalize Source.scan text = scanned
  obtain ⟨source, ended⟩ := scanned
  refine Reads.bind_eq_ok_iff.trans ?_
  cases ended <;> simp

end Reader

namespace Json

theorem parse?_eq_some_iff {text : String} {v : Json} :
    parse? text = some v ↔ Reader.any.ofJsonText text = .ok v := by
  unfold parse?
  cases Reader.any.ofJsonText text <;> simp [Except.toOption]

/-- What is written of a value stands for that value. -/
theorem parse?_compact {v : Json} (h : v.Fits 0) : parse? v.compact = some v :=
  parse?_eq_some_iff.mpr (Reader.recalls_any h).ofJsonText

/-- Members are read of a text that stands for an object, and of no other. -/
theorem membersOf_any_ofJsonText_iff {text : String} {members : Members Json} :
    (Reader.membersOf Reader.any).ofJsonText text = .ok members ↔
      parse? text = some (.object members) := by
  rw [parse?_eq_some_iff, Reader.ofJsonText_eq_ok_iff, Reader.ofJsonText_eq_ok_iff,
    Reader.membersOf_any_eq_ok_iff (Source.fits_fst_scan text)]
  rfl

end Json

/-! ## Assignments -/

namespace Assignment

/-- What stands behind the equals sign means the value that it is the text of, or else itself. -/
def Means (text : String) (value : Json) : Prop :=
  Json.parse? text = some value ∨ Json.parse? text = none ∧ value = .string text

/-- An assignment gives a key a value: the key stands before the first equals sign, perhaps with white
space around it, and what stands behind the sign means the value. -/
inductive Assigns : String → String → Json → Prop
  | of {assignment key text : String} {value : Json} {before front back : List Char}
    (hassignment : assignment.toList = before ++ '=' :: text.toList) (hbefore : '=' ∉ before)
    (hkey : Text.Trims before front key.toList back) (hne : key ≠ "") (hvalue : Means text value) :
    Assigns assignment key value

/-- An assignment without an equals sign, or with white space only before the first one. -/
inductive IsMalformed : String → Prop
  | noSign {assignment : String} (h : '=' ∉ assignment.toList) : IsMalformed assignment
  | emptyKey {assignment : String} {before behind : List Char}
    (hassignment : assignment.toList = before ++ '=' :: behind)
    (hbefore : ∀ c ∈ before, c.toNat ∈ Text.blankPoints) : IsMalformed assignment

/-- What is given besides the assignments: nothing, or the text of an object. -/
inductive Gives : Option String → Variables → Prop
  | nothing : Gives none []
  | object {text : String} {given : Variables} (h : Json.parse? text = some (.object given)) :
    Gives (some text) given

/-- The last of several assignments to a key gives it a value. -/
def LastAssigns (assignments : List String) (key : String) (value : Json) : Prop :=
  ∃ earlier assignment later, assignments = earlier ++ assignment :: later ∧
    Assigns assignment key value ∧ ∀ other ∈ later, ∀ v, ¬ Assigns other key v

variable {assignment key text : String} {value : Json} {assignments : List String}

theorem means_iff : Means text value ↔ Assignment.value text = value := by
  unfold Means Assignment.value
  cases Json.parse? text with
  | none => simp [eq_comm]
  | some v => simp

theorem trim_eq_nil_iff {before : List Char} :
    Text.trim before = [] ↔ ∀ c ∈ before, c.toNat ∈ Text.blankPoints := by
  rw [Text.trim_eq_iff]
  constructor
  · rintro ⟨front, back, h⟩
    rw [h.text, List.nil_append]
    exact h.blank
  · intro h
    exact ⟨before, [], by simp, by simpa using h, by simp, by simp⟩

theorem read_eq_ok_iff : read assignment = .ok (key, value) ↔ Assigns assignment key value := by
  unfold read
  constructor
  · intro h
    split at h
    next => cases h
    next before behind hsplit =>
      obtain ⟨hassignment, hbefore⟩ := Text.splitOnce_eq_some_iff.mp hsplit
      dsimp only at h
      split at h
      next => cases h
      next hne =>
        cases h
        obtain ⟨front, back, htrims⟩ := Text.exists_trims before
        have htext : assignment.toList = before ++ '=' :: (String.ofList behind).toList := by
          rw [hassignment, String.toList_ofList]
        refine .of htext hbefore (by rwa [String.toList_ofList]) ?_ (means_iff.mpr rfl)
        simpa using hne
  · rintro ⟨hassignment, hbefore, hkey, hne, hvalue⟩
    rw [Text.splitOnce_eq_some_iff.mpr ⟨hassignment, hbefore⟩]
    dsimp only
    have hchars : key.toList.isEmpty = false := by simpa using hne
    rw [hkey.eq_trim, hchars, String.ofList_toList, String.ofList_toList, means_iff.mp hvalue]
    rfl

theorem exists_error_iff : (∃ fault, read assignment = .error fault) ↔ IsMalformed assignment := by
  unfold read
  constructor
  · rintro ⟨fault, h⟩
    split at h
    next hsplit => exact .noSign (Text.splitOnce_eq_none_iff.mp hsplit)
    next before behind hsplit =>
      obtain ⟨hassignment, -⟩ := Text.splitOnce_eq_some_iff.mp hsplit
      dsimp only at h
      split at h
      next hempty => exact .emptyKey hassignment (trim_eq_nil_iff.mp (List.isEmpty_iff.mp hempty))
      next => cases h
  · intro h
    cases h with
    | noSign h =>
      rw [Text.splitOnce_eq_none_iff.mpr h]
      exact ⟨_, rfl⟩
    | @emptyKey before behind hassignment hblank =>
      have hbefore : '=' ∉ before := fun hmem => absurd (hblank _ hmem) (by decide)
      rw [Text.splitOnce_eq_some_iff.mpr ⟨hassignment, hbefore⟩]
      dsimp only
      rw [trim_eq_nil_iff.mpr hblank]
      exact ⟨_, rfl⟩

theorem exists_ok_iff : (∃ entry, read assignment = .ok entry) ↔ ¬ IsMalformed assignment := by
  rw [← exists_error_iff]
  cases read assignment <;> simp

theorem Assigns.not_isMalformed (h : Assigns assignment key value) : ¬ IsMalformed assignment :=
  exists_ok_iff.mp ⟨_, read_eq_ok_iff.mpr h⟩

/-- An assignment gives one key a value. -/
theorem Assigns.key_eq {other : String} {v : Json} (h : Assigns assignment key value)
    (hother : Assigns assignment other v) : key = other := by
  have hsame := (read_eq_ok_iff.mpr h).symm.trans (read_eq_ok_iff.mpr hother)
  exact congrArg Prod.fst (Except.ok.inj hsame)

/-! ## Variables -/

theorem ofObject?_eq_ok_iff {object : Option String} {given : Variables} :
    ofObject? object = .ok given ↔ Gives object given := by
  cases object with
  | none =>
    constructor
    · rintro ⟨⟩
      exact .nothing
    · rintro ⟨⟩
      rfl
  | some text =>
    have hobject : ofObject? (some text) = .ok given ↔ Json.parse? text = some (.object given) := by
      rw [← Json.membersOf_any_ofJsonText_iff, ofObject?]
      cases (Reader.membersOf Reader.any).ofJsonText text <;> simp [Except.mapError]
    rw [hobject]
    constructor
    · exact .object
    · rintro ⟨⟩
      assumption

theorem vars_eq_ok_iff {object : Option String} {result : Variables} :
    vars object assignments = .ok result ↔
      ∃ given entries, Gives object given ∧ assignments.mapM read = .ok entries ∧
        given.merge entries = result := by
  unfold vars
  simp only [← ofObject?_eq_ok_iff]
  cases ofObject? object with
  | error => simp [bind, Except.bind]
  | ok given =>
    cases assignments.mapM read with
    | error => simp [bind, Except.bind]
    | ok entries => simp [bind, Except.bind]

theorem exists_mapM_iff :
    (∃ entries, assignments.mapM read = .ok entries) ↔ ∀ a ∈ assignments, ¬ IsMalformed a := by
  simp only [mapM_eq_ok_iff, ← exists_ok_iff]
  constructor
  · rintro ⟨entries, h⟩ a ha
    have hmem : read a ∈ entries.map Except.ok := h ▸ List.mem_map_of_mem ha
    obtain ⟨entry, -, hentry⟩ := List.mem_map.mp hmem
    exact ⟨entry, hentry.symm⟩
  · intro h
    induction assignments with
    | nil => exact ⟨[], rfl⟩
    | cons a rest ih =>
      obtain ⟨⟨entry, hentry⟩, hrest⟩ := List.forall_mem_cons.mp h
      obtain ⟨entries, hentries⟩ := ih hrest
      exact ⟨entry :: entries, by rw [List.map_cons, List.map_cons, hentry, hentries]⟩

/-- Nothing is made exactly if there is no object, or an assignment is malformed. -/
theorem exists_fault_iff {object : Option String} :
    (∃ fault, vars object assignments = .error fault) ↔
      (∀ given, ¬ Gives object given) ∨ ∃ a ∈ assignments, IsMalformed a := by
  have hok : (∃ result, vars object assignments = .ok result) ↔
      (∃ given, Gives object given) ∧ ∀ a ∈ assignments, ¬ IsMalformed a := by
    rw [← exists_mapM_iff]
    simp only [vars_eq_ok_iff]
    constructor
    · rintro ⟨_, given, entries, hgiven, hread, -⟩
      exact ⟨⟨given, hgiven⟩, entries, hread⟩
    · rintro ⟨⟨given, hgiven⟩, entries, hread⟩
      exact ⟨_, given, entries, hgiven, hread, rfl⟩
  have herror : (∃ fault, vars object assignments = .error fault) ↔
      ¬ ∃ result, vars object assignments = .ok result := by
    cases vars object assignments <;> simp
  rw [herror, hok, not_and_or, not_exists]
  simp only [not_forall, not_not, exists_prop]

section assigned

variable {entries : List (String × Json)} (h : assignments.mapM read = .ok entries)

include h

theorem mem_entries_iff {entry : String × Json} :
    entry ∈ entries ↔ ∃ a ∈ assignments, Assigns a entry.1 entry.2 := by
  have hmem : Except.ok entry ∈ assignments.map read ↔ entry ∈ entries := by
    rw [mapM_eq_ok_iff.mp h]
    simp
  rw [← hmem, List.mem_map]
  simp only [← read_eq_ok_iff]

theorem get?_entries_eq_none_iff :
    Members.get? key entries.reverse = none ↔ ∀ a ∈ assignments, ∀ v, ¬ Assigns a key v := by
  rw [Members.get?_eq_none_iff]
  constructor
  · intro hnone a ha v hassigns
    exact hnone (key, v) (List.mem_reverse.mpr ((mem_entries_iff h).mpr ⟨a, ha, hassigns⟩)) rfl
  · rintro hnone ⟨_, v⟩ hentry rfl
    obtain ⟨a, ha, hassigns⟩ := (mem_entries_iff h).mp (List.mem_reverse.mp hentry)
    exact hnone a ha v hassigns

end assigned

theorem lastAssigns_cons :
    LastAssigns (assignment :: assignments) key value ↔ LastAssigns assignments key value ∨
      (∀ a ∈ assignments, ∀ v, ¬ Assigns a key v) ∧ Assigns assignment key value := by
  constructor
  · rintro ⟨earlier, a, later, hsplit, hassigns, hlater⟩
    cases earlier with
    | nil =>
      obtain ⟨rfl, rfl⟩ := List.cons.inj hsplit
      exact .inr ⟨hlater, hassigns⟩
    | cons first earlier =>
      obtain ⟨-, rfl⟩ := List.cons.inj hsplit
      exact .inl ⟨earlier, a, later, rfl, hassigns, hlater⟩
  · rintro (⟨earlier, a, later, rfl, hassigns, hlater⟩ | ⟨hlater, hassigns⟩)
    · exact ⟨assignment :: earlier, a, later, rfl, hassigns, hlater⟩
    · exact ⟨[], assignment, assignments, rfl, hassigns, hlater⟩

/-- The last of what was read for a key is what the last assignment to it says. -/
theorem get?_entries_eq_some_iff {entries : List (String × Json)}
    (h : assignments.mapM read = .ok entries) :
    Members.get? key entries.reverse = some value ↔ LastAssigns assignments key value := by
  induction assignments generalizing entries with
  | nil =>
    cases h
    refine iff_of_false nofun ?_
    rintro ⟨earlier, a, later, hsplit, -⟩
    simp at hsplit
  | cons a rest ih =>
    rw [mapM_eq_ok_iff] at h
    cases entries with
    | nil => cases h
    | cons entry entries =>
      obtain ⟨hread, hrest⟩ := List.cons.inj h
      have hentries := mapM_eq_ok_iff.mpr hrest
      have hfirst : Members.get? key [entry] = some value ↔ Assigns a key value := by
        obtain ⟨name, v⟩ := entry
        rw [← read_eq_ok_iff, hread]
        simp [Members.get?]
      rw [List.reverse_cons, Members.get?_append, Option.or_eq_some_iff, ih hentries,
        get?_entries_eq_none_iff hentries, hfirst, lastAssigns_cons]

/-! ## Assignments that are written -/

/-- A key as it stands in an assignment: not empty, without an equals sign and without white space at
its ends. -/
structure IsKey (key : String) : Prop where
  nonempty : key ≠ ""
  unsigned : '=' ∉ key.toList
  trimmed : Text.Trims key.toList [] key.toList []

/-- The assignment that is written of a key and a value. -/
def written (entry : String × Json) : String :=
  entry.1 ++ "=" ++ entry.2.compact

theorem assigns_written {entry : String × Json} (hkey : IsKey entry.1) (hvalue : entry.2.Fits 0) :
    Assigns (written entry) entry.1 entry.2 := by
  have htext : (written entry).toList = entry.1.toList ++ '=' :: entry.2.compact.toList := by
    simp [written]
  exact .of htext hkey.unsigned hkey.trimmed hkey.nonempty (.inl (Json.parse?_compact hvalue))

theorem mapM_written {entries : List (String × Json)}
    (h : ∀ entry ∈ entries, IsKey entry.1 ∧ entry.2.Fits 0) :
    (entries.map written).mapM read = .ok entries := by
  rw [mapM_eq_ok_iff, List.map_map]
  refine List.map_congr_left fun entry hentry => ?_
  obtain ⟨hkey, hvalue⟩ := h entry hentry
  exact read_eq_ok_iff.mpr (assigns_written hkey hvalue)

/-- **What an object and assignments make.** They make nothing exactly if there is no object in what
is given as one, or an assignment is malformed. Otherwise a variable has the value of the last
assignment to it, or, without one, the one it has in the object. So assignments that are written for
values that are wanted, in any order, put these values on top of the object. -/
theorem vars_exact (object : Option String) (assignments : List String) :
    ((∃ fault, vars object assignments = .error fault) ↔
      (∀ given, ¬ Gives object given) ∨ ∃ a ∈ assignments, IsMalformed a) ∧
    (∀ given, Gives object given → (∀ a ∈ assignments, ¬ IsMalformed a) →
      ∃ result, vars object assignments = .ok result ∧ ∀ key value,
        Members.get? key result = some value ↔ LastAssigns assignments key value ∨
          (∀ a ∈ assignments, ∀ v, ¬ Assigns a key v) ∧ Members.get? key given = some value) ∧
    ∀ given (wanted : Members Json) (order : List (String × Json)), Gives object given →
      wanted.IsAscending →
      (∀ entry ∈ wanted, IsKey entry.1 ∧ entry.2.IsProper ∧ entry.2.nesting ≤ 127) →
      order.Perm wanted → ∃ result, vars object (order.map written) = .ok result ∧
        ∀ key, Members.get? key result = (Members.get? key wanted).or (Members.get? key given) := by
  refine ⟨exists_fault_iff, fun given hgiven hformed => ?_,
    fun given wanted order hgiven hwanted hentries hperm => ?_⟩
  · obtain ⟨entries, hread⟩ := exists_mapM_iff.mpr hformed
    refine ⟨_, vars_eq_ok_iff.mpr ⟨given, entries, hgiven, hread, rfl⟩, fun key value => ?_⟩
    rw [Members.get?_merge, Option.or_eq_some_iff, get?_entries_eq_some_iff hread,
      get?_entries_eq_none_iff hread]
  · have hfits : ∀ entry ∈ order, IsKey entry.1 ∧ entry.2.Fits 0 := by
      intro entry hentry
      obtain ⟨hkey, hproper, hnesting⟩ := hentries entry (hperm.mem_iff.mp hentry)
      exact ⟨hkey, hproper, (Nat.zero_add _).trans_le hnesting⟩
    refine ⟨_, vars_eq_ok_iff.mpr ⟨given, order, hgiven, mapM_written hfits, rfl⟩, fun key => ?_⟩
    rw [Members.get?_merge, Members.get?_of_perm hwanted.nodup ((List.reverse_perm _).trans hperm)]

/-- The later assignment wins, though its text only looks like JSON. Values that are written come back:
a text in an array keeps its equals sign, and a text of digits does not become a number. -/
theorem written_and_last_win :
    let given : Variables := [("a", .int 1), ("c", .null)]
    let object := some (Json.object given).compact
    let assignments := ["a = b", " a=[=]"]
    let wanted : Members Json := [("a", .array [.string "x=y"]), ("b c", .string "1")]
    Gives object given ∧
    ((∀ a ∈ assignments, ¬ IsMalformed a) ∧
      ∃ result, vars object assignments = .ok result ∧
        Members.get? "a" result = some (.string "[=]") ∧
        Members.get? "c" result = some .null) ∧
    wanted.IsAscending ∧
    (∀ entry ∈ wanted, IsKey entry.1 ∧ entry.2.IsProper ∧ entry.2.nesting ≤ 127) ∧
    wanted.reverse.Perm wanted ∧
    ∃ result, vars object (wanted.reverse.map written) = .ok result ∧
      Members.get? "a" result = some (.array [.string "x=y"]) ∧
      Members.get? "c" result = some .null := by
  intro given object assignments wanted
  have hgiven : Gives object given := by
    have hnumber : (Number.int 1).IsProper := by simp [Number.IsProper]
    have hmembers : ∀ entry ∈ given, entry.2.IsProper := by
      simpa [given] using ⟨Json.IsProper.number hnumber, Json.IsProper.null⟩
    have hascending : Members.IsAscending given := List.pairwise_pair.mpr (by decide)
    exact .object (Json.parse?_compact ⟨.object hascending hmembers, by decide⟩)
  have hearlier : Assigns "a = b" "a" (.string " b") := by
    have htext : "a = b".toList = ['a', ' '] ++ '=' :: " b".toList := rfl
    have hkey : Text.Trims ['a', ' '] [] "a".toList [' '] := by
      constructor <;> simp [Text.blankPoints]
    exact .of htext (by decide) hkey (by decide) (.inr ⟨by cbv, rfl⟩)
  have hlater : Assigns " a=[=]" "a" (.string "[=]") := by
    have htext : " a=[=]".toList = [' ', 'a'] ++ '=' :: "[=]".toList := rfl
    have hkey : Text.Trims [' ', 'a'] [' '] "a".toList [] := by
      constructor <;> simp [Text.blankPoints]
    exact .of htext (by decide) hkey (by decide) (.inr ⟨by cbv, rfl⟩)
  have hformed : ∀ a ∈ assignments, ¬ IsMalformed a :=
    List.forall_mem_cons.mpr
      ⟨hearlier.not_isMalformed, List.forall_mem_singleton.mpr hlater.not_isMalformed⟩
  have hne : "a" ≠ "c" := by decide
  have hunassigned : ∀ a ∈ assignments, ∀ v, ¬ Assigns a "c" v :=
    List.forall_mem_cons.mpr ⟨fun _ h => hne (hearlier.key_eq h),
      List.forall_mem_singleton.mpr fun _ h => hne (hlater.key_eq h)⟩
  have hwanted : wanted.IsAscending := List.pairwise_pair.mpr (by decide)
  have hentries : ∀ entry ∈ wanted, IsKey entry.1 ∧ entry.2.IsProper ∧ entry.2.nesting ≤ 127 := by
    have hitems : ∀ item ∈ [Json.string "x=y"], item.IsProper :=
      List.forall_mem_singleton.mpr (.string _)
    refine List.forall_mem_cons.mpr ⟨⟨?_, .array hitems, by decide⟩,
      List.forall_mem_singleton.mpr ⟨?_, .string _, by decide⟩⟩
    · exact ⟨by decide, by decide, by constructor <;> simp [Text.blankPoints]⟩
    · exact ⟨by decide, by decide, by constructor <;> simp [Text.blankPoints]⟩
  obtain ⟨-, hassigned, hwritten⟩ := vars_exact object assignments
  obtain ⟨result, hresult, hvalue⟩ := hassigned given hgiven hformed
  obtain ⟨other, hmade, hlookup⟩ :=
    hwritten given wanted wanted.reverse hgiven hwanted hentries (List.reverse_perm _)
  refine ⟨hgiven, ⟨hformed, result, hresult, ?_, ?_⟩, hwanted, hentries, List.reverse_perm _, other,
    hmade, hlookup "a", hlookup "c"⟩
  · have hlast : LastAssigns assignments "a" (.string "[=]") :=
      ⟨["a = b"], _, [], rfl, hlater, fun _ hmem => absurd hmem List.not_mem_nil⟩
    exact (hvalue "a" _).mpr (.inl hlast)
  · exact (hvalue "c" _).mpr (.inr ⟨hunassigned, rfl⟩)

end Assignment

end Outreach
