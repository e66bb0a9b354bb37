import Outreach.Proofs.Source.ReadBack

/-!
# What a text hands out

A text is scanned to a source without words and labels, whose numbers data can hold and whose
containers stand no deeper than they can be read (`Source.Fits`). So whatever readers take from it
is fit to be written again: `Reader.Hands` says what a reader takes from a text at a depth, and has a
lemma for each way to build one.
-/

namespace Outreach

/-- A value that fits inside `depth` containers: data can hold it, and a text can be read in which
it is written there. -/
structure Json.Fits (depth : Nat) (v : Json) : Prop where
  proper : v.IsProper
  nesting : depth + v.nesting ≤ Source.depthLimit

namespace Source

/-- A source that a text can be scanned to inside `depth` containers. -/
inductive Fits : Nat → Source → Prop where
  | null {depth : Nat} : Fits depth .null
  | bool {depth : Nat} (b : Bool) : Fits depth (.bool b)
  | number {depth : Nat} {n : Number} (h : n.IsProper) : Fits depth (.number n)
  | string {depth : Nat} (s : String) : Fits depth (.string s)
  | list {depth : Nat} {items : List Source} {ending : Ending} (hdepth : depth < depthLimit)
    (h : ∀ item ∈ items, Fits (depth + 1) item) : Fits depth (.list items ending)
  | record {depth : Nat} {entries : List (String × Source)} {ending : Ending}
    (hdepth : depth < depthLimit) (h : ∀ entry ∈ entries, Fits (depth + 1) entry.2) :
    Fits depth (.record entries ending)
  | unreadable {depth : Nat} : Fits depth .unreadable
  | broken {depth : Nat} : Fits depth .broken

/-! ## Scanning -/

variable {depth : Nat}

theorem fits_ofDouble {d : Double} (h : d.isNaN = false) : (ofDouble d).Fits depth := by
  unfold ofDouble
  split
  next => exact .unreadable
  next hfinite => exact .number ⟨h, Bool.eq_false_iff.mpr hfinite⟩

/-- A whole number that fits in 64 bits stays one, and any other is a double. -/
theorem fits_wholeOrDouble (negative : Bool) (n : Nat) :
    (match wholeOrDouble negative n with
      | .double d => ofDouble d
      | .int i => .number (.int i)).Fits depth := by
  unfold wholeOrDouble
  cases negative with
  | true =>
    simp only [if_true]
    split
    next hsame =>
      split at hsame
      next =>
        cases hsame
        exact fits_ofDouble (Decimal.isNaN_toDouble _)
      next => cases hsame
    next hsame =>
      split at hsame
      next => cases hsame
      next hbelow =>
        cases hsame
        rw [Nat.pow_eq] at hbelow
        refine .number ⟨?_, ?_⟩ <;> omega
  | false =>
    simp only [Bool.false_eq_true, if_false]
    split
    next hsame =>
      split at hsame
      next => cases hsame
      next =>
        cases hsame
        exact fits_ofDouble (Decimal.isNaN_toDouble _)
    next hsame =>
      split at hsame
      next hbelow =>
        cases hsame
        rw [Nat.pow_eq] at hbelow
        refine .number ⟨?_, ?_⟩ <;> omega
      next => cases hsame

theorem fits_scanUnsigned (negative : Bool) (cs : List Char) :
    (scanUnsigned negative cs).1.Fits depth := by
  unfold scanUnsigned
  dsimp only
  split
  next => exact .broken
  next =>
    split
    next => exact .broken
    next =>
      split
      next => exact .broken
      next fraction _ _ _ exponent _ _ =>
        cases fraction with
        | none =>
          cases exponent with
          | none => exact fits_wholeOrDouble _ _
          | some => exact fits_ofDouble (Decimal.isNaN_toDouble _)
        | some => exact fits_ofDouble (Decimal.isNaN_toDouble _)

theorem fits_scanNumber (cs : List Char) : (scanNumber cs).1.Fits depth := by
  obtain ⟨negative, unsigned, hscan⟩ :
      ∃ negative unsigned, scanNumber cs = scanUnsigned negative unsigned := by
    unfold scanNumber
    split
    next heq =>
      split at heq
      next => cases heq; exact ⟨true, _, rfl⟩
      next => cases heq; exact ⟨false, _, rfl⟩
  rw [hscan]
  exact fits_scanUnsigned negative unsigned

theorem fits_scanWord {word : List Char} {meaning : Source} (h : meaning.Fits depth) (cs : List Char) :
    (scanWord word meaning cs).1.Fits depth := by
  unfold scanWord
  split
  next => exact h
  next => exact .broken

theorem fits_scanText (cs : List Char) : (scanText cs).1.Fits depth := by
  unfold scanText
  split
  next => exact .broken
  next =>
    dsimp only
    split
    next => exact .string _
    next => exact .unreadable

/-- A container is kept only where it can be read. -/
theorem fits_atDepth {container : Source} (h : depth < depthLimit → container.Fits depth) :
    (atDepth (depth + 1) container).Fits depth := by
  unfold atDepth
  split
  next hdepth => exact h hdepth
  next =>
    split
    next => exact .unreadable
    next => exact .broken

/-- **Whatever a text is scanned to fits**, value by value, item by item and entry by entry. -/
theorem fits_scan (fuel : Nat) :
    (∀ depth cs, (scanValue fuel depth cs).1.Fits depth) ∧
      (∀ depth first cs done, (∀ item ∈ done, Fits depth item) →
        ∀ item ∈ (scanItems fuel depth first cs done).1, Fits depth item) ∧
      ∀ depth first cs done soFar, (∀ entry ∈ done, Fits depth entry.2) →
        ∀ entry ∈ (scanEntries fuel depth first cs done soFar).1, Fits depth entry.2 := by
  induction fuel with
  | zero =>
    refine ⟨fun _ _ => .broken, fun depth first cs done hdone item hitem => ?_,
      fun depth first cs done soFar hdone entry hentry => ?_⟩
    · exact hdone item (List.mem_reverse.mp hitem)
    · exact hdone entry (List.mem_reverse.mp hentry)
  | succ fuel ih =>
    obtain ⟨ihvalue, ihitems, ihentries⟩ := ih
    refine ⟨fun depth cs => ?_, fun depth first cs done hdone => ?_,
      fun depth first cs done soFar hdone => ?_⟩
    · rw [scanValue]
      split
      next => exact .broken
      next => exact fits_scanText _
      next =>
        exact fits_atDepth fun hdepth => .list hdepth (ihitems _ _ _ _ (List.forall_mem_nil _))
      next =>
        exact fits_atDepth fun hdepth =>
          .record hdepth (ihentries _ _ _ _ _ (List.forall_mem_nil _))
      next => exact fits_scanWord .null _
      next => exact fits_scanWord (.bool true) _
      next => exact fits_scanWord (.bool false) _
      next => exact fits_scanNumber _
    · have hreverse : ∀ item ∈ done.reverse, Fits depth item := fun item hitem =>
        hdone item (List.mem_reverse.mp hitem)
      have hmore (cs : List Char) : ∀ item ∈ (scanValue fuel depth cs).1 :: done, Fits depth item :=
        List.forall_mem_cons.mpr ⟨ihvalue depth cs, hdone⟩
      rw [scanItems.eq_def]
      dsimp only
      split
      next => exact hreverse
      next =>
        split
        next => exact hreverse
        next =>
          split
          next => exact hreverse
          next => exact ihitems _ _ _ _ (hmore _)
      next =>
        split
        next => exact ihitems _ _ _ _ (hmore _)
        next => exact hreverse
    · have hreverse : ∀ entry ∈ done.reverse, Fits depth entry.2 := fun entry hentry =>
        hdone entry (List.mem_reverse.mp hentry)
      have hmore (keeps : Prop) [Decidable keeps] (name : String) {value : Source}
          (hvalue : value.Fits depth) :
          ∀ entry ∈ if keeps then (name, value) :: done else done, Fits depth entry.2 := by
        split
        next => exact List.forall_mem_cons.mpr ⟨hvalue, hdone⟩
        next => exact hdone
      rw [scanEntries.eq_def]
      dsimp only
      split
      next => exact hreverse
      next =>
        split
        next =>
          split
          next => exact hreverse
          next =>
            split
            next => exact ihentries _ _ _ _ _ (hmore _ _ (ihvalue _ _))
            next =>
              intro entry hentry
              exact hmore _ _ .broken entry (List.mem_reverse.mp hentry)
        next => exact hreverse

/-- What a whole text is scanned to fits. -/
theorem fits_fst_scan (text : String) : (scan text).1.Fits 0 := by
  have hscan := (fits_scan (2 * text.toList.length + 2)).1 0 text.toList
  unfold scan
  exact hscan

end Source

/-! ## Values that fit -/

namespace Json

open Source (depthLimit)

variable {depth : Nat}

theorem itemsNesting_le {items : List Json} {most : Nat} (h : ∀ item ∈ items, item.nesting ≤ most) :
    itemsNesting items ≤ most := by
  induction items with
  | nil => exact Nat.zero_le _
  | cons item rest ih =>
    obtain ⟨hitem, hrest⟩ := List.forall_mem_cons.mp h
    exact Nat.max_le.mpr ⟨hitem, ih hrest⟩

theorem membersNesting_le {members : Members Json} {most : Nat}
    (h : ∀ entry ∈ members, entry.2.nesting ≤ most) : membersNesting members ≤ most := by
  induction members with
  | nil => exact Nat.zero_le _
  | cons entry rest ih =>
    obtain ⟨hentry, hrest⟩ := List.forall_mem_cons.mp h
    exact Nat.max_le.mpr ⟨hentry, ih hrest⟩

/-- A double that data can hold has a written form. -/
theorem double_of_isProper {d : Double} (h : (Number.double d).IsProper) :
    double d = .number (.double d) := by
  cases d with
  | nan => cases h.1
  | infinite => cases h.2
  | finite => rfl

namespace Fits

theorem array (hdepth : depth < depthLimit) {items : List Json}
    (h : ∀ item ∈ items, item.Fits (depth + 1)) : (Json.array items).Fits depth where
  proper := .array fun item hitem => (h item hitem).proper
  nesting := by
    have hitems : itemsNesting items ≤ depthLimit - (depth + 1) := by
      apply itemsNesting_le
      intro item hitem
      have hfits := (h item hitem).nesting
      omega
    rw [Json.nesting]
    omega

theorem object (hdepth : depth < depthLimit) {members : Members Json}
    (hascending : Members.IsAscending members)
    (h : ∀ entry ∈ members, entry.2.Fits (depth + 1)) : (Json.object members).Fits depth where
  proper := .object hascending fun entry hentry => (h entry hentry).proper
  nesting := by
    have hmembers : membersNesting members ≤ depthLimit - (depth + 1) := by
      apply membersNesting_le
      intro entry hentry
      have hfits := (h entry hentry).nesting
      omega
    rw [Json.nesting]
    omega

end Fits

end Json

theorem Members.mem_ofEntries {α : Type} {entries : List (String × α)} {entry : String × α}
    (h : entry ∈ ofEntries entries) : entry ∈ entries := by
  have hmerge (members : Members α) (hmem : entry ∈ merge members entries) :
      entry ∈ members ∨ entry ∈ entries := by
    clear h
    induction entries generalizing members with
    | nil => exact .inl hmem
    | cons first rest ih =>
      rcases ih _ hmem with hmem | hmem
      · rcases mem_insert hmem with rfl | hmem
        · exact .inr List.mem_cons_self
        · exact .inl hmem
      · exact .inr (List.mem_cons_of_mem _ hmem)
  exact (hmerge [] h).resolve_left nofun

/-! ## Readings that succeed -/

theorem mapM_eq_ok_iff {α β ε : Type} {f : α → Except ε β} {xs : List α} {ys : List β} :
    xs.mapM f = .ok ys ↔ xs.map f = ys.map .ok := by
  induction xs generalizing ys with
  | nil => cases ys <;> simp [pure, Except.pure]
  | cons x rest ih =>
    rw [List.mapM_cons]
    cases hx : f x with
    | error => cases ys <;> simp [bind, Except.bind, hx]
    | ok y =>
      cases hrest : rest.mapM f with
      | error =>
        cases ys with
        | nil => simp [bind, Except.bind]
        | cons first others =>
          have hother : ¬ rest.map f = others.map .ok := ih.not.mp (by simp [hrest])
          simp [bind, Except.bind, hx, hother]
      | ok values =>
        cases ys with
        | nil => simp [bind, Except.bind, pure, Except.pure]
        | cons first others =>
          have hsame : values = others ↔ rest.map f = others.map .ok := by
            rw [← ih, hrest, Except.ok.injEq]
          simp [bind, Except.bind, pure, Except.pure, hx, hsame]

namespace Reads

variable {α β : Type}

theorem bind_eq_ok_iff {x : Reads α} {next : α → Reads β} {b : β} :
    (x >>= next) = .ok b ↔ ∃ a, x = .ok a ∧ next a = .ok b := by
  cases x with
  | error => simp [bind, Except.bind]
  | ok a => simp [bind, Except.bind]

theorem map_eq_ok_iff {f : α → β} {x : Reads α} {b : β} :
    x.map f = .ok b ↔ ∃ a, x = .ok a ∧ f a = b := by
  cases x with
  | error => simp [Except.map]
  | ok a => simp [Except.map]

theorem finish_eq_ok_iff {ending : Ending} {a b : α} :
    Reader.finish ending a = .ok b ↔ ending = .closed ∧ a = b := by
  unfold Reader.finish
  split <;> simp_all

theorem exists_of_mapM {f : α → Reads β} {xs : List α} {ys : List β} (h : xs.mapM f = .ok ys) :
    ∀ y ∈ ys, ∃ x ∈ xs, f x = .ok y := by
  intro y hy
  have hmem : Except.ok y ∈ xs.map f := by
    rw [mapM_eq_ok_iff.mp h]
    exact List.mem_map_of_mem hy
  exact List.mem_map.mp hmem

end Reads

/-! ## Readers -/

/-- Whatever a reader takes from a text, inside `depth` containers, has a property. -/
def Reader.Hands {α : Type} (read : Reader α) (depth : Nat) (P : α → Prop) : Prop :=
  ∀ ⦃source : Source⦄, source.Fits depth → ∀ ⦃a : α⦄, read .json source = .ok a → P a

namespace Reader

open Source (depthLimit)

variable {α β : Type} {depth : Nat} {read : Reader α} {P : α → Prop}

theorem hands_anything (read : Reader α) (depth : Nat) : read.Hands depth fun _ => True :=
  fun _ _ _ _ => trivial

theorem anyItems_eq_mapM (items : List Source) : anyItems items = items.mapM anyValue := by
  induction items with
  | nil => rfl
  | cons item rest ih =>
    rw [List.mapM_cons, anyItems, ih]
    rfl

theorem anyEntries_eq_mapM (entries : List (String × Source)) :
    anyEntries entries = entries.mapM fun entry => (anyValue entry.2).map fun v => (entry.1, v) := by
  induction entries with
  | nil => rfl
  | cons entry rest ih =>
    obtain ⟨name, item⟩ := entry
    rw [List.mapM_cons, anyEntries, ih]
    cases anyValue item <;> rfl

/-- **A free-form value that is read of a text fits where it stood.** -/
theorem hands_any (hdepth : depth ≤ depthLimit) : any.Hands depth (Json.Fits depth) := by
  intro source hsource
  change ∀ v, anyValue source = .ok v → v.Fits depth
  induction hsource with
  | null =>
    rintro v ⟨⟩
    exact ⟨.null, hdepth⟩
  | bool b =>
    rintro v ⟨⟩
    exact ⟨.bool b, hdepth⟩
  | string s =>
    rintro v ⟨⟩
    exact ⟨.string s, hdepth⟩
  | @number _ n hn =>
    intro v hv
    have hsame : anyValue (.number n) = .ok (.number n) := by
      cases n with
      | int i => rfl
      | double d => exact congrArg Except.ok (Json.double_of_isProper hn)
    obtain rfl : Json.number n = v := Except.ok.inj (hsame.symm.trans hv)
    exact ⟨.number hn, hdepth⟩
  | list hopen _ ih =>
    intro v hv
    rw [anyValue, anyItems_eq_mapM] at hv
    obtain ⟨values, hvalues, hfinish⟩ := Reads.bind_eq_ok_iff.mp hv
    obtain ⟨-, rfl⟩ := Reads.finish_eq_ok_iff.mp hfinish
    refine .array hopen fun value hvalue => ?_
    obtain ⟨item, hitem, hread⟩ := Reads.exists_of_mapM hvalues value hvalue
    exact ih item hitem hopen value hread
  | record hopen _ ih =>
    intro v hv
    rw [anyValue, anyEntries_eq_mapM] at hv
    obtain ⟨values, hvalues, hfinish⟩ := Reads.bind_eq_ok_iff.mp hv
    obtain ⟨-, rfl⟩ := Reads.finish_eq_ok_iff.mp hfinish
    refine .object hopen (Members.isAscending_ofEntries _) fun entry hentry => ?_
    obtain ⟨given, hgiven, hread⟩ :=
      Reads.exists_of_mapM hvalues entry (Members.mem_ofEntries hentry)
    obtain ⟨value, hvalue, rfl⟩ := Reads.map_eq_ok_iff.mp hread
    exact ih given hgiven hopen value hvalue
  | unreadable | broken =>
    intro v hv
    cases hv

/-- A double that is read of a text has a written form. -/
theorem hands_double : double.Hands depth fun d => (Number.double d).IsProper := by
  intro source hsource d hd
  cases hsource with
  | @number _ n hn =>
    obtain rfl : n.toDouble = d := Except.ok.inj hd
    cases n with
    | double => exact hn
    | int i =>
      obtain ⟨hlow, hhigh⟩ := hn
      exact ⟨Double.isNaN_round _ _ _, Double.isInfinite_ofInt (by omega)⟩
  | null | bool | string | list | record | unreadable | broken => cases hd

theorem hands_nat32 : nat32.Hands depth (· < 2 ^ 32) := by
  intro source _ n hn
  unfold nat32 natural at hn
  split at hn
  next i _ =>
    split at hn
    next hbounds =>
      cases hn
      rw [Nat.pow_eq] at hbounds
      omega
    next => cases hn
  next =>
    unfold refuse at hn
    split at hn <;> cases hn

/-- Items have what their reader takes one container further in. -/
theorem Hands.listOf (h : read.Hands (depth + 1) P) :
    (listOf read).Hands depth fun values => ∀ value ∈ values, P value := by
  intro source hsource values hvalues
  cases hsource with
  | list hopen hitems =>
    obtain ⟨taken, htaken, hfinish⟩ := Reads.bind_eq_ok_iff.mp hvalues
    obtain ⟨-, rfl⟩ := Reads.finish_eq_ok_iff.mp hfinish
    intro value hvalue
    obtain ⟨item, hitem, hread⟩ := Reads.exists_of_mapM htaken value hvalue
    exact h (hitems item hitem) hread
  | null | bool | number | string | record | unreadable | broken => cases hvalues

/-- Free-form members fit as an object. -/
theorem hands_membersOf_any (hopen : depth < depthLimit) :
    (membersOf any).Hands depth fun members => (Json.object members).Fits depth := by
  intro source hsource members hmembers
  cases hsource with
  | record _ hentries =>
    obtain ⟨taken, htaken, hfinish⟩ := Reads.bind_eq_ok_iff.mp hmembers
    obtain ⟨-, rfl⟩ := Reads.finish_eq_ok_iff.mp hfinish
    refine .object hopen (Members.isAscending_ofEntries _) fun entry hentry => ?_
    obtain ⟨given, hgiven, hread⟩ :=
      Reads.exists_of_mapM htaken entry (Members.mem_ofEntries hentry)
    obtain ⟨value, hvalue, rfl⟩ := Reads.map_eq_ok_iff.mp hread
    exact hands_any hopen (hentries given hgiven) hvalue
  | null | bool | number | string | list | unreadable | broken => cases hmembers

theorem Hands.optional (h : read.Hands depth P) :
    (optional read).Hands depth fun value => ∀ a ∈ value, P a := by
  intro source hsource value hvalue a ha
  obtain rfl : value = some a := ha
  unfold Reader.optional at hvalue
  split at hvalue
  next => cases hvalue
  next => cases hvalue
  next =>
    obtain ⟨given, hgiven, hsome⟩ := Reads.map_eq_ok_iff.mp hvalue
    exact Option.some.inj hsome ▸ h hsource hgiven

end Reader

/-! ## Records -/

/-- A field keeps a property of records, whatever is put into it inside `depth` containers. -/
def Field.Keeps {α : Type} (f : Field α) (depth : Nat) (P : α → Prop) : Prop :=
  ∀ ⦃source : Source⦄, source.Fits depth → ∀ ⦃record : α⦄, P record →
    ∀ ⦃record' : α⦄, f.put .json source record = .ok record' → P record'

namespace Field

variable {α β : Type} {depth : Nat} {P : α → Prop} {Q : β → Prop} {name : String}
  {read : Reader β} {set : β → α → α}

theorem keeps_required (hread : read.Hands depth Q)
    (hset : ∀ v record, Q v → P record → P (set v record)) :
    (required name read set).Keeps depth P := by
  intro source hsource record hrecord record' hput
  obtain ⟨v, hv, rfl⟩ := Reads.map_eq_ok_iff.mp hput
  exact hset v record (hread hsource hv) hrecord

theorem keeps_defaulted (hread : read.Hands depth Q)
    (hset : ∀ v record, Q v → P record → P (set v record)) :
    (defaulted name read set).Keeps depth P :=
  show (required name read set).Keeps depth P from keeps_required hread hset

end Field

namespace Layout

variable {α : Type} {layout : Layout α} {depth : Nat} {P : α → Prop}

theorem keeps_readEntries (hfields : ∀ f ∈ layout.fields, f.Keeps depth P)
    {entries : List (String × Source)} (hentries : ∀ entry ∈ entries, entry.2.Fits depth)
    {seen seen' : List String} {record record' : α} (hrecord : P record)
    (h : layout.readEntries .json entries seen record = .ok (seen', record')) : P record' := by
  induction entries generalizing seen record with
  | nil =>
    cases h
    exact hrecord
  | cons entry rest ih =>
    obtain ⟨name, source⟩ := entry
    obtain ⟨hsource, hrest⟩ := List.forall_mem_cons.mp hentries
    rw [readEntries] at h
    split at h
    next =>
      split at h
      next => exact ih hrest hrecord h
      next => cases h
    next f hfound =>
      split at h
      next => cases h
      next =>
        obtain ⟨between, hput, hlater⟩ := Reads.bind_eq_ok_iff.mp h
        exact ih hrest (hfields f (List.mem_of_find?_eq_some hfound) hsource hrecord hput) hlater

theorem keeps_readItems {fields : List (Field α)} (hfields : ∀ f ∈ fields, f.Keeps depth P)
    {items : List Source} (hitems : ∀ item ∈ items, item.Fits depth) {position : Nat}
    {ending : Ending} {left : List Source} {record record' : α} (hrecord : P record)
    (h : layout.readItems .json position ending fields items record = .ok (left, record')) :
    P record' := by
  induction fields generalizing items position record with
  | nil =>
    cases h
    exact hrecord
  | cons f fields ih =>
    obtain ⟨hf, hfields⟩ := List.forall_mem_cons.mp hfields
    cases items with
    | nil =>
      rw [readItems] at h
      split at h
      next => cases h
      next =>
        split at h
        next => exact ih hfields hitems hrecord h
        next => cases h
    | cons item items =>
      obtain ⟨hitem, hitems⟩ := List.forall_mem_cons.mp hitems
      rw [readItems] at h
      obtain ⟨between, hput, hlater⟩ := Reads.bind_eq_ok_iff.mp h
      exact ih hfields hitems (hf hitem hrecord hput) hlater

/-- **A record that is read of a text has what its defaults have and every field keeps**, be it
written with names or as a list. -/
theorem hands_read (hblank : P layout.blank) (hfields : ∀ f ∈ layout.fields, f.Keeps (depth + 1) P) :
    layout.read.Hands depth P := by
  intro source hsource record hread
  cases hsource with
  | record _ hentries =>
    obtain ⟨⟨seen, taken⟩, htaken, hrest⟩ := Reads.bind_eq_ok_iff.mp hread
    obtain ⟨finished, hfinish, hrest⟩ := Reads.bind_eq_ok_iff.mp hrest
    obtain ⟨-, rfl⟩ := Reads.finish_eq_ok_iff.mp hfinish
    split at hrest
    next => cases hrest
    next =>
      cases hrest
      exact keeps_readEntries hfields hentries hblank htaken
  | @list _ items ending _ hitems =>
    obtain ⟨⟨left, taken⟩, htaken, hrest⟩ := Reads.bind_eq_ok_iff.mp hread
    change settleSurplus .json items.length ending left taken = .ok record at hrest
    unfold settleSurplus at hrest
    split at hrest
    next =>
      obtain ⟨-, rfl⟩ := Reads.finish_eq_ok_iff.mp hrest
      exact keeps_readItems hfields hitems hblank htaken
    next => cases hrest
  | null | bool | number | string | unreadable | broken => cases hread

end Layout

end Outreach
