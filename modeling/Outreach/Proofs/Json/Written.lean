import Outreach.Proofs.Json.Members
import Outreach.Proofs.Json.WrittenNumber

/-!
# Written values are read back

What is written of a value is taken apart into a source that holds the same again, down to the depth
at which containers can be read (`Source.scan_compact`). `Source.asWritten` is this source. A value
is proper (`Json.IsProper`) if data can hold it: its numbers have a written form, and the members of
its objects are in order.
-/

namespace Outreach

namespace Json

/-- A value as data can hold it. -/
inductive IsProper : Json → Prop where
  | null : IsProper .null
  | bool (b : Bool) : IsProper (.bool b)
  | number {n : Number} (h : n.IsProper) : IsProper (.number n)
  | string (s : String) : IsProper (.string s)
  | array {items : List Json} (h : ∀ item ∈ items, IsProper item) : IsProper (.array items)
  | object {members : List (String × Json)} (hascending : Members.IsAscending members)
    (h : ∀ entry ∈ members, IsProper entry.2) : IsProper (.object members)

end Json

namespace Source

/-! ## Texts -/

/-- A control character is written by its number. -/
theorem hexFour?_control : ∀ n < 32, hexFour? '0' '0' (Hexadecimal.digit (n / 16))
    (Hexadecimal.digit (n % 16)) = some n := by
  decide

/-- One character inside quotes is scanned to itself. -/
theorem scanQuoted_escape (c : Char) (rest : List Char) (q : Quoted) :
    scanQuoted (Json.escape c ++ rest) q = scanQuoted rest (q.push c) := by
  unfold Json.escape
  iterate 7
    split
    next h =>
      subst h
      simp [scanQuoted, escaped?]
  split
  next hcontrol =>
    have hhigh : isHighHalf c.toNat = false := by simp [isHighHalf]; omega
    have hlow : isLowHalf c.toNat = false := by simp [isLowHalf]; omega
    simp [scanQuoted, hexFour?_control c.toNat hcontrol, hhigh, hlow]
  next hquote hbackslash _ _ _ _ _ hprinted =>
    rw [List.singleton_append, scanQuoted.eq_def]
    split <;> simp_all

/-- A text between quotes is scanned to itself. -/
theorem scanQuoted_flatMap (cs rest : List Char) (q : Quoted) :
    scanQuoted (cs.flatMap Json.escape ++ '"' :: rest) q =
      some ({ q with reversed := cs.reverse ++ q.reversed }, rest) := by
  induction cs generalizing q with
  | nil => simp [scanQuoted]
  | cons c cs ih =>
    rw [List.flatMap_cons, List.append_assoc, scanQuoted_escape, ih]
    simp [Quoted.push]

theorem renderText_append (s : String) (rest : List Char) :
    Json.renderText s ++ rest = '"' :: (s.toList.flatMap Json.escape ++ '"' :: rest) := by
  simp [Json.renderText]

theorem scanText_renderText (s : String) (rest : List Char) :
    scanText (s.toList.flatMap Json.escape ++ '"' :: rest) = (.string s, rest) := by
  simp [scanText, scanQuoted_flatMap]

/-! ## What is written of a value -/

mutual

/-- The source of a value that was written inside `depth` containers. -/
def asWritten (depth : Nat) : Json → Source
  | .null => .null
  | .bool b => .bool b
  | .number n => .number n
  | .string s => .string s
  | .array items =>
    if depth < depthLimit then .list (itemsAsWritten (depth + 1) items) .closed else .unreadable
  | .object members =>
    if depth < depthLimit then .record (membersAsWritten (depth + 1) members) .closed
    else .unreadable

def itemsAsWritten (depth : Nat) : List Json → List Source
  | [] => []
  | item :: rest => asWritten depth item :: itemsAsWritten depth rest

def membersAsWritten (depth : Nat) : List (String × Json) → List (String × Source)
  | [] => []
  | (name, value) :: rest => (name, asWritten depth value) :: membersAsWritten depth rest

end

theorem itemsAsWritten_eq (depth : Nat) (items : List Json) :
    itemsAsWritten depth items = items.map (asWritten depth) := by
  induction items with
  | nil => rfl
  | cons item rest ih => rw [itemsAsWritten, ih, List.map_cons]

theorem membersAsWritten_eq (depth : Nat) (members : Members Json) :
    membersAsWritten depth members = members.mapValues (asWritten depth) := by
  induction members with
  | nil => rfl
  | cons entry rest ih =>
    obtain ⟨name, value⟩ := entry
    rw [membersAsWritten, ih]
    rfl

theorem skipBlanks_cons {c : Char} (hc : isJsonBlank c = false) (cs : List Char) :
    skipBlanks (c :: cs) = c :: cs := by
  simp [skipBlanks, hc]

theorem head_of_scanNumber {cs rest : List Char} {n : Number}
    (h : scanNumber cs = (.number n, rest)) :
    ∃ c cs', cs = c :: cs' ∧ (c = '-' ∨ Numeral.isDigit c = true) := by
  cases cs with
  | nil => cases h
  | cons c cs =>
    refine ⟨c, cs, rfl, Classical.byContradiction fun hnot => ?_⟩
    obtain ⟨hminus, hdigit⟩ := not_or.mp hnot
    have hbroken : scanNumber (c :: cs) = (.broken, []) := by
      have hunsigned := scanNumber_minus false hminus cs
      rw [minus, if_neg (by decide), List.nil_append] at hunsigned
      rw [hunsigned, scanUnsigned, spanDigits]
      simp [hdigit]
    rw [hbroken] at h
    cases h

/-- What is written of a value begins neither with a blank nor with what may follow a value. -/
theorem head_render {v : Json} (h : v.IsProper) :
    ∃ c cs, v.render = c :: cs ∧ isJsonBlank c = false ∧ c ≠ ']' ∧ c ≠ ',' := by
  cases h with
  | null => exact ⟨_, _, rfl, by decide⟩
  | bool b => cases b <;> exact ⟨_, _, rfl, by decide⟩
  | string s => exact ⟨_, _, rfl, by decide⟩
  | array => exact ⟨_, _, rfl, by decide⟩
  | object => exact ⟨_, _, rfl, by decide⟩
  | number hn =>
    have hscan := scanNumber_renderNumber hn endsNumber_nil
    rw [List.append_nil] at hscan
    obtain ⟨c, cs, htext, hc⟩ := head_of_scanNumber hscan
    refine ⟨c, cs, htext, ?_⟩
    rcases hc with rfl | hc
    · decide
    · refine ⟨Bool.eq_false_iff.mpr fun hblank => ?_, ?_, ?_⟩
      · simp only [isJsonBlank, Bool.or_eq_true, decide_eq_true_eq] at hblank
        rcases hblank with ((rfl | rfl) | rfl) | rfl <;> cases hc
      · rintro rfl
        cases hc
      · rintro rfl
        cases hc

theorem length_render_pos {v : Json} (h : v.IsProper) : 0 < v.render.length := by
  obtain ⟨c, cs, htext, -⟩ := head_render h
  rw [htext]
  exact Nat.succ_pos _

/-- A value is scanned to its source, whatever follows, with fuel for every character. -/
def IsScanned (v : Json) : Prop :=
  ∀ (fuel depth : Nat) (rest : List Char), 2 * v.render.length ≤ fuel → EndsNumber rest →
    scanValue fuel depth (v.render ++ rest) = (asWritten depth v, rest)

/-! ## Items -/

variable {items : List Json} {depth : Nat}

theorem renderItems_cons (item : Json) (items : List Json) :
    Json.renderItems (item :: items) =
      item.render ++ items.flatMap fun item => ',' :: item.render := by
  induction items generalizing item with
  | nil => simp [Json.renderItems]
  | cons next rest ih => simp [Json.renderItems, ih next]

/-- What follows a value in a container: a comma or a closing bracket. -/
structure Behind (rest : List Char) : Prop where
  endsNumber : EndsNumber rest
  skipBlanks_eq : skipBlanks rest = rest

theorem behind_cons {c : Char} (hc : c = ',' ∨ c = ']' ∨ c = '\x7d') (rest : List Char) :
    Behind (c :: rest) where
  endsNumber := endsNumber_cons hc
  skipBlanks_eq := skipBlanks_cons (by rcases hc with rfl | rfl | rfl <;> rfl) rest

theorem behind_items (items : List Json) (rest : List Char) :
    Behind ((items.flatMap fun item => ',' :: item.render) ++ ']' :: rest) := by
  cases items with
  | nil => exact behind_cons (.inr (.inl rfl)) rest
  | cons item items => exact behind_cons (.inl rfl) _

/-- An item is scanned where it stands. -/
theorem scanItems_item (depth : Nat) {item : Json} (hproper : item.IsProper)
    (hscanned : IsScanned item) (fuel : Nat) (hfuel : 2 * item.render.length ≤ fuel)
    {rest : List Char} (hrest : Behind rest) (first : Bool) (done : List Source) :
    scanItems (fuel + 1) depth first
        ((if first then [] else [',']) ++ (item.render ++ rest)) done =
      scanItems fuel depth false rest (asWritten depth item :: done) := by
  obtain ⟨c, cs, htext, hblank, hbracket, hcomma⟩ := head_render hproper
  have hscan := hscanned fuel depth rest hfuel hrest.endsNumber
  rw [htext, List.cons_append] at hscan ⊢
  cases first with
  | true =>
    rw [if_pos rfl, List.nil_append, scanItems.eq_def]
    dsimp only
    split
    next h => exact absurd (List.cons.inj h).1 hbracket
    next h => exact absurd (List.cons.inj h).1 hcomma
    next => rw [if_pos ⟨rfl, List.cons_ne_nil _ _⟩, hscan, hrest.skipBlanks_eq]
  | false =>
    rw [if_neg (by decide), List.singleton_append, scanItems]
    simp only [Bool.false_eq_true, if_false, skipBlanks_cons hblank]
    split
    next h => exact absurd (List.cons.inj h).1 hbracket
    next => rw [hscan, hrest.skipBlanks_eq]

/-- Items behind the first one are scanned one after the other. -/
theorem scanItems_behind (hitems : ∀ item ∈ items, item.IsProper ∧ IsScanned item) {fuel : Nat}
    (rest : List Char) (done : List Source)
    (hfuel : 2 * (items.flatMap fun item => ',' :: item.render).length + 1 ≤ fuel) :
    scanItems fuel depth false ((items.flatMap fun item => ',' :: item.render) ++ ']' :: rest) done =
      (done.reverse ++ items.map (asWritten depth), .closed, rest) := by
  induction items generalizing fuel done with
  | nil =>
    obtain ⟨fuel, rfl⟩ := Nat.exists_eq_add_of_le' (Nat.le_of_add_left_le hfuel)
    simp [scanItems]
  | cons item items ih =>
    obtain ⟨⟨hproper, hscanned⟩, hitems⟩ := List.forall_mem_cons.mp hitems
    obtain ⟨fuel, rfl⟩ := Nat.exists_eq_add_of_le' (Nat.le_of_add_left_le hfuel)
    simp only [List.flatMap_cons, List.length_append, List.length_cons] at hfuel
    have hfirst := scanItems_item depth hproper hscanned fuel (by omega)
      (behind_items items rest) false done
    rw [if_neg (by decide), List.singleton_append] at hfirst
    rw [List.flatMap_cons, List.append_assoc, List.cons_append, hfirst,
      ih hitems _ (by omega)]
    simp

/-- All items of a list are scanned, up to its closing bracket. -/
theorem scanItems_renderItems (hitems : ∀ item ∈ items, item.IsProper ∧ IsScanned item) {fuel : Nat}
    (rest : List Char) (hfuel : 2 * (Json.renderItems items).length + 1 ≤ fuel) :
    scanItems fuel depth true (Json.renderItems items ++ ']' :: rest) [] =
      (items.map (asWritten depth), .closed, rest) := by
  obtain ⟨fuel, rfl⟩ := Nat.exists_eq_add_of_le' (Nat.le_of_add_left_le hfuel)
  cases items with
  | nil => simp [Json.renderItems, scanItems]
  | cons item items =>
    obtain ⟨⟨hproper, hscanned⟩, hitems⟩ := List.forall_mem_cons.mp hitems
    rw [renderItems_cons] at hfuel ⊢
    rw [List.length_append] at hfuel
    have hfirst := scanItems_item depth hproper hscanned fuel (by omega)
      (behind_items items rest) true []
    rw [if_pos rfl, List.nil_append] at hfirst
    have hlength := length_render_pos hproper
    rw [List.append_assoc, hfirst, scanItems_behind hitems rest _ (by omega)]
    rfl

/-! ## Members -/

variable {members : Members Json}

/-- What is written of a member. -/
def entryText (entry : String × Json) : List Char :=
  Json.renderText entry.1 ++ ':' :: entry.2.render

theorem renderMembers_cons (entry : String × Json) (members : Members Json) :
    Json.renderMembers (entry :: members) =
      entryText entry ++ members.flatMap fun entry => ',' :: entryText entry := by
  induction members generalizing entry with
  | nil => simp [Json.renderMembers, entryText]
  | cons next rest ih => simp [Json.renderMembers, entryText, ih next]

theorem behind_members (members : Members Json) (rest : List Char) :
    Behind ((members.flatMap fun entry => ',' :: entryText entry) ++ '\x7d' :: rest) := by
  cases members with
  | nil => exact behind_cons (.inr (.inr rfl)) rest
  | cons entry members => exact behind_cons (.inl rfl) _

/-- A member is scanned where it stands. -/
theorem scanEntries_entry (depth : Nat) {entry : String × Json} (hscanned : IsScanned entry.2)
    (fuel : Nat) (hfuel : 2 * (entryText entry).length ≤ fuel) {rest : List Char} (hrest : Behind rest)
    (first : Bool) (done : List (String × Source)) :
    scanEntries (fuel + 1) depth first
        ((if first then [] else [',']) ++ (entryText entry ++ rest)) done .closed =
      scanEntries fuel depth false rest ((entry.1, asWritten depth entry.2) :: done) .closed := by
  obtain ⟨name, value⟩ := entry
  have hvalue : 2 * value.render.length ≤ fuel := by
    simp only [entryText, List.length_append, List.length_cons] at hfuel
    omega
  have hscan := hscanned fuel depth rest hvalue hrest.endsNumber
  have hcolon (cs : List Char) : skipBlanks (':' :: cs) = ':' :: cs := skipBlanks_cons rfl cs
  have hquote (cs : List Char) : skipBlanks ('"' :: cs) = '"' :: cs := skipBlanks_cons rfl cs
  rw [entryText, List.append_assoc, renderText_append, List.cons_append]
  cases first with
  | true =>
    rw [if_pos rfl, List.nil_append, scanEntries.eq_def]
    simp [scanQuoted_flatMap, hcolon, hscan, hrest.skipBlanks_eq]
  | false =>
    rw [if_neg (by decide), List.singleton_append, scanEntries.eq_def]
    simp [scanQuoted_flatMap, hcolon, hquote, hscan, hrest.skipBlanks_eq]

/-- Members behind the first one are scanned one after the other. -/
theorem scanEntries_behind (hmembers : ∀ entry ∈ members, IsScanned entry.2) {fuel : Nat}
    (rest : List Char) (done : List (String × Source))
    (hfuel : 2 * (members.flatMap fun entry => ',' :: entryText entry).length + 1 ≤ fuel) :
    scanEntries fuel depth false
        ((members.flatMap fun entry => ',' :: entryText entry) ++ '\x7d' :: rest) done .closed =
      (done.reverse ++ members.mapValues (asWritten depth), .closed, rest) := by
  induction members generalizing fuel done with
  | nil =>
    obtain ⟨fuel, rfl⟩ := Nat.exists_eq_add_of_le' (Nat.le_of_add_left_le hfuel)
    simp [scanEntries, Members.mapValues]
  | cons entry members ih =>
    obtain ⟨hscanned, hmembers⟩ := List.forall_mem_cons.mp hmembers
    obtain ⟨fuel, rfl⟩ := Nat.exists_eq_add_of_le' (Nat.le_of_add_left_le hfuel)
    simp only [List.flatMap_cons, List.length_append, List.length_cons] at hfuel
    have hfirst := scanEntries_entry depth hscanned fuel (by omega)
      (behind_members members rest) false done
    rw [if_neg (by decide), List.singleton_append] at hfirst
    rw [List.flatMap_cons, List.append_assoc, List.cons_append, hfirst, ih hmembers _ (by omega)]
    simp [Members.mapValues]

/-- All members of an object are scanned, up to its closing brace. -/
theorem scanEntries_renderMembers (hmembers : ∀ entry ∈ members, IsScanned entry.2) {fuel : Nat}
    (rest : List Char) (hfuel : 2 * (Json.renderMembers members).length + 1 ≤ fuel) :
    scanEntries fuel depth true (Json.renderMembers members ++ '\x7d' :: rest) [] .closed =
      (members.mapValues (asWritten depth), .closed, rest) := by
  obtain ⟨fuel, rfl⟩ := Nat.exists_eq_add_of_le' (Nat.le_of_add_left_le hfuel)
  cases members with
  | nil => simp [Json.renderMembers, scanEntries, Members.mapValues]
  | cons entry members =>
    obtain ⟨hscanned, hmembers⟩ := List.forall_mem_cons.mp hmembers
    rw [renderMembers_cons] at hfuel ⊢
    have hlength : 0 < (entryText entry).length := by simp [entryText]
    rw [List.length_append] at hfuel
    have hfirst := scanEntries_entry depth hscanned fuel (by omega)
      (behind_members members rest) true []
    rw [if_pos rfl, List.nil_append] at hfirst
    rw [List.append_assoc, hfirst, scanEntries_behind hmembers rest _ (by omega)]
    rfl

/-! ## Values -/

theorem atDepth_closed {container : Source} (h : container.isComplete = true) (depth : Nat) :
    atDepth (depth + 1) container =
      if depth < depthLimit then container else .unreadable := by
  rw [atDepth, h]
  rfl

theorem skipBlanks_renderItems (hitems : ∀ item ∈ items, item.IsProper) (rest : List Char) :
    skipBlanks (Json.renderItems items ++ ']' :: rest) = Json.renderItems items ++ ']' :: rest := by
  cases items with
  | nil => exact skipBlanks_cons rfl rest
  | cons item items =>
    obtain ⟨c, cs, htext, hblank, -⟩ := head_render (hitems item List.mem_cons_self)
    rw [renderItems_cons, htext]
    exact skipBlanks_cons hblank _

theorem skipBlanks_renderMembers (members : Members Json) (rest : List Char) :
    skipBlanks (Json.renderMembers members ++ '\x7d' :: rest) =
      Json.renderMembers members ++ '\x7d' :: rest := by
  cases members with
  | nil => exact skipBlanks_cons rfl rest
  | cons entry members =>
    rw [renderMembers_cons]
    exact skipBlanks_cons rfl _

theorem scanValue_text (fuel depth : Nat) (cs : List Char) :
    scanValue (fuel + 1) depth ('"' :: cs) = scanText cs := rfl

theorem scanValue_list (fuel depth : Nat) (cs : List Char) :
    scanValue (fuel + 1) depth ('[' :: cs) =
      let (items, ending, rest) := scanItems fuel (depth + 1) true (skipBlanks cs) []
      (atDepth (depth + 1) (.list items ending), rest) := rfl

theorem scanValue_record (fuel depth : Nat) (cs : List Char) :
    scanValue (fuel + 1) depth ('\x7b' :: cs) =
      let (entries, ending, rest) := scanEntries fuel (depth + 1) true (skipBlanks cs) [] .closed
      (atDepth (depth + 1) (.record entries ending), rest) := rfl

/-- What begins with a minus or a digit is scanned as a number. -/
theorem scanValue_number {c : Char} (hc : c = '-' ∨ Numeral.isDigit c = true) (fuel depth : Nat)
    (cs : List Char) : scanValue (fuel + 1) depth (c :: cs) = scanNumber (c :: cs) := by
  have hother (d : Char) (hd : d ≠ '-' ∧ Numeral.isDigit d = false) : c ≠ d := by
    rintro rfl
    exact hc.elim hd.1 fun hdigit => Bool.noConfusion (hd.2.symm.trans hdigit)
  have hblank : isJsonBlank c = false := by
    simp [isJsonBlank, hother ' ' (by decide), hother '\n' (by decide), hother '\t' (by decide),
      hother '\r' (by decide)]
  rw [scanValue, skipBlanks_cons hblank]
  split
  next h => cases h
  next h => exact absurd (List.cons.inj h).1 (hother _ (by decide))
  next h => exact absurd (List.cons.inj h).1 (hother _ (by decide))
  next h => exact absurd (List.cons.inj h).1 (hother _ (by decide))
  next h => exact absurd (List.cons.inj h).1 (hother _ (by decide))
  next h => exact absurd (List.cons.inj h).1 (hother _ (by decide))
  next h => exact absurd (List.cons.inj h).1 (hother _ (by decide))
  next => rfl

theorem isScanned_number {n : Number} (hn : n.IsProper) : IsScanned (.number n) := by
  intro fuel depth rest hfuel hrest
  have hlength := length_render_pos (.number hn)
  have hscan := scanNumber_renderNumber hn hrest
  obtain ⟨c, cs, htext, hc⟩ := head_of_scanNumber hscan
  obtain ⟨fuel, rfl⟩ := Nat.exists_eq_add_of_le' (Nat.le_trans (by omega : 1 ≤ _) hfuel)
  rw [Json.render, htext, scanValue_number hc, ← htext]
  exact hscan

theorem isScanned_array (hitems : ∀ item ∈ items, item.IsProper ∧ IsScanned item) :
    IsScanned (.array items) := by
  intro fuel depth rest hfuel _
  have hlength : (Json.array items).render.length = (Json.renderItems items).length + 2 := by
    simp [Json.render]
  have htext : (Json.array items).render ++ rest =
      '[' :: (Json.renderItems items ++ ']' :: rest) := by
    simp [Json.render]
  obtain ⟨fuel, rfl⟩ := Nat.exists_eq_add_of_le' (Nat.le_trans (by omega : 1 ≤ _) hfuel)
  rw [htext, scanValue_list, skipBlanks_renderItems (fun item hitem => (hitems item hitem).1),
    scanItems_renderItems hitems rest (by omega)]
  dsimp only
  rw [atDepth_closed rfl, asWritten, itemsAsWritten_eq]

theorem isScanned_object (hmembers : ∀ entry ∈ members, IsScanned entry.2) :
    IsScanned (.object members) := by
  intro fuel depth rest hfuel _
  have hlength : (Json.object members).render.length =
      (Json.renderMembers members).length + 2 := by
    simp [Json.render]
  have htext : (Json.object members).render ++ rest =
      '\x7b' :: (Json.renderMembers members ++ '\x7d' :: rest) := by
    simp [Json.render]
  obtain ⟨fuel, rfl⟩ := Nat.exists_eq_add_of_le' (Nat.le_trans (by omega : 1 ≤ _) hfuel)
  rw [htext, scanValue_record, skipBlanks_renderMembers,
    scanEntries_renderMembers hmembers rest (by omega)]
  dsimp only
  rw [atDepth_closed rfl, asWritten, membersAsWritten_eq]

/-- **A proper value is scanned to its source.** -/
theorem isScanned {v : Json} (h : v.IsProper) : IsScanned v := by
  -- A value takes one unit of fuel, and each of its items or members one more.
  induction h with
  | null =>
    intro fuel depth rest hfuel _
    obtain ⟨fuel, rfl⟩ := Nat.exists_eq_add_of_le' (Nat.le_trans (by decide : 1 ≤ 8) hfuel)
    simp [scanValue, Json.render, skipBlanks, isJsonBlank, scanWord, asWritten]
  | bool b =>
    intro fuel depth rest hfuel _
    have hlength := length_render_pos (.bool b)
    obtain ⟨fuel, rfl⟩ := Nat.exists_eq_add_of_le' (Nat.le_trans (by omega : 1 ≤ _) hfuel)
    cases b <;> simp [scanValue, Json.render, skipBlanks, isJsonBlank, scanWord, asWritten]
  | string s =>
    intro fuel depth rest hfuel _
    have hlength := length_render_pos (.string s)
    obtain ⟨fuel, rfl⟩ := Nat.exists_eq_add_of_le' (Nat.le_trans (by omega : 1 ≤ _) hfuel)
    rw [Json.render, renderText_append, scanValue_text]
    exact scanText_renderText s rest
  | number hn => exact isScanned_number hn
  | array hitems ih => exact isScanned_array fun item hitem => ⟨hitems item hitem, ih item hitem⟩
  | object _ _ ih => exact isScanned_object ih

/-- **A proper value that was written is taken apart into its source, and nothing is left over.** -/
theorem scan_compact {v : Json} (h : v.IsProper) : scan v.compact = (asWritten 0 v, true) := by
  have hscan := isScanned h (2 * v.render.length + 2) 0 [] (by omega) endsNumber_nil
  rw [List.append_nil] at hscan
  rw [scan, Json.compact, String.toList_ofList]
  dsimp only
  rw [hscan]
  rfl

end Source

end Outreach
