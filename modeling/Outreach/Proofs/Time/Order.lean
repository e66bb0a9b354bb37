import Mathlib.Order.Monotone.Basic
import Mathlib.Order.SuccPred.LinearLocallyFinite
import Mathlib.Tactic.IntervalCases
import Outreach.Proofs.Time.Written

/-!
# Earlier instants have smaller texts

In the years of four digits, of two instants the earlier one has the smaller text with its offset in
figures, byte by byte (`Instant.bytes_lt_iff`). The fields of a date and of a time of day have fixed
widths, so they are compared as numbers (`Date.before_of_toDays_lt`). The fractions behind them have
no fixed width: where one ends, it is the plus of the offset that is compared with a digit or a point
of the other, and it is smaller than both (`Numeral.append_lt_append`).
-/

namespace Outreach

/-! ## Days in order -/

namespace Date

/-- The month of a date, the months counted through from the year zero. -/
def monthIndex (d : Date) : Int :=
  12 * d.year + d.month - 1

/-- The first day of a month, the months counted through. -/
def monthStart (index : Int) : Int :=
  toDays ⟨index / 12, (index % 12 + 1).toNat, 1⟩

theorem daysInMonth_pos (year : Int) (month : Nat) : 0 < daysInMonth year month := by
  unfold daysInMonth
  repeat' split
  all_goals decide

/-- A month begins behind the last day of the one before it. -/
theorem monthStart_succ (index : Int) :
    monthStart (index + 1) = monthStart index + daysInMonth (index / 12) (index % 12 + 1).toNat := by
  have hlow : 0 ≤ index % 12 := Int.emod_nonneg _ (by decide)
  have hhigh : index % 12 < 12 := Int.emod_lt_of_pos _ (by decide)
  have hleap := isLeap_iff (index / 12)
  unfold monthStart
  by_cases hlast : index % 12 = 11
  · have hyear : (index + 1) / 12 = index / 12 + 1 := by omega
    have hfirst : (index + 1) % 12 = 0 := by omega
    rw [hyear, hfirst, hlast]
    simp [toDays, daysInMonth]
    omega
  · have hyear : (index + 1) / 12 = index / 12 := by omega
    have hnext : (index + 1) % 12 = index % 12 + 1 := by omega
    rw [hyear, hnext]
    generalize index / 12 = year at *
    generalize index % 12 = month at *
    -- Only the length of February depends on the year.
    by_cases hfebruary : month = 1
    · subst hfebruary
      cases hyear : isLeap year <;> simp [hyear] at hleap <;> simp [toDays, daysInMonth, hyear] <;>
        omega
    · interval_cases month <;> first | contradiction | (simp [toDays, daysInMonth]; omega)

theorem monthStart_lt_succ (index : Int) : monthStart index < monthStart (index + 1) := by
  have hlength := daysInMonth_pos (index / 12) (index % 12 + 1).toNat
  rw [monthStart_succ]
  omega

theorem monthStart_mono {index later : Int} (h : index ≤ later) :
    monthStart index ≤ monthStart later :=
  monotone_int_of_le_succ (fun index => (monthStart_lt_succ index).le) h

variable {d e : Date}

theorem exists?_iff : d.exists? = true ↔
    1 ≤ d.month ∧ d.month ≤ 12 ∧ 1 ≤ d.day ∧ d.day ≤ daysInMonth d.year d.month := by
  simp [exists?, and_assoc]

/-- A date lies in its month. -/
theorem toDays_eq (h : d.exists? = true) :
    d.toDays = monthStart d.monthIndex + (d.day - 1) ∧ d.toDays < monthStart (d.monthIndex + 1) := by
  obtain ⟨hfirst, hlast, hday, hlength⟩ := exists?_iff.mp h
  have hyear : d.monthIndex / 12 = d.year := by unfold monthIndex; omega
  have hmonth : (d.monthIndex % 12 + 1).toNat = d.month := by unfold monthIndex; omega
  have hdays : d.toDays = monthStart d.monthIndex + (d.day - 1) := by
    rw [monthStart, hyear, hmonth]
    simp only [toDays]
    omega
  refine ⟨hdays, ?_⟩
  rw [monthStart_succ, hyear, hmonth, hdays]
  omega

/-- Of two dates the earlier one has the smaller year, or else the smaller month, or else the smaller
day. -/
theorem before_of_toDays_lt (hd : d.exists? = true) (he : e.exists? = true)
    (h : d.toDays < e.toDays) :
    d.year < e.year ∨ (d.year = e.year ∧
      (d.month < e.month ∨ (d.month = e.month ∧ d.day < e.day))) := by
  obtain ⟨hdays, -⟩ := toDays_eq hd
  obtain ⟨hdays', hend⟩ := toDays_eq he
  obtain ⟨hfirst, hlast, -⟩ := exists?_iff.mp hd
  obtain ⟨hfirst', hlast', -⟩ := exists?_iff.mp he
  rcases lt_trichotomy d.monthIndex e.monthIndex with hlt | heq | hgt
  · unfold monthIndex at hlt
    omega
  · rw [heq] at hdays
    unfold monthIndex at heq
    omega
  · -- The month of the later date would end before that of the earlier one.
    have hle : monthStart (e.monthIndex + 1) ≤ monthStart d.monthIndex :=
      monthStart_mono (by omega)
    obtain ⟨-, -, hday, -⟩ := exists?_iff.mp hd
    omega

end Date

/-! ## Digits in order -/

namespace Numeral

variable {c d : Char} {xs ys : List Char}

theorem toNat_of_isDigit (h : isDigit c = true) : c.toNat = 48 + valueOf c ∧ valueOf c < 10 := by
  simp only [isDigit, Bool.and_eq_true, decide_eq_true_eq] at h
  unfold valueOf
  omega

theorem lt_iff_valueOf_lt (hc : isDigit c = true) (hd : isDigit d = true) :
    c < d ↔ valueOf c < valueOf d := by
  have hvalue := toNat_of_isDigit hc
  have hvalue' := toNat_of_isDigit hd
  rw [Char.lt_def, UInt32.lt_iff_toNat_lt]
  change c.toNat < d.toNat ↔ _
  omega

/-- The sign of an offset is smaller than every digit. -/
theorem plus_lt_of_isDigit (h : isDigit c = true) : '+' < c := by
  have hvalue := toNat_of_isDigit h
  rw [Char.lt_def, UInt32.lt_iff_toNat_lt]
  change 43 < c.toNat
  omega

theorem read_cons (c : Char) (cs : List Char) :
    read (c :: cs) = valueOf c * 10 ^ cs.length + read cs := by
  rw [← List.singleton_append, read_append]
  simp [read, shiftIn]

theorem read_lt (h : ∀ c ∈ xs, isDigit c = true) : read xs < 10 ^ xs.length := by
  induction xs with
  | nil => simp [read]
  | cons c rest ih =>
    obtain ⟨hc, hrest⟩ := List.forall_mem_cons.mp h
    have hvalue := (toNat_of_isDigit hc).2
    have hbehind := ih hrest
    have hbound : (valueOf c + 1) * 10 ^ rest.length ≤ 10 * 10 ^ rest.length :=
      Nat.mul_le_mul_right _ hvalue
    rw [Nat.add_mul] at hbound
    rw [read_cons, List.length_cons, Nat.pow_succ]
    omega

/-- Digits behind a point count in a width as if zeros filled it. -/
def inWidth (width : Nat) (digits : List Char) : Nat :=
  read digits * 10 ^ (width - digits.length)

theorem inWidth_cons {width : Nat} (hlength : xs.length ≤ width) (c : Char) :
    inWidth (width + 1) (c :: xs) = valueOf c * 10 ^ width + inWidth width xs := by
  have hpow : 10 ^ xs.length * 10 ^ (width - xs.length) = 10 ^ width := by
    rw [← Nat.pow_add, Nat.add_sub_cancel' hlength]
  rw [inWidth, read_cons, List.length_cons, Nat.add_sub_add_right, Nat.add_mul, Nat.mul_assoc, hpow]
  rfl

theorem inWidth_lt {width : Nat} (h : ∀ c ∈ xs, isDigit c = true) (hlength : xs.length ≤ width) :
    inWidth width xs < 10 ^ width := by
  calc inWidth width xs < 10 ^ xs.length * 10 ^ (width - xs.length) :=
        Nat.mul_lt_mul_of_pos_right (read_lt h) (Nat.pow_pos (by decide))
    _ = 10 ^ width := by rw [← Nat.pow_add, Nat.add_sub_cancel' hlength]

/-- Of two rows of digits the one that counts for less makes the smaller text, whatever stands behind
them; but where it is the shorter one, a plus has to stand behind it. -/
theorem append_lt_append {width : Nat} {a b : List Char} (hx : ∀ c ∈ xs, isDigit c = true)
    (hy : ∀ c ∈ ys, isDigit c = true) (hxs : xs.length ≤ width) (hys : ys.length ≤ width)
    (hplus : xs.length < ys.length → ∃ rest, a = '+' :: rest)
    (h : inWidth width xs < inWidth width ys) : xs ++ a < ys ++ b := by
  induction width generalizing xs ys with
  | zero =>
    obtain rfl := List.length_eq_zero_iff.mp (Nat.le_zero.mp hxs)
    obtain rfl := List.length_eq_zero_iff.mp (Nat.le_zero.mp hys)
    exact absurd h (Nat.lt_irrefl _)
  | succ width ih =>
    cases ys with
    | nil => simp [inWidth, read] at h
    | cons d ys =>
      obtain ⟨hd, hy⟩ := List.forall_mem_cons.mp hy
      cases xs with
      | nil =>
        obtain ⟨rest, rfl⟩ := hplus (by simp)
        exact List.cons_lt_cons_iff.mpr (.inl (plus_lt_of_isDigit hd))
      | cons c xs =>
        obtain ⟨hc, hx⟩ := List.forall_mem_cons.mp hx
        simp only [List.length_cons, Nat.add_le_add_iff_right, Nat.add_lt_add_iff_right] at *
        rw [inWidth_cons hxs, inWidth_cons hys] at h
        have hlow := inWidth_lt hy hys
        rcases Nat.lt_trichotomy (valueOf c) (valueOf d) with hlt | heq | hgt
        · exact List.cons_lt_cons_iff.mpr (.inl ((lt_iff_valueOf_lt hc hd).mpr hlt))
        · have hsame : c = d := by
            have hvalue := toNat_of_isDigit hc
            have hvalue' := toNat_of_isDigit hd
            exact Char.toNat_inj.mp (by omega)
          rw [heq] at h
          exact List.cons_lt_cons_iff.mpr (.inr ⟨hsame, ih hx hy hxs hys hplus (by omega)⟩)
        · have hmore : (valueOf d + 1) * 10 ^ width ≤ valueOf c * 10 ^ width :=
            Nat.mul_le_mul_right _ hgt
          rw [Nat.add_mul] at hmore
          omega

/-- Of two numbers in a fixed width the smaller one makes the smaller text; where they are the same,
what stands behind them decides. -/
theorem padded_append_lt {width m n : Nat} {a b : List Char} (hm : m < 10 ^ width)
    (hn : n < 10 ^ width) (hwidth : 0 < width) (h : m < n ∨ (m = n ∧ a < b)) :
    padded width m ++ a < padded width n ++ b := by
  rcases h with hlt | ⟨rfl, hlt⟩
  · have hlength := length_padded hm hwidth
    have hlength' := length_padded hn hwidth
    have hcount : inWidth width (padded width m) < inWidth width (padded width n) := by
      simpa [inWidth, hlength, hlength', read_padded] using hlt
    exact append_lt_append (List.all_eq_true.mp (all_isDigit_padded width m))
      (List.all_eq_true.mp (all_isDigit_padded width n)) hlength.le hlength'.le (by omega) hcount
  · exact List.append_left_lt hlt

end Numeral

/-! ## Bytes in order -/

namespace Text

/-- A text in which every character is one byte. -/
def IsAscii (cs : List Char) : Prop :=
  ∀ c ∈ cs, c.val ≤ 127

variable {c : Char} {cs ds : List Char}

theorem isAscii_nil : IsAscii [] :=
  List.forall_mem_nil _

theorem isAscii_cons : IsAscii (c :: cs) ↔ c.val ≤ 127 ∧ IsAscii cs :=
  List.forall_mem_cons

theorem isAscii_append : IsAscii (cs ++ ds) ↔ IsAscii cs ∧ IsAscii ds :=
  List.forall_mem_append

theorem isAscii_of_isDigit (h : ∀ c ∈ cs, Numeral.isDigit c = true) : IsAscii cs := by
  intro c hc
  have hvalue := Numeral.toNat_of_isDigit (h c hc)
  rw [UInt32.le_iff_toNat_le]
  change c.toNat ≤ 127
  omega

/-- The bytes of such a text. -/
theorem bytes_eq (h : IsAscii cs) :
    (String.ofList cs).toUTF8.data.toList = cs.map fun c => c.val.toUInt8 := by
  rw [String.toUTF8_eq_toByteArray, String.toByteArray_ofList, List.utf8Encode,
    List.data_toByteArray, List.toList_toArray]
  induction cs with
  | nil => rfl
  | cons c rest ih =>
    obtain ⟨hc, hrest⟩ := isAscii_cons.mp h
    have hone := String.utf8EncodeChar_eq_singleton (Char.utf8Size_eq_one_iff.mpr hc)
    rw [List.flatMap_cons, hone, ih hrest, List.map_cons, List.singleton_append]

/-- Of two such texts the smaller one has the smaller bytes. -/
theorem bytes_lt (hcs : IsAscii cs) (hds : IsAscii ds) (h : cs < ds) :
    (String.ofList cs).toUTF8.data.toList < (String.ofList ds).toUTF8.data.toList := by
  rw [bytes_eq hcs, bytes_eq hds]
  induction cs generalizing ds with
  | nil =>
    cases ds with
    | nil => exact absurd h (List.lt_irrefl _)
    | cons d ds => exact List.nil_lt_cons _ _
  | cons c cs ih =>
    cases ds with
    | nil => exact absurd h (List.not_lt_nil _)
    | cons d ds =>
      obtain ⟨hc, hcs⟩ := isAscii_cons.mp hcs
      obtain ⟨hd, hds⟩ := isAscii_cons.mp hds
      rcases List.cons_lt_cons_iff.mp h with hlt | ⟨hsame, hlt⟩
      · refine List.cons_lt_cons_iff.mpr (.inl ?_)
        rw [Char.lt_def, UInt32.lt_iff_toNat_lt] at hlt
        rw [UInt32.le_iff_toNat_le] at hc hd
        rw [UInt8.lt_iff_toNat_lt, UInt32.toNat_toUInt8, UInt32.toNat_toUInt8]
        simp only [UInt32.reduceToNat] at hc hd
        omega
      · rw [hsame]
        exact List.cons_lt_cons_iff.mpr (.inr ⟨rfl, ih hcs hds hlt⟩)

end Text

/-! ## Instants in order -/

namespace Instant

variable {s t : Instant}

/-- What follows the seconds is nothing, or a point and digits that make up the nanoseconds. -/
theorem fraction_eq {nanos : Nat} (h : nanos < nanosPerSecond) :
    (nanos = 0 ∧ fraction nanos = []) ∨ ∃ digits, fraction nanos = '.' :: digits ∧
      (∀ c ∈ digits, Numeral.isDigit c = true) ∧ digits.length ≤ 9 ∧
        Numeral.inWidth 9 digits = nanos := by
  unfold nanosPerSecond at h
  have hpadded {width n : Nat} (hn : n < 10 ^ width) (hwidth : 0 < width) (hnine : width ≤ 9)
      (hvalue : n * 10 ^ (9 - width) = nanos) : ∃ digits, '.' :: Numeral.padded width n =
        '.' :: digits ∧ (∀ c ∈ digits, Numeral.isDigit c = true) ∧ digits.length ≤ 9 ∧
          Numeral.inWidth 9 digits = nanos := by
    have hlength := Numeral.length_padded hn hwidth
    refine ⟨_, rfl, List.all_eq_true.mp (Numeral.all_isDigit_padded width n), by omega, ?_⟩
    rw [Numeral.inWidth, Numeral.read_padded, hlength, hvalue]
  unfold fraction
  by_cases hzero : nanos = 0
  · exact .inl ⟨hzero, if_pos hzero⟩
  · rw [if_neg hzero]
    right
    split
    next hmilli => exact hpadded (by omega) (by decide) (by decide) (by omega)
    next =>
      split
      next hmicro => exact hpadded (by omega) (by decide) (by decide) (by omega)
      next => exact hpadded (by omega) (by decide) (by decide) (by omega)

/-- Of two fractions of a second, with a plus behind them, the smaller one makes the smaller text. -/
theorem fraction_append_lt {m n : Nat} (hn : n < nanosPerSecond) (h : m < n) (rest : List Char) :
    fraction m ++ '+' :: rest < fraction n ++ '+' :: rest := by
  have hm : m < nanosPerSecond := Nat.lt_trans h hn
  rcases fraction_eq hn with ⟨rfl, -⟩ | ⟨ys, hys, hy, hylength, hyvalue⟩
  · exact absurd h (Nat.not_lt_zero m)
  · rcases fraction_eq hm with ⟨-, hxs⟩ | ⟨xs, hxs, hx, hxlength, hxvalue⟩
    · rw [hxs, hys]
      exact List.cons_lt_cons_iff.mpr (.inl (by decide))
    · rw [hxs, hys]
      refine List.cons_lt_cons_iff.mpr (.inr ⟨rfl, ?_⟩)
      exact Numeral.append_lt_append hx hy hxlength hylength (fun _ => ⟨rest, rfl⟩) (by omega)

/-- The numbers that an instant is written with, from the year to the second. -/
def fields (t : Instant) : List Nat :=
  [t.date.year.toNat, t.date.month, t.date.day, t.timeOfDay / 3600, t.timeOfDay / 60 % 60,
    t.writtenSecond, t.writtenNanos]

/-- An instant of a year of four digits. -/
structure IsCommon (t : Instant) : Prop extends t.IsProper where
  digits : 0 ≤ t.date.year ∧ t.date.year ≤ 9999

/-- The earlier instant has the smaller fields, the first in which they differ deciding. -/
theorem fields_lt (hs : s.IsCommon) (ht : t.IsCommon) (h : s.before t = true) :
    s.fields < t.fields := by
  have hbefore : s.seconds < t.seconds ∨ (s.seconds = t.seconds ∧ s.nanos < t.nanos) := by
    simpa [before] using h
  have htime : (s.timeOfDay : Int) = s.seconds % 86400 :=
    Int.toNat_of_nonneg (Int.emod_nonneg _ (by decide))
  have htime' : (t.timeOfDay : Int) = t.seconds % 86400 :=
    Int.toNat_of_nonneg (Int.emod_nonneg _ (by decide))
  have hleap := hs.nanos
  simp only [fields, List.cons_lt_cons_iff, List.not_lt_nil, and_false, or_false]
  by_cases hday : s.seconds / 86400 < t.seconds / 86400
  · -- On an earlier day.
    have hdays : s.date.toDays < t.date.toDays := by
      rw [date, date, Date.toDays_ofDays, Date.toDays_ofDays]
      exact hday
    have hfields : s.date.year < t.date.year ∨ (s.date.year = t.date.year ∧
        (s.date.month < t.date.month ∨ (s.date.month = t.date.month ∧ s.date.day < t.date.day))) :=
      Date.before_of_toDays_lt (Date.exists?_ofDays _) (Date.exists?_ofDays _) hdays
    have hyear := hs.digits
    have hyear' := ht.digits
    omega
  · have hsame : s.seconds / 86400 = t.seconds / 86400 := by omega
    have hdate : s.date = t.date := congrArg Date.ofDays hsame
    rw [hdate]
    unfold writtenSecond writtenNanos
    refine .inr ⟨rfl, .inr ⟨rfl, .inr ⟨rfl, ?_⟩⟩⟩
    split <;> split <;> omega

/-- Fields that are smaller make a smaller text. -/
theorem toList_lt_of_fields_lt (hs : s.IsCommon) (ht : t.IsCommon) (h : s.fields < t.fields) :
    s.renderNumeric.toList < t.renderNumeric.toList := by
  obtain ⟨hmonth, hmonth', hday, hday'⟩ := s.date_bounds
  obtain ⟨hmonth₂, hmonth₂', hday₂, hday₂'⟩ := t.date_bounds
  obtain ⟨hsecond, hnanos, -⟩ := written_spec hs.toIsProper
  obtain ⟨hsecond₂, hnanos₂, -⟩ := written_spec ht.toIsProper
  have htime : s.timeOfDay < 86400 ∧ t.timeOfDay < 86400 := by
    unfold timeOfDay secondsPerDay
    omega
  have hyear := hs.digits
  have hyear' := ht.digits
  simp only [fields, List.cons_lt_cons_iff, List.not_lt_nil, and_false, or_false] at h
  rw [renderNumeric, renderNumeric, toList_renderWith, toList_renderWith, yearText, yearText,
    if_pos hyear, if_pos hyear']
  -- A mark of its own stands behind every field, and is the same in both texts.
  have hpadded {width m n : Nat} {mark : Char} {a b : List Char} (hm : m < 10 ^ width)
      (hn : n < 10 ^ width) (hwidth : 0 < width) (h : m < n ∨ (m = n ∧ a < b)) :
      Numeral.padded width m ++ mark :: a < Numeral.padded width n ++ mark :: b :=
    Numeral.padded_append_lt hm hn hwidth
      (h.imp_right fun ⟨heq, hlt⟩ => ⟨heq, List.cons_lt_cons_iff.mpr (.inr ⟨rfl, hlt⟩)⟩)
  refine hpadded (by omega) (by omega) (by decide) (h.imp_right fun ⟨heq, h⟩ => ⟨heq, ?_⟩)
  refine hpadded (by omega) (by omega) (by decide) (h.imp_right fun ⟨heq, h⟩ => ⟨heq, ?_⟩)
  refine hpadded (by omega) (by omega) (by decide) (h.imp_right fun ⟨heq, h⟩ => ⟨heq, ?_⟩)
  refine hpadded (by omega) (by omega) (by decide) (h.imp_right fun ⟨heq, h⟩ => ⟨heq, ?_⟩)
  refine hpadded (by omega) (by omega) (by decide) (h.imp_right fun ⟨heq, h⟩ => ⟨heq, ?_⟩)
  refine Numeral.padded_append_lt (by omega) (by omega) (by decide)
    (h.imp_right fun ⟨heq, h⟩ => ⟨heq, ?_⟩)
  exact fraction_append_lt hnanos₂ h _

/-- The earlier instant has the smaller text. -/
theorem text_lt (hs : s.IsCommon) (ht : t.IsCommon) (h : s.before t = true) :
    s.renderNumeric < t.renderNumeric :=
  String.lt_iff.mpr (toList_lt_of_fields_lt hs ht (fields_lt hs ht h))

/-- The text of an instant of a year of four digits has one byte for every character. -/
theorem isAscii_renderNumeric (ht : t.IsCommon) : Text.IsAscii t.renderNumeric.toList := by
  have hpadded (width n : Nat) : Text.IsAscii (Numeral.padded width n) :=
    Text.isAscii_of_isDigit (List.all_eq_true.mp (Numeral.all_isDigit_padded width n))
  have hfraction : Text.IsAscii (fraction t.writtenNanos) := by
    unfold fraction
    repeat' split
    · exact Text.isAscii_nil
    all_goals exact Text.isAscii_cons.mpr ⟨by decide, hpadded _ _⟩
  have hoffset : Text.IsAscii "+00:00".toList := by simp [Text.IsAscii]
  rw [renderNumeric, toList_renderWith, yearText, if_pos ht.digits]
  simp only [Text.isAscii_append, Text.isAscii_cons, hpadded, hfraction, hoffset]
  decide

/-- Of two different instants one lies before the other. -/
theorem before_trichotomy (s t : Instant) : s.before t = true ∨ s = t ∨ t.before s = true := by
  obtain ⟨seconds, nanos⟩ := s
  obtain ⟨seconds', nanos'⟩ := t
  simp only [before, Bool.or_eq_true, Bool.and_eq_true, decide_eq_true_eq, beq_iff_eq, mk.injEq]
  omega

/-- **The bytes of the written forms are in the order of the instants**, whatever the widths of their
fractions, in the years of four digits. -/
theorem bytes_lt_iff (hs : s.IsCommon) (ht : t.IsCommon) :
    s.renderNumeric.toUTF8.data.toList < t.renderNumeric.toUTF8.data.toList ↔
      s.before t = true := by
  have hlt {s t : Instant} (hs : s.IsCommon) (ht : t.IsCommon) (h : s.before t = true) :
      s.renderNumeric.toUTF8.data.toList < t.renderNumeric.toUTF8.data.toList := by
    have htexts := Text.bytes_lt (isAscii_renderNumeric hs) (isAscii_renderNumeric ht)
      (String.lt_iff.mp (text_lt hs ht h))
    rwa [String.ofList_toList, String.ofList_toList] at htexts
  refine ⟨fun h => ?_, hlt hs ht⟩
  rcases before_trichotomy s t with hbefore | rfl | hafter
  · exact hbefore
  · exact absurd h (List.lt_irrefl _)
  · exact absurd h (List.lt_asymm (hlt ht hs hafter))

end Instant

end Outreach
