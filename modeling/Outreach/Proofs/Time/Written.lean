import Outreach.Proofs.Number.Numeral
import Outreach.Proofs.Text.Blank
import Outreach.Proofs.Time.Calendar
import Outreach.Time.Instant

/-!
# What is written of an instant

An instant is read back from its written form, to the nanosecond (`Instant.read_render`). A leap
second is counted behind the last second of a minute, and is written as the second 60.
-/

namespace Outreach

namespace Instant

/-- The day that an instant falls on. -/
def date (t : Instant) : Date :=
  Date.ofDays (t.seconds / secondsPerDay)

/-- An instant in the years there are; a leap second follows the last second of a minute. -/
structure IsProper (t : Instant) : Prop where
  year : years.1 ≤ t.date.year ∧ t.date.year ≤ years.2
  nanos : t.nanos < nanosPerSecond ∨ (t.nanos < 2 * nanosPerSecond ∧ t.seconds % 60 = 59)

/-! ## Parts of an instant -/

variable {digits rest : List Char}

theorem digit_behind {c : Char} (hc : Numeral.isDigit c = false) (cs : List Char) :
    ∀ d ∈ (c :: cs).head?, Numeral.isDigit d = false := by
  rintro _ ⟨⟩
  exact hc

/-- Digits that a width has room for, with something else behind them. -/
theorem takeWhile_take (hdigits : digits.all Numeral.isDigit = true) {width : Nat}
    (hwidth : digits.length ≤ width) (hrest : ∀ c ∈ rest.head?, Numeral.isDigit c = false) :
    ((digits ++ rest).take width).takeWhile Numeral.isDigit = digits := by
  have hhead : ∀ c ∈ (rest.take (width - digits.length)).head?, Numeral.isDigit c = false := by
    rw [List.head?_take]
    intro c hc
    split at hc
    · cases hc
    · exact hrest c hc
  rw [List.take_append, List.take_of_length_le hwidth]
  exact (Text.takeWhile_append_of_head digits _ (List.all_eq_true.mp hdigits) hhead).1

theorem scanNumber_append (hdigits : digits.all Numeral.isDigit = true) (hne : digits ≠ [])
    {width : Nat} (hwidth : digits.length ≤ width)
    (hrest : ∀ c ∈ rest.head?, Numeral.isDigit c = false) (hsmall : Numeral.read digits < 2 ^ 63) :
    scanNumber width (digits ++ rest) = .ok (Numeral.read digits, rest) := by
  have hempty : ¬ (digits ++ rest).isEmpty = true := by simp [hne]
  unfold scanNumber
  dsimp only
  rw [takeWhile_take hdigits hwidth hrest, if_neg hempty, if_neg (by simpa using hne), Nat.pow_eq,
    if_neg (Nat.not_le.mpr hsmall), List.drop_left]

theorem exists_cons_padded (width n : Nat) :
    ∃ c cs, Numeral.padded width n = c :: cs ∧ Numeral.isDigit c = true := by
  have hne : Numeral.padded width n ≠ [] := by simp [Numeral.padded, Numeral.render_ne_nil]
  obtain ⟨c, cs, hcons⟩ := List.exists_cons_of_ne_nil hne
  exact ⟨c, cs, hcons,
    List.all_eq_true.mp (Numeral.all_isDigit_padded width n) c (hcons ▸ List.mem_cons_self)⟩

/-- A number in a fixed width does not begin with white space. -/
theorem trimStart_padded (width n : Nat) (rest : List Char) :
    Text.trimStart (Numeral.padded width n ++ rest) = Numeral.padded width n ++ rest := by
  obtain ⟨c, cs, hcons, hc⟩ := exists_cons_padded width n
  rw [hcons]
  exact Text.trimStart_cons (Text.isBlank_of_isDigit hc) _

/-- A number in a width that has room for it is scanned to itself. -/
theorem scanNumber_padded {width most n : Nat} (hn : n < 10 ^ width) (hwidth : 0 < width)
    (hmost : width ≤ most) (hlimit : most ≤ 18)
    (hrest : ∀ c ∈ rest.head?, Numeral.isDigit c = false) :
    scanNumber most (Numeral.padded width n ++ rest) = .ok (n, rest) := by
  have hlength : (Numeral.padded width n).length = width := Numeral.length_padded hn hwidth
  have hsmall : n < 2 ^ 63 := Nat.lt_of_lt_of_le hn (Nat.le_trans
    (Nat.pow_le_pow_right (by decide) (Nat.le_trans hmost hlimit)) (by decide))
  have hread : Numeral.read (Numeral.padded width n) = n := Numeral.read_padded width n
  have h : scanNumber most (Numeral.padded width n ++ rest) =
      .ok (Numeral.read (Numeral.padded width n), rest) :=
    scanNumber_append (Numeral.all_isDigit_padded width n) (List.ne_nil_of_length_pos (by omega))
      (by omega) hrest (hread.symm ▸ hsmall)
  rwa [hread] at h

theorem scanField_padded {least most n : Nat} (hleast : least ≤ n) (hmost : n ≤ most)
    (hn : n < 100) (hrest : ∀ c ∈ rest.head?, Numeral.isDigit c = false) :
    scanField least most (Numeral.padded 2 n ++ rest) = .ok (n, rest) := by
  unfold scanField
  rw [trimStart_padded, scanNumber_padded hn (by decide) (by decide) (by decide) hrest]
  exact if_pos ⟨hleast, hmost⟩

theorem scanMark_cons {mark : Char} (hmark : Text.isBlank mark = false) (rest : List Char) :
    scanMark mark (mark :: rest) = .ok ((), rest) := by
  rw [scanMark, Text.trimStart_cons hmark]
  exact if_pos rfl

theorem year_range {year : Int} (hfirst : years.1 ≤ year) (hlast : year ≤ years.2) :
    -(Nat.pow 2 31 : Int) ≤ year ∧ year < Nat.pow 2 31 := by
  simp only [years, Nat.pow_eq] at *
  omega

/-- A year of four digits. -/
theorem scanYear_padded {year : Nat} (hyear : year < 10000)
    (hrest : ∀ c ∈ rest.head?, Numeral.isDigit c = false) :
    scanYear (Numeral.padded 4 year ++ rest) = .ok ((year : Int), rest) := by
  have hrange : -(Nat.pow 2 31 : Int) ≤ year ∧ (year : Int) < Nat.pow 2 31 :=
    year_range (by simp only [years]; omega) (by simp only [years]; omega)
  have hscan : scanNumber 4 (Numeral.padded 4 year ++ rest) = .ok (year, rest) :=
    scanNumber_padded hyear (by decide) (by decide) (by decide) hrest
  obtain ⟨c, cs, hcons, hc⟩ := exists_cons_padded 4 year
  unfold scanYear
  rw [trimStart_padded]
  rw [hcons, List.cons_append] at hscan ⊢
  -- What begins with a digit begins with no sign.
  split
  next h =>
    obtain rfl := (List.cons.inj h).1
    cases hc
  next h =>
    obtain rfl := (List.cons.inj h).1
    cases hc
  next =>
    simp only [hscan, Except.map, bind, Except.bind]
    exact if_pos hrange

/-- A year is read from its four digits, or from its sign and all its digits. -/
theorem scanYear_yearText {year : Int} (hfirst : years.1 ≤ year) (hlast : year ≤ years.2)
    (hrest : ∀ c ∈ rest.head?, Numeral.isDigit c = false) :
    scanYear (yearText year ++ rest) = .ok (year, rest) := by
  have hrange := year_range hfirst hlast
  unfold years at hfirst hlast
  unfold yearText
  by_cases hfour : 0 ≤ year ∧ year ≤ 9999
  · obtain ⟨year, rfl⟩ := Int.eq_ofNat_of_zero_le hfour.1
    rw [if_pos hfour, Int.toNat_natCast]
    exact scanYear_padded (by omega) hrest
  · have hread : Numeral.read (Numeral.padded 4 year.natAbs) = year.natAbs :=
      Numeral.read_padded 4 year.natAbs
    have hscan : scanNumber (Numeral.padded 4 year.natAbs ++ rest).length
        (Numeral.padded 4 year.natAbs ++ rest) =
          .ok (Numeral.read (Numeral.padded 4 year.natAbs), rest) :=
      scanNumber_append (Numeral.all_isDigit_padded 4 year.natAbs)
        (by simp [Numeral.padded, Numeral.render_ne_nil]) (by simp) hrest (by omega)
    rw [hread] at hscan
    rw [if_neg hfour, List.cons_append]
    by_cases hnegative : year < 0
    · have hvalue : -(year.natAbs : Int) = year := by omega
      rw [if_pos hnegative, scanYear, Text.trimStart_cons (by decide)]
      simp only [hscan, Except.map, bind, Except.bind, hvalue]
      exact if_pos hrange
    · have hvalue : (year.natAbs : Int) = year := by omega
      rw [if_neg hnegative, scanYear, Text.trimStart_cons (by decide)]
      simp only [hscan, Except.map, bind, Except.bind, hvalue]
      exact if_pos hrange

/-- Up to nine digits behind a point, in nanoseconds. -/
theorem scanFraction_padded {width n : Nat} (hn : n < 10 ^ width) (hwidth : 0 < width)
    (hnine : width ≤ 9) {c : Char} (hc : Numeral.isDigit c = false) (rest : List Char) :
    scanFraction ('.' :: Numeral.padded width n ++ c :: rest) =
      .ok (n * 10 ^ (9 - width), c :: rest) := by
  have hrest := digit_behind hc rest
  have hlength : (Numeral.padded width n).length = width := Numeral.length_padded hn hwidth
  have hscan : scanNumber 9 (Numeral.padded width n ++ c :: rest) = .ok (n, c :: rest) :=
    scanNumber_padded hn hwidth hnine (by decide) hrest
  have htake : ((Numeral.padded width n ++ c :: rest).take 9).takeWhile Numeral.isDigit =
      Numeral.padded width n :=
    takeWhile_take (Numeral.all_isDigit_padded width n) (by omega) hrest
  rw [List.cons_append, scanFraction]
  dsimp only
  rw [htake, hscan, hlength]
  change Except.ok (n * Nat.pow 10 (9 - width), (c :: rest).dropWhile Numeral.isDigit) = _
  rw [Nat.pow_eq, List.dropWhile_cons_of_neg (by simp [hc])]

/-- The fraction of a second, up to the offset. -/
theorem scanFraction_fraction {nanos : Nat} (h : nanos < nanosPerSecond) {c : Char}
    (hc : Numeral.isDigit c = false) (hpoint : c ≠ '.') (rest : List Char) :
    scanFraction (fraction nanos ++ c :: rest) = .ok (nanos, c :: rest) := by
  unfold nanosPerSecond at h
  unfold fraction
  split
  next hzero =>
    subst hzero
    rw [List.nil_append, scanFraction]
    rintro cs ⟨⟩
    exact hpoint rfl
  next =>
    split
    next hmilli =>
      have hvalue : nanos / 1000000 * 10 ^ (9 - 3) = nanos := by omega
      rw [scanFraction_padded (by omega) (by decide) (by decide) hc, hvalue]
    next =>
      split
      next hmicro =>
        have hvalue : nanos / 1000 * 10 ^ (9 - 6) = nanos := by omega
        rw [scanFraction_padded (by omega) (by decide) (by decide) hc, hvalue]
      next =>
        rw [scanFraction_padded (by omega) (by decide) (by decide) hc, Nat.sub_self, Nat.pow_zero,
          Nat.mul_one]

/-! ## The whole text -/

/-- The time of day of an instant in seconds. -/
def timeOfDay (t : Instant) : Nat :=
  (t.seconds % secondsPerDay).toNat

/-- An instant is put together from its date, its time of day and its fraction. -/
theorem ofFields_date {t : Instant} (h : t.IsProper) {second nanos : Nat}
    (hsecond : (if second = 60 then 59 else second) = t.timeOfDay % 60)
    (hnanos : nanos + (if second = 60 then nanosPerSecond else 0) = t.nanos) :
    ofFields t.date (t.timeOfDay / 3600) (t.timeOfDay / 60 % 60) second nanos 0 = .ok t := by
  obtain ⟨hfirst, hlast⟩ := h.year
  have hday : t.date.toDays = t.seconds / secondsPerDay := Date.toDays_ofDays _
  have hexists : t.date.exists? = true := Date.exists?_ofDays _
  have htime : (t.timeOfDay : Int) = t.seconds % secondsPerDay :=
    Int.toNat_of_nonneg (Int.emod_nonneg _ (by decide))
  have hseconds : t.date.toDays * secondsPerDay +
      ((t.timeOfDay / 3600 * 3600 + t.timeOfDay / 60 % 60 * 60 + t.timeOfDay % 60 : Nat) : Int) -
        0 = t.seconds := by
    have hsplit := Int.mul_ediv_add_emod t.seconds secondsPerDay
    rw [hday]
    unfold secondsPerDay at *
    omega
  have hyears : ¬ ((decide (t.date.year < years.1) || decide (years.2 < t.date.year)) = true) := by
    rw [decide_eq_false (Int.not_lt.mpr hfirst), decide_eq_false (Int.not_lt.mpr hlast)]
    decide
  unfold ofFields
  dsimp only
  rw [hsecond, hnanos, hseconds, hexists, Bool.not_true, Bool.false_or, if_neg hyears,
    if_neg (by decide)]
  exact if_neg hyears

/-- The second that an instant is written with. -/
def writtenSecond (t : Instant) : Nat :=
  t.timeOfDay % 60 + (if nanosPerSecond ≤ t.nanos then 1 else 0)

/-- The nanoseconds that an instant is written with. -/
def writtenNanos (t : Instant) : Nat :=
  if nanosPerSecond ≤ t.nanos then t.nanos - nanosPerSecond else t.nanos

/-- The second 60 is written for a leap second, and for nothing else. -/
theorem written_spec {t : Instant} (h : t.IsProper) :
    t.writtenSecond ≤ 60 ∧ t.writtenNanos < nanosPerSecond ∧
      (if t.writtenSecond = 60 then 59 else t.writtenSecond) = t.timeOfDay % 60 ∧
      t.writtenNanos + (if t.writtenSecond = 60 then nanosPerSecond else 0) = t.nanos := by
  have htime : (t.timeOfDay : Int) = t.seconds % secondsPerDay :=
    Int.toNat_of_nonneg (Int.emod_nonneg _ (by decide))
  have hnanos := h.nanos
  unfold secondsPerDay at htime
  unfold writtenSecond writtenNanos
  by_cases hleap : nanosPerSecond ≤ t.nanos
  · have hlast : t.timeOfDay % 60 = 59 := by omega
    rw [if_pos hleap, if_pos hleap, hlast]
    exact ⟨by decide, by omega, rfl, Nat.sub_add_cancel hleap⟩
  · have hsecond : t.timeOfDay % 60 < 60 := Nat.mod_lt _ (by decide)
    rw [if_neg hleap, if_neg hleap, Nat.add_zero, if_neg (by omega), if_neg (by omega)]
    exact ⟨by omega, by omega, rfl, Nat.add_zero _⟩

/-- The parts of the text of an instant, whatever stands for its offset. -/
theorem toList_renderWith (offset : String) (t : Instant) :
    (t.renderWith offset).toList = yearText t.date.year ++ '-' :: (Numeral.padded 2 t.date.month ++
      '-' :: (Numeral.padded 2 t.date.day ++ 'T' :: (Numeral.padded 2 (t.timeOfDay / 3600) ++
        ':' :: (Numeral.padded 2 (t.timeOfDay / 60 % 60) ++
          ':' :: (Numeral.padded 2 t.writtenSecond ++
            (fraction t.writtenNanos ++ offset.toList)))))) := by
  simp [renderWith, date, timeOfDay, writtenSecond, writtenNanos]

theorem toList_render (t : Instant) :
    t.render.toList = yearText t.date.year ++ '-' :: (Numeral.padded 2 t.date.month ++
      '-' :: (Numeral.padded 2 t.date.day ++ 'T' :: (Numeral.padded 2 (t.timeOfDay / 3600) ++
        ':' :: (Numeral.padded 2 (t.timeOfDay / 60 % 60) ++
          ':' :: (Numeral.padded 2 t.writtenSecond ++ (fraction t.writtenNanos ++ ['Z'])))))) :=
  toList_renderWith "Z" t

theorem date_bounds (t : Instant) :
    1 ≤ t.date.month ∧ t.date.month ≤ 12 ∧ 1 ≤ t.date.day ∧ t.date.day ≤ 31 := by
  have h : t.date.exists? = true := Date.exists?_ofDays _
  simp only [Date.exists?, Bool.and_eq_true, decide_eq_true_eq] at h
  obtain ⟨⟨⟨hfirst, hlast⟩, hday⟩, hmonth⟩ := h
  have hlong : Date.daysInMonth t.date.year t.date.month ≤ 31 := by
    unfold Date.daysInMonth
    repeat' split
    all_goals omega
  omega

/-- What follows the seconds does not begin with a digit. -/
theorem digit_behind_fraction (nanos : Nat) :
    ∀ d ∈ (fraction nanos ++ ['Z']).head?, Numeral.isDigit d = false := by
  unfold fraction
  repeat' split
  all_goals exact digit_behind (by decide) _

/-- **An instant is read back from its written form.** -/
theorem read_render {t : Instant} (h : t.IsProper) : read t.render = .ok t := by
  obtain ⟨hmonth, hmonth', hday, hday'⟩ := t.date_bounds
  obtain ⟨hsecond, hnanos, hsixty, hwhole⟩ := written_spec h
  have htime : t.timeOfDay < 86400 := by
    unfold timeOfDay secondsPerDay
    omega
  -- One fact for each part of the text, whatever stands behind it.
  have hdash (rest : List Char) : scanMark '-' ('-' :: rest) = .ok ((), rest) :=
    scanMark_cons (by decide) rest
  have hcolon (rest : List Char) : scanMark ':' (':' :: rest) = .ok ((), rest) :=
    scanMark_cons (by decide) rest
  have hyear (rest : List Char) :
      scanYear (yearText t.date.year ++ '-' :: rest) = .ok (t.date.year, '-' :: rest) :=
    scanYear_yearText h.year.1 h.year.2 (digit_behind (by decide) rest)
  have hmonth (rest : List Char) : scanField 1 12 (Numeral.padded 2 t.date.month ++ '-' :: rest) =
      .ok (t.date.month, '-' :: rest) :=
    scanField_padded hmonth hmonth' (by omega) (digit_behind (by decide) rest)
  have hday (rest : List Char) : scanField 1 31 (Numeral.padded 2 t.date.day ++ 'T' :: rest) =
      .ok (t.date.day, 'T' :: rest) :=
    scanField_padded hday hday' (by omega) (digit_behind (by decide) rest)
  have hhour (rest : List Char) :
      scanField 0 23 (Numeral.padded 2 (t.timeOfDay / 3600) ++ ':' :: rest) =
        .ok (t.timeOfDay / 3600, ':' :: rest) :=
    scanField_padded (Nat.zero_le _) (by omega) (by omega) (digit_behind (by decide) rest)
  have hminute (rest : List Char) :
      scanField 0 59 (Numeral.padded 2 (t.timeOfDay / 60 % 60) ++ ':' :: rest) =
        .ok (t.timeOfDay / 60 % 60, ':' :: rest) :=
    scanField_padded (Nat.zero_le _) (by omega) (by omega) (digit_behind (by decide) rest)
  have hsecond : scanField 0 60
      (Numeral.padded 2 t.writtenSecond ++ (fraction t.writtenNanos ++ ['Z'])) =
        .ok (t.writtenSecond, fraction t.writtenNanos ++ ['Z']) :=
    scanField_padded (Nat.zero_le _) hsecond (by omega) (digit_behind_fraction t.writtenNanos)
  have hfraction : scanFraction (fraction t.writtenNanos ++ ['Z']) = .ok (t.writtenNanos, ['Z']) :=
    scanFraction_fraction hnanos (by decide) (by decide) []
  have hoffset : scanOffset (Text.trimStart ['Z']) = .ok (0, []) := by decide
  have hfields := ofFields_date h hsixty hwhole
  unfold read
  rw [toList_render]
  simp only [hyear, hmonth, hday, hhour, hminute, hsecond, hdash, hcolon, hfraction, hoffset, bind,
    Except.bind]
  exact (if_pos (.inr (.inl trivial))).trans ((if_pos rfl).trans hfields)

end Instant

end Outreach
