import Outreach.Proofs.Number.Rounding
import Outreach.Proofs.Text.Split
import Outreach.Source.JsonText

/-!
# Written numbers are read back

A number is written in one of four ways: as a whole number, with a point before, behind or among
its digits, or with an exponent. Each way is scanned to the number that was written
(`Source.scanNumber_renderNumber`), provided that nothing follows that could belong to it
(`Source.EndsNumber`).
-/

namespace Outreach

/-- A number as data can hold it: a whole number of 64 bits, with a sign or without, or a double that
is finite. -/
def Number.IsProper : Number → Prop
  | .int i => -(2 ^ 63) ≤ i ∧ i < 2 ^ 64
  | .double d => d.isNaN = false ∧ d.isInfinite = false

namespace Source

/-- A text with which no number goes on. -/
def EndsNumber (rest : List Char) : Prop :=
  ∀ c ∈ rest.head?, Numeral.isDigit c = false ∧ c ≠ '.' ∧ c ≠ 'e' ∧ c ≠ 'E'

theorem endsNumber_nil : EndsNumber [] := nofun

theorem endsNumber_cons {c : Char} {rest : List Char} (hc : c = ',' ∨ c = ']' ∨ c = '\x7d') :
    EndsNumber (c :: rest) := by
  rintro _ ⟨⟩
  rcases hc with rfl | rfl | rfl <;> decide

/-! ## Parts of a number -/

variable {digits rest : List Char}

theorem spanDigits_append (hdigits : digits.all Numeral.isDigit = true)
    (hrest : ∀ c ∈ rest.head?, Numeral.isDigit c = false) :
    spanDigits (digits ++ rest) = (digits, rest) := by
  obtain ⟨htake, hdrop⟩ :=
    Text.takeWhile_append_of_head digits rest (List.all_eq_true.mp hdigits) hrest
  rw [spanDigits, htake, hdrop]

theorem scanFraction_of_endsNumber (h : EndsNumber rest) : scanFraction rest = some (none, rest) := by
  unfold scanFraction
  split
  next rest => exact absurd rfl (h '.' rfl).2.1
  next => rfl

theorem scanExponent_of_endsNumber (h : EndsNumber rest) : scanExponent rest = some (none, rest) := by
  cases rest with
  | nil => rfl
  | cons c rest =>
    obtain ⟨-, -, hlower, hupper⟩ := h c rfl
    simp [scanExponent, hlower, hupper]

theorem scanFraction_point (hdigits : digits.all Numeral.isDigit = true) (hne : digits ≠ [])
    (hrest : ∀ c ∈ rest.head?, Numeral.isDigit c = false) :
    scanFraction ('.' :: digits ++ rest) = some (some digits, rest) := by
  simp [scanFraction, spanDigits_append hdigits hrest, hne]

/-- An exponent with a sign in front of its numeral. -/
theorem scanExponent_sign (negative : Bool) (n : Nat) (h : EndsNumber rest) :
    scanExponent ('e' :: (if negative then '-' else '+') :: Numeral.render n ++ rest) =
      some (some (if negative then -(n : Int) else n), rest) := by
  have hspan := spanDigits_append (Numeral.all_isDigit_render n) fun c hc => (h c hc).1
  cases negative <;>
    simp [scanExponent, Decimal.readSign, hspan, Numeral.render_ne_nil, Numeral.read_render]

/-- Digits that can stand before a point: there is one, and no zero in front of others. -/
structure IsWhole (digits : List Char) : Prop where
  all : digits.all Numeral.isDigit = true
  nonempty : digits ≠ []
  unpadded : digits.head? = some '0' → digits.length ≤ 1

theorem isWhole_zero : IsWhole ['0'] := ⟨rfl, by decide, fun _ => Nat.le_refl 1⟩

theorem isWhole_render (n : Nat) : IsWhole (Numeral.render n) where
  all := Numeral.all_isDigit_render n
  nonempty := Numeral.render_ne_nil n
  unpadded hzero := by
    rcases Nat.eq_zero_or_pos n with rfl | hpos
    · rw [Numeral.render_of_lt (by decide), List.length_singleton]
    · exact absurd hzero (Numeral.head?_render_ne hpos)

/-- The first digits of a numeral, with zeros behind it or without. -/
theorem isWhole_of_prefix {n : Nat} (hpos : 0 < n) {digits more : List Char}
    (hdigits : digits.all Numeral.isDigit = true) (hne : digits ≠ [])
    (hsame : digits ++ more = Numeral.render n ∨ Numeral.render n ++ more = digits) :
    IsWhole digits where
  all := hdigits
  nonempty := hne
  unpadded hzero := by
    obtain ⟨c, cs, rfl⟩ := List.exists_cons_of_ne_nil hne
    have hhead : (Numeral.render n).head? = some c := by
      rcases hsame with h | h
      · rw [← h]
        rfl
      · obtain ⟨d, ds, hcons⟩ := List.exists_cons_of_ne_nil (Numeral.render_ne_nil n)
        rw [hcons] at h ⊢
        exact congrArg some (List.cons.inj h).1
    rw [List.head?_cons] at hzero
    exact absurd (hhead.trans hzero) (Numeral.head?_render_ne hpos)

/-- A minus, or nothing. -/
def minus (negative : Bool) : List Char :=
  if negative then ['-'] else []

/-- What is scanned of a number behind its sign. -/
def scanUnsigned (negative : Bool) (cs : List Char) : Source × List Char :=
  let (whole, afterWhole) := spanDigits cs
  if whole.isEmpty ∨ (whole.head? = some '0' ∧ 1 < whole.length) then (.broken, [])
  else match scanFraction afterWhole with
    | none => (.broken, [])
    | some (fraction, afterFraction) =>
      match scanExponent afterFraction with
      | none => (.broken, [])
      | some (exponent, rest) =>
        match fraction, exponent with
        | none, none =>
          (match wholeOrDouble negative (Numeral.read whole) with
            | .double d => ofDouble d
            | .int i => .number (.int i), rest)
        | fraction, exponent =>
          (ofDouble (Decimal.toDouble ⟨negative, Numeral.read (whole ++ fraction.getD []),
            exponent.getD 0 - (fraction.getD []).length⟩), rest)

theorem scanNumber_minus (negative : Bool) {c : Char} (hc : c ≠ '-') (cs : List Char) :
    scanNumber (minus negative ++ c :: cs) = scanUnsigned negative (c :: cs) := by
  cases negative with
  | true => rfl
  | false =>
    unfold scanNumber
    rw [minus, if_neg (by decide), List.nil_append]
    split
    next heq =>
      split at heq
      next hminus => exact absurd (List.cons.inj hminus).1 hc
      next =>
        cases heq
        rfl

/-- How a number is scanned whose parts are known: its sign, the digits before the point, and what
the text behind them is scanned to. -/
theorem scanNumber_of_parts (negative : Bool) {whole after afterFraction rest : List Char}
    {fraction : Option (List Char)} {exponent : Option Int} (hwhole : IsWhole whole)
    (hafter : ∀ c ∈ after.head?, Numeral.isDigit c = false)
    (hfraction : scanFraction after = some (fraction, afterFraction))
    (hexponent : scanExponent afterFraction = some (exponent, rest)) :
    scanNumber (minus negative ++ (whole ++ after)) =
      (if fraction = none ∧ exponent = none then
        match wholeOrDouble negative (Numeral.read whole) with
          | .double d => ofDouble d
          | .int i => .number (.int i)
      else ofDouble (Decimal.toDouble ⟨negative, Numeral.read (whole ++ fraction.getD []),
        exponent.getD 0 - (fraction.getD []).length⟩), rest) := by
  obtain ⟨c, cs, rfl⟩ := List.exists_cons_of_ne_nil hwhole.nonempty
  have hdigit : Numeral.isDigit c = true := List.all_eq_true.mp hwhole.all c List.mem_cons_self
  have hminus : c ≠ '-' := by
    rintro rfl
    cases hdigit
  have hspan : spanDigits (c :: (cs ++ after)) = (c :: cs, after) :=
    spanDigits_append hwhole.all hafter
  have hunpadded : ¬ ((c :: cs).isEmpty = true ∨
      ((c :: cs).head? = some '0' ∧ 1 < (c :: cs).length)) := by
    rintro (h | ⟨hzero, hlong⟩)
    · cases h
    · exact absurd (hwhole.unpadded hzero) (Nat.not_le.mpr hlong)
  rw [List.cons_append, scanNumber_minus negative hminus, scanUnsigned, hspan]
  dsimp only
  rw [if_neg hunpadded, hfraction]
  dsimp only
  rw [hexponent]
  cases fraction <;> cases exponent <;> rfl

variable (negative : Bool)

/-- A whole number with nothing behind it. -/
theorem scanNumber_whole {whole : List Char} (hwhole : IsWhole whole) (hrest : EndsNumber rest) :
    scanNumber (minus negative ++ (whole ++ rest)) =
      (match wholeOrDouble negative (Numeral.read whole) with
        | .double d => ofDouble d
        | .int i => .number (.int i), rest) :=
  scanNumber_of_parts negative hwhole (fun c hc => (hrest c hc).1)
    (scanFraction_of_endsNumber hrest) (scanExponent_of_endsNumber hrest)

/-- A number with a point and no exponent. -/
theorem scanNumber_point {whole fraction : List Char} (hwhole : IsWhole whole)
    (hfraction : fraction.all Numeral.isDigit = true) (hne : fraction ≠ [])
    (hrest : EndsNumber rest) :
    scanNumber (minus negative ++ (whole ++ ('.' :: fraction ++ rest))) =
      (ofDouble (Decimal.toDouble ⟨negative, Numeral.read (whole ++ fraction),
        -(fraction.length : Int)⟩), rest) := by
  have hpoint : ∀ c ∈ ('.' :: fraction ++ rest).head?, Numeral.isDigit c = false := by
    rintro _ ⟨⟩
    rfl
  rw [scanNumber_of_parts negative hwhole hpoint
    (scanFraction_point hfraction hne fun c hc => (hrest c hc).1)
    (scanExponent_of_endsNumber hrest)]
  simp

/-- The text of an exponent. -/
def exponentText (exponent : Int) : List Char :=
  'e' :: (if exponent < 0 then '-' else '+') :: Numeral.render exponent.natAbs

theorem scanExponent_exponentText (exponent : Int) (hrest : EndsNumber rest) :
    scanExponent (exponentText exponent ++ rest) = some (some exponent, rest) := by
  have h := scanExponent_sign (decide (exponent < 0)) exponent.natAbs hrest
  simp only [decide_eq_true_eq] at h
  rw [exponentText]
  refine h.trans ?_
  congr 3
  split <;> omega

/-- A number with an exponent, with a point or without. -/
theorem scanNumber_exponent {whole fraction : List Char} (hwhole : IsWhole whole)
    (hfraction : fraction.all Numeral.isDigit = true) (exponent : Int) (hrest : EndsNumber rest) :
    scanNumber (minus negative ++ (whole ++ ((if fraction = [] then [] else '.' :: fraction) ++
        (exponentText exponent ++ rest)))) =
      (ofDouble (Decimal.toDouble ⟨negative, Numeral.read (whole ++ fraction),
        exponent - fraction.length⟩), rest) := by
  have hexponent := scanExponent_exponentText exponent hrest
  have hstart : ∀ c ∈ (exponentText exponent ++ rest).head?, Numeral.isDigit c = false := by
    rintro _ ⟨⟩
    rfl
  by_cases hne : fraction = []
  · subst hne
    have hnone : scanFraction (exponentText exponent ++ rest) =
        some (none, exponentText exponent ++ rest) := rfl
    rw [if_pos rfl, List.nil_append, scanNumber_of_parts negative hwhole hstart hnone hexponent]
    simp
  · rw [if_neg hne, scanNumber_of_parts negative hwhole (by rintro _ ⟨⟩; rfl)
      (scanFraction_point hfraction hne hstart) hexponent]
    simp

/-! ## Doubles -/

theorem all_isDigit_zero : ['0'].all Numeral.isDigit = true := rfl

variable {coefficient : Nat}

theorem all_isDigit_drop (n place : Nat) :
    ((Numeral.render n).drop place).all Numeral.isDigit = true :=
  List.all_eq_true.mpr fun c hc =>
    List.all_eq_true.mp (Numeral.all_isDigit_render n) c (List.mem_of_mem_drop hc)

/-- The first digits of a numeral, at least one of them. -/
theorem isWhole_take {n place : Nat} (hpos : 0 < n) (hplace : 0 < place) :
    IsWhole ((Numeral.render n).take place) := by
  have hlength := Numeral.length_render_pos n
  refine isWhole_of_prefix hpos ?_ ?_ (.inl (List.take_append_drop place _))
  · exact List.all_eq_true.mpr fun c hc =>
      List.all_eq_true.mp (Numeral.all_isDigit_render n) c (List.mem_of_mem_take hc)
  · exact List.ne_nil_of_length_pos (by rw [List.length_take]; omega)

/-- Digits with a point and zeros before them. -/
theorem scanNumber_below (coefficient zeros : Nat) (hrest : EndsNumber rest) :
    scanNumber (minus negative ++
        (['0'] ++ ('.' :: (List.replicate zeros '0' ++ Numeral.render coefficient) ++ rest))) =
      (ofDouble (Decimal.toDouble ⟨negative, coefficient,
        -((zeros + (Numeral.render coefficient).length : Nat) : Int)⟩), rest) := by
  have hzeros : (List.replicate zeros '0' ++ Numeral.render coefficient).all Numeral.isDigit =
      true := by
    simp [Numeral.all_isDigit_render, Numeral.isDigit_zero]
  have hvalue : Numeral.read (['0'] ++ (List.replicate zeros '0' ++ Numeral.render coefficient)) =
      coefficient :=
    (Numeral.read_zeros_append (zeros + 1) _).trans (Numeral.read_render coefficient)
  have h := scanNumber_point negative isWhole_zero hzeros (by simp [Numeral.render_ne_nil]) hrest
  rwa [hvalue, List.length_append, List.length_replicate] at h

/-- Digits with zeros and a point behind them. -/
theorem scanNumber_above (hpos : 0 < coefficient) (zeros : Nat) (hrest : EndsNumber rest) :
    scanNumber (minus negative ++
        ((Numeral.render coefficient ++ List.replicate zeros '0') ++ ('.' :: ['0'] ++ rest))) =
      (ofDouble (Decimal.toDouble ⟨negative, coefficient, zeros⟩), rest) := by
  have hwhole : IsWhole (Numeral.render coefficient ++ List.replicate zeros '0') :=
    isWhole_of_prefix hpos (by simp [Numeral.all_isDigit_render, Numeral.isDigit_zero])
      (by simp [Numeral.render_ne_nil]) (.inr rfl)
  have hvalue : Numeral.read (Numeral.render coefficient ++ List.replicate zeros '0' ++ ['0']) =
      coefficient * 10 ^ (zeros + 1) := by
    rw [List.append_assoc, ← List.replicate_succ', Numeral.read_append_zeros, Numeral.read_render]
  have hexponent : -((['0'] : List Char).length : Int) + (zeros + 1 : Nat) = zeros := by
    simp
  have h := scanNumber_point negative hwhole all_isDigit_zero (by decide) hrest
  rwa [hvalue, Decimal.toDouble_mul_pow, hexponent] at h

/-- Digits with a point among them. -/
theorem scanNumber_among (hpos : 0 < coefficient) {place : Nat} (hplace : 0 < place)
    (hlast : place < (Numeral.render coefficient).length) (hrest : EndsNumber rest) :
    scanNumber (minus negative ++ ((Numeral.render coefficient).take place ++
        ('.' :: (Numeral.render coefficient).drop place ++ rest))) =
      (ofDouble (Decimal.toDouble ⟨negative, coefficient,
        place - (Numeral.render coefficient).length⟩), rest) := by
  have hsome : (Numeral.render coefficient).drop place ≠ [] :=
    List.ne_nil_of_length_pos (by rw [List.length_drop]; exact Nat.sub_pos_of_lt hlast)
  have hexponent : -(((Numeral.render coefficient).drop place).length : Int) =
      place - (Numeral.render coefficient).length := by
    rw [List.length_drop]
    omega
  have h := scanNumber_point negative (isWhole_take hpos hplace) (all_isDigit_drop coefficient place)
    hsome hrest
  rwa [List.take_append_drop, Numeral.read_render, hexponent] at h

/-- Digits with a point before, behind or among them. -/
theorem scanNumber_positionally (hpos : 0 < coefficient) (exponent : Int) (hrest : EndsNumber rest) :
    scanNumber (minus negative ++ (Json.numberStyle.positionally (Numeral.render coefficient)
        ((Numeral.render coefficient).length + exponent) ++ rest)) =
      (ofDouble (Decimal.toDouble ⟨negative, coefficient, exponent⟩), rest) := by
  generalize hplace : ((Numeral.render coefficient).length : Int) + exponent = place
  unfold NumberStyle.positionally
  split
  next hbefore =>
    have h := scanNumber_below negative coefficient (-place).toNat hrest
    have hexponent : -(((-place).toNat + (Numeral.render coefficient).length : Nat) : Int) =
        exponent := by omega
    rw [hexponent] at h
    simpa using h
  next hpositive =>
    obtain ⟨place, rfl⟩ := Int.eq_ofNat_of_zero_le (show 0 ≤ place by omega)
    rw [Int.toNat_natCast]
    split
    next hbehind =>
      have h := scanNumber_above negative hpos (place - (Numeral.render coefficient).length) hrest
      have hexponent : ((place - (Numeral.render coefficient).length : Nat) : Int) = exponent := by
        omega
      rw [hexponent] at h
      simpa [Json.numberStyle] using h
    next hamong =>
      have h := scanNumber_among negative hpos (by omega) (Nat.not_le.mp hamong) hrest
      have hexponent : (place : Int) - (Numeral.render coefficient).length = exponent := by omega
      rw [hexponent] at h
      simpa using h

/-- Digits with an exponent. -/
theorem scanNumber_scientifically (hpos : 0 < coefficient) (exponent : Int)
    (hrest : EndsNumber rest) :
    scanNumber (minus negative ++ (Json.numberStyle.scientifically (Numeral.render coefficient)
        ((Numeral.render coefficient).length + exponent) ++ rest)) =
      (ofDouble (Decimal.toDouble ⟨negative, coefficient, exponent⟩), rest) := by
  have hlength := Numeral.length_render_pos coefficient
  have h := scanNumber_exponent negative (isWhole_take hpos Nat.one_pos)
    (all_isDigit_drop coefficient 1) ((Numeral.render coefficient).length + exponent - 1) hrest
  have hexponent : ((Numeral.render coefficient).length : Int) + exponent - 1 -
      ((Numeral.render coefficient).drop 1).length = exponent := by
    rw [List.length_drop]
    omega
  have hpoint : (Numeral.render coefficient).drop 1 = [] ↔ (Numeral.render coefficient).length ≤ 1 :=
    List.drop_eq_nil_iff
  have hsign : (if ((Numeral.render coefficient).length : Int) + exponent - 1 < 0 then ['-']
      else if Json.numberStyle.plus = true then ['+'] else []) =
      [if ((Numeral.render coefficient).length : Int) + exponent - 1 < 0 then '-' else '+'] := by
    split <;> rfl
  rw [List.take_append_drop, Numeral.read_render, hexponent] at h
  simp only [hpoint] at h
  rw [← h, NumberStyle.scientifically, hsign, exponentText]
  simp

/-- A double as it is written. -/
theorem renderNumber_double {mantissa exponent : Nat} (h : IsCanonical mantissa exponent)
    (hpos : 0 < mantissa) :
    let decimal := (Double.finite negative mantissa exponent h).shortest .toEven
    let digits := Numeral.render decimal.coefficient
    let place := digits.length + decimal.exponent
    Json.renderNumber (.double (.finite negative mantissa exponent h)) = minus negative ++
      (if Json.numberStyle.positional place then Json.numberStyle.positionally digits place
        else Json.numberStyle.scientifically digits place) := by
  intro decimal digits place
  rw [Json.renderNumber, NumberStyle.render, if_neg (Nat.pos_iff_ne_zero.mp hpos)]
  cases negative <;> exact String.toList_ofList

/-- A double is scanned to itself. -/
theorem scanNumber_double {d : Double} (hnan : d.isNaN = false) (hfinite : d.isInfinite = false)
    (hrest : EndsNumber rest) :
    scanNumber (Json.renderNumber (.double d) ++ rest) = (.number (.double d), rest) := by
  cases d with
  | nan => cases hnan
  | infinite => cases hfinite
  | finite negative mantissa exponent h =>
    rcases Nat.eq_zero_or_pos mantissa with rfl | hpos
    · obtain rfl : exponent = 0 := h.2.1.resolve_left (by decide)
      have hzero := scanNumber_point negative isWhole_zero all_isDigit_zero (by decide) hrest
      have hvalue : Decimal.toDouble ⟨negative, Numeral.read (['0'] ++ ['0']), -1⟩ =
          Double.zero negative := rfl
      have htext : Json.renderNumber (.double (.finite negative 0 0 h)) =
          minus negative ++ ['0', '.', '0'] := by
        cases negative <;>
          simp [Json.renderNumber, NumberStyle.render, Json.numberStyle, minus]
      rw [htext]
      refine Eq.trans ?_ hzero
      simp
    · have htext := renderNumber_double negative h hpos
      obtain ⟨hback, hnegative, hcoefficient⟩ := Double.toDouble_shortest h hpos .toEven
      generalize (Double.finite negative mantissa exponent h).shortest .toEven = decimal at *
      obtain ⟨sign, coefficient, power⟩ := decimal
      obtain rfl : sign = negative := hnegative
      have hsource : ofDouble (Decimal.toDouble ⟨sign, coefficient, power⟩) =
          .number (.double (.finite sign mantissa exponent h)) := by
        rw [hback]
        rfl
      rw [htext, List.append_assoc, ← hsource]
      split
      next => exact scanNumber_positionally sign hcoefficient power hrest
      next => exact scanNumber_scientifically sign hcoefficient power hrest

/-- **A number is scanned to itself.** -/
theorem scanNumber_renderNumber {n : Number} (hn : n.IsProper) (hrest : EndsNumber rest) :
    scanNumber (Json.renderNumber n ++ rest) = (.number n, rest) := by
  cases n with
  | double d => exact scanNumber_double hn.1 hn.2 hrest
  | int i =>
    obtain ⟨hlow, hhigh⟩ := hn
    have htext : Json.renderNumber (.int i) =
        minus (decide (i < 0)) ++ Numeral.render i.natAbs := by
      by_cases hnegative : i < 0 <;>
        simp [Json.renderNumber, Numeral.intText, Numeral.text, minus, hnegative]
    rw [htext, List.append_assoc, scanNumber_whole _ (isWhole_render _) hrest, Numeral.read_render]
    by_cases hnegative : i < 0
    · have hwhole : wholeOrDouble (decide (i < 0)) i.natAbs = .int i := by
        rw [wholeOrDouble, if_pos (decide_eq_true hnegative), if_neg (by rw [Nat.pow_eq]; omega)]
        congr 1
        omega
      rw [hwhole]
    · have hwhole : wholeOrDouble (decide (i < 0)) i.natAbs = .int i := by
        rw [wholeOrDouble, if_neg (by simpa using hnegative), if_pos (by rw [Nat.pow_eq]; omega)]
        congr 1
        omega
      rw [hwhole]

end Source

end Outreach
