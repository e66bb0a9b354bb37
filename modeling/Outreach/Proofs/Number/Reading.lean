import Outreach.Number.Decimal
import Outreach.Proofs.Number.Numeral
import Outreach.Proofs.Text.Split

/-!
# Decimals as they are written

`DecimalText` is the form of a decimal: a sign or none, digits with at most one point before, behind
or among them, and an exponent or none. A text is read as a decimal exactly if it has that form, and
then as the decimal that its parts stand for (`Decimal.read?_eq_some_iff`).
-/

namespace Outreach

/-- What may stand in front of digits. -/
inductive Sign where
  | absent
  | plus
  | minus
  deriving DecidableEq, Repr

namespace Sign

/-- A sign as it is written. -/
def written : Sign → List Char
  | absent => []
  | plus => ['+']
  | minus => ['-']

/-- Whether a sign makes a number negative. -/
def isMinus : Sign → Bool
  | minus => true
  | _ => false

/-- The sign that a number needs. -/
def ofNegative (negative : Bool) : Sign :=
  if negative then minus else absent

@[simp] theorem isMinus_ofNegative (negative : Bool) :
    (ofNegative negative).isMinus = negative := by
  cases negative <;> rfl

/-- A sign is taken off a text that goes on with anything but a sign. -/
theorem readSign_written (s : Sign) {cs : List Char} (h : ∀ c ∈ cs.head?, c ≠ '+' ∧ c ≠ '-') :
    Decimal.readSign (s.written ++ cs) = (s.isMinus, cs) := by
  cases s with
  | plus => rfl
  | minus => rfl
  | absent =>
    rw [written, List.nil_append]
    unfold Decimal.readSign
    split
    next => exact absurd rfl (h '-' rfl).2
    next => exact absurd rfl (h '+' rfl).1
    next => rfl

/-- What is taken off a text is a sign. -/
theorem exists_readSign (cs : List Char) : ∃ s : Sign, s.isMinus = (Decimal.readSign cs).1 ∧
    s.written ++ (Decimal.readSign cs).2 = cs := by
  unfold Decimal.readSign
  split
  · exact ⟨minus, rfl, rfl⟩
  · exact ⟨plus, rfl, rfl⟩
  · exact ⟨absent, rfl, rfl⟩

end Sign

/-- An exponent as it is written: a letter in either case, a sign or none, one or more digits. -/
structure ExponentText where
  upper : Bool
  sign : Sign
  digits : List Char
  isNumeral : Numeral.isNumeral digits = true

namespace ExponentText

/-- The text of an exponent. -/
def written (e : ExponentText) : List Char :=
  (if e.upper then 'E' else 'e') :: (e.sign.written ++ e.digits)

/-- The exponent that a text stands for. -/
def value (e : ExponentText) : Int :=
  if e.sign.isMinus then -(Numeral.read e.digits : Int) else Numeral.read e.digits

end ExponentText

/-- A decimal as it is written: a sign or none, digits of which some may stand behind a point, at
least one of them before or behind it, and an exponent or none. -/
structure DecimalText where
  sign : Sign
  whole : List Char
  fraction : Option (List Char)
  exponent : Option ExponentText
  isNumeral : Numeral.isNumeral (whole ++ fraction.getD []) = true

namespace DecimalText

/-- The text of a decimal. -/
def written (t : DecimalText) : List Char :=
  t.sign.written ++ (t.whole ++ (t.fraction.elim [] ('.' :: ·) ++
    t.exponent.elim [] ExponentText.written))

/-- The decimal that a text stands for. -/
def value (t : DecimalText) : Decimal where
  negative := t.sign.isMinus
  coefficient := Numeral.read (t.whole ++ t.fraction.getD [])
  exponent := t.exponent.elim 0 ExponentText.value - (t.fraction.getD []).length

end DecimalText

namespace Numeral

theorem isNumeral_iff {digits : List Char} :
    isNumeral digits = true ↔ digits ≠ [] ∧ ∀ c ∈ digits, isDigit c = true := by
  simp [isNumeral]

theorem ne_sign_of_isDigit {c : Char} (h : isDigit c = true) : c ≠ '+' ∧ c ≠ '-' := by
  constructor
  · rintro rfl
    cases h
  · rintro rfl
    cases h

/-- Digits stand for a number below a bound, perhaps behind a plus, and nothing else does. -/
theorem below?_eq_some_iff {bound n : Nat} {cs : List Char} :
    below? bound cs = some n ↔ ∃ sign digits : List Char, cs = sign ++ digits ∧
      (sign = [] ∨ sign = ['+']) ∧ isNumeral digits = true ∧ read digits = n ∧ n < bound := by
  have hread (digits : List Char) : (if isNumeral digits && read digits < bound
      then some (read digits) else none) = some n ↔
      isNumeral digits = true ∧ read digits = n ∧ n < bound := by
    simp only [Bool.and_eq_true, decide_eq_true_eq, Option.ite_none_right_eq_some, Option.some_inj]
    constructor
    · rintro ⟨⟨hdigits, hlt⟩, rfl⟩
      exact ⟨hdigits, rfl, hlt⟩
    · rintro ⟨hdigits, rfl, hlt⟩
      exact ⟨⟨hdigits, hlt⟩, rfl⟩
  unfold below?
  dsimp only
  rw [hread]
  constructor
  · intro h
    split at h
    next rest => exact ⟨['+'], rest, rfl, .inr rfl, h⟩
    next => exact ⟨[], cs, rfl, .inl rfl, h⟩
  · rintro ⟨sign, digits, rfl, rfl | rfl, h⟩
    · -- What begins with a digit begins with no plus.
      split
      next rest hplus =>
        obtain rfl : digits = '+' :: rest := hplus
        simp [isNumeral, isDigit] at h
      next => exact h
    · exact h

end Numeral

namespace Decimal

/-! ## Exponents -/

/-- An exponent, or nothing, is read as what it stands for. -/
theorem readExponent?_written (e : Option ExponentText) :
    readExponent? (e.elim [] ExponentText.written) = some (e.elim 0 ExponentText.value) := by
  cases e with
  | none => rfl
  | some e =>
    obtain ⟨hne, hdigits⟩ := Numeral.isNumeral_iff.mp e.isNumeral
    have hhead : ∀ c ∈ e.digits.head?, c ≠ '+' ∧ c ≠ '-' := fun c hc =>
      Numeral.ne_sign_of_isDigit (hdigits c (List.mem_of_head? hc))
    have hsign := Sign.readSign_written e.sign hhead
    have hletter : (if e.upper then 'E' else 'e') = 'e' ∨ (if e.upper then 'E' else 'e') = 'E' := by
      cases e.upper <;> simp
    simp only [Option.elim, ExponentText.written, readExponent?]
    rw [if_pos hletter, hsign]
    simp [e.isNumeral, ExponentText.value]

/-- What is read as an exponent is one, or nothing. -/
theorem exists_of_readExponent? {cs : List Char} {exponent : Int}
    (h : readExponent? cs = some exponent) : ∃ e : Option ExponentText,
      e.elim [] ExponentText.written = cs ∧ e.elim 0 ExponentText.value = exponent := by
  unfold readExponent? at h
  split at h
  next => exact ⟨none, rfl, Option.some.inj h⟩
  next c rest =>
    obtain ⟨sign, hminus, hwritten⟩ := Sign.exists_readSign rest
    split at h
    next hletter =>
      dsimp only at h
      split at h
      next hnumeral =>
        refine ⟨some ⟨decide (c = 'E'), sign, (readSign rest).2, hnumeral⟩, ?_, ?_⟩
        · simp only [Option.elim, ExponentText.written, hwritten, decide_eq_true_eq]
          rcases hletter with rfl | rfl <;> rfl
        · simp only [Option.elim, ExponentText.value, hminus]
          exact Option.some.inj h
      next => cases h
    next => cases h

/-- No exponent begins with a point or with a digit. -/
theorem head_written_exponent (e : Option ExponentText) :
    ∀ c ∈ (e.elim [] ExponentText.written).head?, c ≠ '.' ∧ Numeral.isDigit c = false := by
  intro c hc
  cases e with
  | none => simp at hc
  | some e =>
    obtain rfl : (if e.upper then 'E' else 'e') = c := by simpa [ExponentText.written] using hc
    cases e.upper <;> decide

/-! ## Fractions -/

/-- The digits behind a point, if there is one, and what follows them. -/
def readFraction : List Char → List Char × List Char
  | '.' :: cs => (cs.takeWhile Numeral.isDigit, cs.dropWhile Numeral.isDigit)
  | cs => ([], cs)

/-- Digits behind a point are read up to their end. -/
theorem readFraction_written {fraction : Option (List Char)} {rest : List Char}
    (hdigits : ∀ c ∈ fraction.getD [], Numeral.isDigit c = true)
    (hrest : ∀ c ∈ rest.head?, c ≠ '.' ∧ Numeral.isDigit c = false) :
    readFraction (fraction.elim [] ('.' :: ·) ++ rest) = (fraction.getD [], rest) := by
  cases fraction with
  | none =>
    simp only [Option.elim, List.nil_append, Option.getD_none]
    unfold readFraction
    split
    next => exact absurd rfl (hrest '.' rfl).1
    next => rfl
  | some digits =>
    obtain ⟨htake, hdrop⟩ := Text.takeWhile_append_of_head digits rest hdigits
      fun c hc => (hrest c hc).2
    simp only [Option.elim, List.cons_append, Option.getD_some, readFraction, htake, hdrop]

/-- What is read as a fraction is one, or nothing. -/
theorem exists_readFraction (cs : List Char) : ∃ fraction : Option (List Char),
    fraction.getD [] = (readFraction cs).1 ∧
      fraction.elim [] ('.' :: ·) ++ (readFraction cs).2 = cs := by
  unfold readFraction
  split
  next cs => exact ⟨some (cs.takeWhile Numeral.isDigit), rfl, by simp⟩
  next => exact ⟨none, rfl, rfl⟩

theorem all_isDigit_readFraction (cs : List Char) :
    (readFraction cs).1.all Numeral.isDigit = true := by
  unfold readFraction
  split
  next => exact List.all_takeWhile
  next => rfl

/-! ## Decimals -/

/-- A decimal is read part by part: its sign, the digits before the point, those behind it, and what
is left for the exponent. -/
theorem read?_eq (cs : List Char) :
    read? cs =
      if (readSign cs).2.takeWhile Numeral.isDigit ++
          (readFraction ((readSign cs).2.dropWhile Numeral.isDigit)).1 = [] then none
      else (readExponent? (readFraction ((readSign cs).2.dropWhile Numeral.isDigit)).2).map
        fun exponent => ⟨(readSign cs).1, Numeral.read ((readSign cs).2.takeWhile Numeral.isDigit ++
            (readFraction ((readSign cs).2.dropWhile Numeral.isDigit)).1),
          exponent - (readFraction ((readSign cs).2.dropWhile Numeral.isDigit)).1.length⟩ := by
  have hempty (front back : List Char) :
      front ++ back = [] ↔ (front.isEmpty && back.isEmpty) = true := by simp
  simp only [hempty]
  rfl

/-- What stands behind the sign of a decimal begins with no other sign. -/
theorem ne_sign_head_unsigned (t : DecimalText) :
    ∀ c ∈ (t.whole ++ (t.fraction.elim [] ('.' :: ·) ++
      t.exponent.elim [] ExponentText.written)).head?, c ≠ '+' ∧ c ≠ '-' := by
  obtain ⟨hne, hdigits⟩ := Numeral.isNumeral_iff.mp t.isNumeral
  intro c hc
  cases hwhole : t.whole with
  | cons first rest =>
    obtain rfl : first = c := by simpa [hwhole] using hc
    exact Numeral.ne_sign_of_isDigit (hdigits first (by simp [hwhole]))
  | nil =>
    -- Without digits before it there is a point.
    cases hfraction : t.fraction with
    | none => simp [hwhole, hfraction] at hne
    | some fraction =>
      obtain rfl : '.' = c := by simpa [hwhole, hfraction] using hc
      decide

/-- A decimal is read as what its parts stand for. -/
theorem read?_written (t : DecimalText) : read? t.written = some t.value := by
  obtain ⟨hne, hdigits⟩ := Numeral.isNumeral_iff.mp t.isNumeral
  have hexponent := head_written_exponent t.exponent
  have hafter : ∀ c ∈ (t.fraction.elim [] ('.' :: ·) ++
      t.exponent.elim [] ExponentText.written).head?, Numeral.isDigit c = false := by
    intro c hc
    cases hfraction : t.fraction with
    | none => exact (hexponent c (by simpa [hfraction] using hc)).2
    | some fraction =>
      obtain rfl : '.' = c := by simpa [hfraction] using hc
      rfl
  obtain ⟨htake, hdrop⟩ := Text.takeWhile_append_of_head t.whole _
    (fun c hc => hdigits c (List.mem_append_left _ hc)) hafter
  rw [read?_eq, DecimalText.written, Sign.readSign_written t.sign (ne_sign_head_unsigned t)]
  dsimp only
  have hfraction := readFraction_written
    (fun c hc => hdigits c (List.mem_append_right _ hc)) hexponent
  rw [htake, hdrop, hfraction, if_neg hne, readExponent?_written]
  rfl

/-- What is read as a decimal has the form of one. -/
theorem exists_written_of_read? {cs : List Char} {d : Decimal} (h : read? cs = some d) :
    ∃ t : DecimalText, t.written = cs ∧ t.value = d := by
  rw [read?_eq] at h
  obtain ⟨sign, hminus, hsign⟩ := Sign.exists_readSign cs
  generalize readSign cs = signed at *
  obtain ⟨fraction, hdigits, hfraction⟩ :=
    exists_readFraction (signed.2.dropWhile Numeral.isDigit)
  have hall := all_isDigit_readFraction (signed.2.dropWhile Numeral.isDigit)
  generalize readFraction (signed.2.dropWhile Numeral.isDigit) = pointed at *
  split at h
  next => cases h
  next hne =>
    obtain ⟨exponent, hread, rfl⟩ := Option.map_eq_some_iff.mp h
    obtain ⟨e, hwritten, rfl⟩ := exists_of_readExponent? hread
    have hnumeral : Numeral.isNumeral
        (signed.2.takeWhile Numeral.isDigit ++ fraction.getD []) = true := by
      rw [hdigits, Numeral.isNumeral_iff, ← List.all_eq_true, List.all_append, hall,
        List.all_takeWhile]
      exact ⟨hne, rfl⟩
    refine ⟨⟨sign, signed.2.takeWhile Numeral.isDigit, fraction, e, hnumeral⟩, ?_, ?_⟩
    · simp only [DecimalText.written]
      rw [hwritten, hfraction, List.takeWhile_append_dropWhile, hsign]
    · simp only [DecimalText.value, hminus, hdigits]

/-- **A text is read as a decimal exactly if it has the form of one**, and then as the decimal that
its parts stand for. -/
theorem read?_eq_some_iff {cs : List Char} {d : Decimal} :
    read? cs = some d ↔ ∃ t : DecimalText, t.written = cs ∧ t.value = d := by
  refine ⟨exists_written_of_read?, ?_⟩
  rintro ⟨t, rfl, rfl⟩
  exact read?_written t

end Decimal

end Outreach
