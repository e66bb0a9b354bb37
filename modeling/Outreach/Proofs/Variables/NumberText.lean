import Mathlib.Data.List.Basic
import Outreach.Proofs.Number.Reading
import Outreach.Proofs.Number.Rounding
import Outreach.Proofs.Text.Blank
import Outreach.Variables.Coercion

/-!
# Which texts are numbers

`Coercion.IsNumberText` is the grammar of the texts that count as a number: nothing at all, infinity
with a sign or without, digits of a radix behind its letter, and decimals. A text counts as a number
exactly if it is in the grammar once the white space around it is taken off, and the spellings that
come near to one (`Coercion.IsMisspelt`) are not (`Coercion.ofText_ne_nan_iff`).
-/

namespace Outreach

namespace Coercion

/-! ## The grammar -/

/-- The letters that stand behind a zero for a radix. -/
def radixForms : List (Char × Nat) :=
  [('x', 16), ('X', 16), ('o', 8), ('O', 8), ('b', 2), ('B', 2)]

/-- The digits of a radix. -/
def radixDigits : Nat → List Char
  | 2 => "01".toList
  | 8 => "01234567".toList
  | 16 => "0123456789abcdefABCDEF".toList
  | _ => []

/-- The texts without white space around them that count as a number. -/
inductive IsNumberText : List Char → Prop
  | empty : IsNumberText []
  | infinity (sign : Sign) : IsNumberText (sign.written ++ "Infinity".toList)
  | radix {letter : Char} {radix : Nat} (hform : (letter, radix) ∈ radixForms) {digits : List Char}
    (hne : digits ≠ []) (hdigits : ∀ c ∈ digits, c ∈ radixDigits radix) :
    IsNumberText ('0' :: letter :: digits)
  | decimal (t : DecimalText) : IsNumberText t.written

/-- Spellings that come near to a number. -/
inductive IsMisspelt : List Char → Prop
  /-- A name of a number, in letters of any case, but for infinity as it is spelt. -/
  | name (sign : Sign) {word : String} (hword : Text.lower word ∈ ["inf", "infinity", "nan"])
    (hcase : word ≠ "Infinity") : IsMisspelt (sign.written ++ word.toList)
  /-- A sign in front of the letter of a radix. -/
  | signedRadix {sign : Sign} (hsign : sign ≠ .absent) {letter : Char} {radix : Nat}
    (hform : (letter, radix) ∈ radixForms) (digits : List Char) :
    IsMisspelt (sign.written ++ '0' :: letter :: digits)
  /-- Something to set groups of digits apart. -/
  | separated {cs : List Char} {separator : Char} (hseparator : separator ∈ ['_', ',', ' '])
    (hmem : separator ∈ cs) : IsMisspelt cs
  /-- Signs, points and letters of an exponent without a digit. -/
  | bare {cs : List Char} (hne : cs ≠ [])
    (hcs : ∀ c ∈ cs, isDecimalChar c = true ∧ Numeral.isDigit c = false) : IsMisspelt cs
  /-- An exponent with nothing in front of it. -/
  | onlyExponent (sign : Sign) (e : ExponentText) : IsMisspelt (sign.written ++ e.written)
  /-- An exponent without digits. -/
  | openExponent (t : DecimalText) (upper : Bool) (sign : Sign) :
    IsMisspelt (t.written ++ (if upper then 'E' else 'e') :: sign.written)

/-! ## Characters of a number -/

theorem isDecimalChar_of_isDigit {c : Char} (h : Numeral.isDigit c = true) :
    isDecimalChar c = true := by
  simp [isDecimalChar, h]

theorem isDecimalChar_of_mem_sign {sign : Sign} {c : Char} (h : c ∈ sign.written) :
    isDecimalChar c = true := by
  cases sign with
  | absent => simp [Sign.written] at h
  | plus =>
    obtain rfl : c = '+' := by simpa [Sign.written] using h
    rfl
  | minus =>
    obtain rfl : c = '-' := by simpa [Sign.written] using h
    rfl

theorem isDecimalChar_of_mem_exponent {e : ExponentText} {c : Char} (h : c ∈ e.written) :
    isDecimalChar c = true := by
  rw [ExponentText.written, List.mem_cons, List.mem_append] at h
  rcases h with rfl | h | h
  · cases e.upper <;> rfl
  · exact isDecimalChar_of_mem_sign h
  · exact isDecimalChar_of_isDigit ((Numeral.isNumeral_iff.mp e.isNumeral).2 c h)

/-- A decimal consists of digits, signs, points and letters of an exponent. -/
theorem isDecimalChar_of_mem {t : DecimalText} {c : Char} (h : c ∈ t.written) :
    isDecimalChar c = true := by
  have hdigits := (Numeral.isNumeral_iff.mp t.isNumeral).2
  simp only [DecimalText.written, List.mem_append] at h
  rcases h with h | h | h | h
  · exact isDecimalChar_of_mem_sign h
  · exact isDecimalChar_of_isDigit (hdigits c (List.mem_append_left _ h))
  · cases hfraction : t.fraction with
    | none => simp [hfraction] at h
    | some fraction =>
      rw [hfraction, Option.elim, List.mem_cons] at h
      rcases h with rfl | h
      · rfl
      · exact isDecimalChar_of_isDigit
          (hdigits c (List.mem_append_right _ (by rwa [hfraction])))
  · cases hexponent : t.exponent with
    | none => simp [hexponent] at h
    | some e =>
      rw [hexponent] at h
      exact isDecimalChar_of_mem_exponent h

/-- The letter of a radix has no place in a decimal. -/
theorem not_isDecimalChar_radix : ∀ form ∈ radixForms, isDecimalChar form.1 = false := by
  decide

/-! ## Digits of a radix -/

theorem isSome_radixDigit?_iff {radix : Nat} {c : Char} :
    (radixDigit? radix c).isSome = true ↔
      (48 ≤ c.toNat ∧ c.toNat ≤ 57 ∧ c.toNat - 48 < radix) ∨
      (97 ≤ c.toNat ∧ c.toNat ≤ 102 ∧ c.toNat - 87 < radix) ∨
      (65 ≤ c.toNat ∧ c.toNat ≤ 70 ∧ c.toNat - 55 < radix) := by
  rw [radixDigit?, Hexadecimal.valueOf?, Option.isSome_filter]
  generalize c.toNat = point
  split
  next =>
    simp only [Option.any_some, decide_eq_true_eq]
    omega
  next =>
    split
    next =>
      simp only [Option.any_some, decide_eq_true_eq]
      omega
    next =>
      split
      next =>
        simp only [Option.any_some, decide_eq_true_eq]
        omega
      next =>
        simp only [Option.any_none, Bool.false_eq_true, false_iff]
        omega

/-- The digits of a radix are those that have a value in it. -/
theorem mem_radixDigits_iff {radix : Nat} (hradix : radix ∈ [2, 8, 16]) {c : Char} :
    c ∈ radixDigits radix ↔ (radixDigit? radix c).isSome = true := by
  have hmem : c ∈ radixDigits radix ↔ c.toNat ∈ (radixDigits radix).map Char.toNat :=
    (List.mem_map_of_injective fun _ _ => Char.toNat_inj.mp).symm
  rw [hmem, isSome_radixDigit?_iff]
  generalize c.toNat = point
  simp only [List.mem_cons, List.not_mem_nil, or_false] at hradix
  rcases hradix with rfl | rfl | rfl
  · have hpoints : (radixDigits 2).map Char.toNat = [48, 49] := by decide
    simp only [hpoints, List.mem_cons, List.not_mem_nil, or_false]
    omega
  · have hpoints : (radixDigits 8).map Char.toNat = [48, 49, 50, 51, 52, 53, 54, 55] := by decide
    simp only [hpoints, List.mem_cons, List.not_mem_nil, or_false]
    omega
  · have hpoints : (radixDigits 16).map Char.toNat = [48, 49, 50, 51, 52, 53, 54, 55, 56, 57, 97,
        98, 99, 100, 101, 102, 65, 66, 67, 68, 69, 70] := by decide
    simp only [hpoints, List.mem_cons, List.not_mem_nil, or_false]
    omega

theorem isSome_mapM_iff {α β : Type} {f : α → Option β} {items : List α} :
    (items.mapM f).isSome = true ↔ ∀ item ∈ items, (f item).isSome = true := by
  induction items with
  | nil => simp
  | cons item rest ih =>
    rw [List.forall_mem_cons, ← ih, List.mapM_cons]
    cases f item with
    | none => simp
    | some value => cases rest.mapM f <;> simp

/-- One more digit behind a number makes a number, be it beyond all doubles. -/
theorem isNaN_shiftIn {radix digit : Nat} {acc : Double} (h : acc.isNaN = false) :
    (shiftIn radix acc digit).isNaN = false := by
  cases acc with
  | nan => cases h
  | infinite => rfl
  | finite => exact Double.isNaN_round _ _ _

theorem isNaN_foldl_shiftIn (radix : Nat) (values : List Nat) {acc : Double}
    (h : acc.isNaN = false) : (values.foldl (shiftIn radix) acc).isNaN = false := by
  induction values generalizing acc with
  | nil => exact h
  | cons value rest ih => exact ih (isNaN_shiftIn h)

/-- One or more digits of a radix are a number. -/
theorem isNaN_ofRadix_iff {radix : Nat} (hradix : radix ∈ [2, 8, 16]) {digits : List Char} :
    (ofRadix radix digits).isNaN = false ↔
      digits ≠ [] ∧ ∀ c ∈ digits, c ∈ radixDigits radix := by
  simp only [mem_radixDigits_iff hradix]
  rw [← isSome_mapM_iff]
  unfold ofRadix
  cases digits with
  | nil => simp [Double.isNaN]
  | cons c rest =>
    rw [List.isEmpty_cons, if_neg Bool.false_ne_true]
    split
    next hnone => simp [hnone, Double.isNaN]
    next values hsome =>
      have hzero : (Double.zero false).isNaN = false := rfl
      simpa [hsome] using isNaN_foldl_shiftIn radix values hzero

/-! ## Which texts are in the grammar -/

theorem radix_unique : ∀ form ∈ radixForms, ∀ other ∈ radixForms,
    form.1 = other.1 → form.2 = other.2 := by
  decide

/-- Behind the letter of a radix stand digits of this radix and nothing else. -/
theorem isNumberText_radix_iff {letter : Char} {radix : Nat} (hform : (letter, radix) ∈ radixForms)
    {digits : List Char} : IsNumberText ('0' :: letter :: digits) ↔
      digits ≠ [] ∧ ∀ c ∈ digits, c ∈ radixDigits radix := by
  refine ⟨fun h => ?_, fun ⟨hne, hdigits⟩ => .radix hform hne hdigits⟩
  generalize htext : '0' :: letter :: digits = cs at h
  cases h with
  | empty => cases htext
  | infinity sign => cases sign <;> cases (List.cons.inj htext).1
  | radix hother hne hdigits =>
    obtain ⟨-, htail⟩ := List.cons.inj htext
    obtain ⟨rfl, rfl⟩ := List.cons.inj htail
    obtain rfl := radix_unique _ hform _ hother rfl
    exact ⟨hne, hdigits⟩
  | decimal t =>
    have hdecimal : isDecimalChar letter = true := isDecimalChar_of_mem (t := t) (by simp [← htext])
    cases (not_isDecimalChar_radix _ hform).symm.trans hdecimal

/-- A decimal is read as what its parts stand for. -/
theorem ofDecimal_written (t : DecimalText) : ofDecimal t.written = t.value.toDouble := by
  have hall : t.written.all isDecimalChar = true :=
    List.all_eq_true.mpr fun c hc => isDecimalChar_of_mem hc
  rw [ofDecimal, if_pos hall, Decimal.read?_written]

/-- A decimal in the grammar is one that is read. -/
theorem isNaN_ofDecimal_iff {cs : List Char} :
    (ofDecimal cs).isNaN = false ↔ ∃ t : DecimalText, t.written = cs := by
  constructor
  · intro h
    unfold ofDecimal at h
    split at h
    next =>
      split at h
      next d hread =>
        obtain ⟨t, hwritten, -⟩ := Decimal.read?_eq_some_iff.mp hread
        exact ⟨t, hwritten⟩
      next => cases h
    next => cases h
  · rintro ⟨t, rfl⟩
    rw [ofDecimal_written]
    exact Decimal.isNaN_toDouble _

/-- A text counts as a number exactly if it is in the grammar when it is trimmed. -/
theorem isNaN_ofText_iff (s : String) :
    (ofText s).isNaN = false ↔ IsNumberText (Text.trim s.toList) := by
  unfold ofText
  generalize Text.trim s.toList = core
  split
  next => exact iff_of_true rfl .empty
  next => exact (isNaN_ofRadix_iff (by decide)).trans (isNumberText_radix_iff (by decide)).symm
  next => exact (isNaN_ofRadix_iff (by decide)).trans (isNumberText_radix_iff (by decide)).symm
  next => exact (isNaN_ofRadix_iff (by decide)).trans (isNumberText_radix_iff (by decide)).symm
  next => exact (isNaN_ofRadix_iff (by decide)).trans (isNumberText_radix_iff (by decide)).symm
  next => exact (isNaN_ofRadix_iff (by decide)).trans (isNumberText_radix_iff (by decide)).symm
  next => exact (isNaN_ofRadix_iff (by decide)).trans (isNumberText_radix_iff (by decide)).symm
  next hempty hx hX ho hO hb hB =>
    split
    next hinfinite =>
      rcases hinfinite with rfl | rfl
      · exact iff_of_true rfl (.infinity .absent)
      · exact iff_of_true rfl (.infinity .plus)
    next hpositive =>
      split
      next hinfinite =>
        subst hinfinite
        exact iff_of_true rfl (.infinity .minus)
      next hnegative =>
        rw [isNaN_ofDecimal_iff]
        refine ⟨fun ⟨t, ht⟩ => ht ▸ .decimal t, fun h => ?_⟩
        cases h with
        | empty => exact absurd rfl hempty
        | infinity sign =>
          cases sign with
          | absent => exact absurd (.inl rfl) hpositive
          | plus => exact absurd (.inr rfl) hpositive
          | minus => exact absurd rfl hnegative
        | radix hform hne hdigits =>
          -- Every letter has a case of its own.
          simp only [radixForms, List.mem_cons, Prod.mk.injEq, List.not_mem_nil, or_false] at hform
          rcases hform with ⟨rfl, -⟩ | ⟨rfl, -⟩ | ⟨rfl, -⟩ | ⟨rfl, -⟩ | ⟨rfl, -⟩ | ⟨rfl, -⟩
          · exact absurd rfl (hx _)
          · exact absurd rfl (hX _)
          · exact absurd rfl (ho _)
          · exact absurd rfl (hO _)
          · exact absurd rfl (hb _)
          · exact absurd rfl (hB _)
        | decimal t => exact ⟨t, rfl⟩

/-! ## Which spellings are not -/

/-- Nothing but infinity has characters that belong neither to a decimal nor to a radix. -/
theorem IsNumberText.infinity_or_chars {cs : List Char} (h : IsNumberText cs) :
    (∃ sign : Sign, cs = sign.written ++ "Infinity".toList) ∨
      ∀ c ∈ cs, isDecimalChar c = true ∨
        ∃ form ∈ radixForms, c = form.1 ∨ c ∈ radixDigits form.2 := by
  cases h with
  | empty => exact .inr nofun
  | infinity sign => exact .inl ⟨sign, rfl⟩
  | decimal t => exact .inr fun c hc => .inl (isDecimalChar_of_mem hc)
  | radix hform hne hdigits =>
    refine .inr fun c hc => ?_
    rw [List.mem_cons, List.mem_cons] at hc
    rcases hc with rfl | rfl | hc
    · exact .inl rfl
    · exact .inr ⟨_, hform, .inl rfl⟩
    · exact .inr ⟨_, hform, .inr (hdigits c hc)⟩

theorem infinity_of_mem {cs : List Char} (h : IsNumberText cs) {c : Char} (hc : c ∈ cs)
    (hdecimal : isDecimalChar c = false)
    (hradix : ∀ form ∈ radixForms, c ≠ form.1 ∧ c ∉ radixDigits form.2) :
    ∃ sign : Sign, cs = sign.written ++ "Infinity".toList := by
  rcases h.infinity_or_chars with hinfinity | hchars
  · exact hinfinity
  · rcases hchars c hc with hchar | ⟨form, hform, hchar⟩
    · cases hdecimal.symm.trans hchar
    · exact absurd hchar (not_or.mpr (hradix form hform))

/-- A text of the characters of a decimal is in the grammar if it is one, or nothing. -/
theorem isNumberText_iff_of_decimalChars {cs : List Char} (hcs : ∀ c ∈ cs, isDecimalChar c = true) :
    IsNumberText cs ↔ cs = [] ∨ ∃ t : DecimalText, t.written = cs := by
  constructor
  · intro h
    cases h with
    | empty => exact .inl rfl
    | decimal t => exact .inr ⟨t, rfl⟩
    | infinity sign => cases hcs 'I' (by simp)
    | @radix letter radix hform =>
      cases (not_isDecimalChar_radix _ hform).symm.trans (hcs letter (by simp))
  · rintro (rfl | ⟨t, rfl⟩)
    · exact .empty
    · exact .decimal t

/-- The last character of a decimal is a digit or the point. -/
theorem last_of_written (t : DecimalText) :
    ∀ c ∈ t.written.getLast?, Numeral.isDigit c = true ∨ c = '.' := by
  obtain ⟨hne, hdigits⟩ := Numeral.isNumeral_iff.mp t.isNumeral
  intro c hc
  cases hexponent : t.exponent with
  | some e =>
    obtain ⟨hsome, hnumeral⟩ := Numeral.isNumeral_iff.mp e.isNumeral
    have hsplit : t.written = (t.sign.written ++ (t.whole ++ (t.fraction.elim [] ('.' :: ·) ++
        (if e.upper then 'E' else 'e') :: e.sign.written))) ++ e.digits := by
      simp [DecimalText.written, hexponent, ExponentText.written]
    have hlast : c ∈ e.digits.getLast? := by
      rwa [hsplit, List.getLast?_append_of_ne_nil _ hsome] at hc
    exact .inl (hnumeral c (List.mem_of_getLast? hlast))
  | none =>
    cases hfraction : t.fraction with
    | some fraction =>
      have hlast : c ∈ ('.' :: fraction).getLast? := by
        simpa [DecimalText.written, hexponent, hfraction] using hc
      rcases List.mem_cons.mp (List.mem_of_getLast? hlast) with rfl | hmem
      · exact .inr rfl
      · exact .inl (hdigits c (List.mem_append_right _ (by rwa [hfraction])))
    | none =>
      have hsome : t.whole ≠ [] := by simpa [hfraction] using hne
      obtain ⟨first, rest, hcons⟩ := List.exists_cons_of_ne_nil hsome
      have hlast : c ∈ t.whole.getLast? := by
        simpa [DecimalText.written, hexponent, hfraction, hcons] using hc
      exact .inl (hdigits c (List.mem_append_left _ (List.mem_of_getLast? hlast)))

/-- No decimal begins with the letter of an exponent. -/
theorem read?_onlyExponent (sign : Sign) (e : ExponentText) :
    Decimal.read? (sign.written ++ e.written) = none := by
  have hnosign : ∀ c ∈ e.written.head?, c ≠ '+' ∧ c ≠ '-' := by
    intro c hc
    obtain rfl : (if e.upper then 'E' else 'e') = c := by simpa [ExponentText.written] using hc
    cases e.upper <;> decide
  have hnodigit : ∀ c ∈ e.written.head?, c ≠ '.' ∧ Numeral.isDigit c = false :=
    Decimal.head_written_exponent (some e)
  have hnone : ∀ c ∈ (none : Option (List Char)).getD [], Numeral.isDigit c = true := by simp
  have hsign := sign.readSign_written hnosign
  obtain ⟨htake, hdrop⟩ := Text.takeWhile_append_of_head [] e.written hnone fun c hc =>
    (hnodigit c hc).2
  have hfraction := Decimal.readFraction_written hnone hnodigit
  rw [List.nil_append] at htake hdrop
  rw [Decimal.read?_eq, hsign]
  dsimp only
  rw [htake, hdrop]
  exact if_pos (by simpa using congrArg Prod.fst hfraction)

theorem mem_of_lowerChar {c : Char} (h : Text.lowerChar c ∈ ['i', 'n']) :
    c ∈ ['i', 'I', 'n', 'N'] := by
  have hupper : ∀ point < 91, 65 ≤ point → Char.ofNat (point + 32) ∈ ['i', 'n'] →
      Char.ofNat point ∈ ['i', 'I', 'n', 'N'] := by
    decide
  unfold Text.lowerChar at h
  split at h
  next hrange =>
    rw [← Char.ofNat_toNat c]
    exact hupper c.toNat (by omega) hrange.1 h
  next =>
    simp only [List.mem_cons, List.not_mem_nil, or_false] at h ⊢
    rcases h with rfl | rfl
    · exact .inl rfl
    · exact .inr (.inr (.inl rfl))

/-- A name of a number begins with one of four letters. -/
theorem exists_letter_of_lower {word : String}
    (h : Text.lower word ∈ ["inf", "infinity", "nan"]) :
    ∃ c rest, word.toList = c :: rest ∧ c ∈ ['i', 'I', 'n', 'N'] := by
  have hlower : (Text.lower word).toList = word.toList.map Text.lowerChar := String.toList_ofList
  obtain ⟨c, rest, hname, hc⟩ :
      ∃ c rest, (Text.lower word).toList = c :: rest ∧ c ∈ ['i', 'n'] := by
    simp only [List.mem_cons, List.not_mem_nil, or_false] at h
    rcases h with h | h | h
    · exact ⟨'i', "nf".toList, by rw [h]; rfl, by decide⟩
    · exact ⟨'i', "nfinity".toList, by rw [h]; rfl, by decide⟩
    · exact ⟨'n', "an".toList, by rw [h]; rfl, by decide⟩
  rw [hlower, List.map_eq_cons_iff] at hname
  obtain ⟨first, others, hword, rfl, -⟩ := hname
  exact ⟨first, others, hword, mem_of_lowerChar hc⟩

/-- The four letters have no place in a number but in infinity. -/
theorem letter_apart : ∀ c ∈ ['i', 'I', 'n', 'N', '_', ',', ' '], isDecimalChar c = false ∧
    ∀ form ∈ radixForms, c ≠ form.1 ∧ c ∉ radixDigits form.2 := by
  intro c hc
  simp only [List.mem_cons, List.not_mem_nil, or_false] at hc
  rcases hc with rfl | rfl | rfl | rfl | rfl | rfl | rfl <;> decide

theorem head_infinity : ∀ c ∈ "Infinity".toList.head?, c ≠ '+' ∧ c ≠ '-' := by
  intro c hc
  obtain rfl : 'I' = c := by simpa using hc
  decide

/-- Signs in front of what begins with no sign can be told from it. -/
theorem eq_of_sign_append {sign other : Sign} {cs rest : List Char}
    (hcs : ∀ c ∈ cs.head?, c ≠ '+' ∧ c ≠ '-') (hrest : ∀ c ∈ rest.head?, c ≠ '+' ∧ c ≠ '-')
    (h : sign.written ++ cs = other.written ++ rest) : cs = rest := by
  have hread := sign.readSign_written hcs
  rw [h, other.readSign_written hrest] at hread
  exact (Prod.mk.inj hread).2.symm

/-- There is a digit in every decimal. -/
theorem exists_isDigit_mem (t : DecimalText) : ∃ c ∈ t.written, Numeral.isDigit c = true := by
  obtain ⟨hne, hdigits⟩ := Numeral.isNumeral_iff.mp t.isNumeral
  obtain ⟨c, rest, hcons⟩ := List.exists_cons_of_ne_nil hne
  have hc : c ∈ t.whole ++ t.fraction.getD [] := by simp [hcons]
  refine ⟨c, ?_, hdigits c hc⟩
  rcases List.mem_append.mp hc with hwhole | hfraction
  · simp [DecimalText.written, hwhole]
  · cases hsome : t.fraction with
    | none => simp [hsome] at hfraction
    | some fraction =>
      have hmem : c ∈ fraction := by simpa [hsome] using hfraction
      simp [DecimalText.written, hsome, hmem]

/-- No misspelling is in the grammar. -/
theorem IsMisspelt.not_isNumberText {cs : List Char} (h : IsMisspelt cs) : ¬ IsNumberText cs := by
  intro hnumber
  cases h with
  | @name sign word hword hcase =>
    obtain ⟨c, rest, hcons, hc⟩ := exists_letter_of_lower hword
    obtain ⟨hdecimal, hradix⟩ := letter_apart c (List.mem_append_left ['_', ',', ' '] hc)
    obtain ⟨other, hinfinity⟩ := infinity_of_mem hnumber (c := c) (by simp [hcons]) hdecimal hradix
    have hsign : ∀ d ∈ word.toList.head?, d ≠ '+' ∧ d ≠ '-' := by
      intro d hd
      obtain rfl : c = d := by simpa [hcons] using hd
      constructor
      · rintro rfl
        cases hdecimal
      · rintro rfl
        cases hdecimal
    exact hcase (String.toList_inj.mp (eq_of_sign_append hsign head_infinity hinfinity))
  | @signedRadix sign hsign letter radix hform digits =>
    have hzero : ∀ c ∈ ('0' :: letter :: digits).head?, c ≠ '+' ∧ c ≠ '-' := by
      rintro _ ⟨⟩
      decide
    generalize htext : sign.written ++ '0' :: letter :: digits = cs at hnumber
    cases hnumber with
    | empty => simp at htext
    | infinity other => cases (List.cons.inj (eq_of_sign_append hzero head_infinity htext)).1
    | radix =>
      cases sign with
      | absent => exact hsign rfl
      | plus => cases (List.cons.inj htext).1
      | minus => cases (List.cons.inj htext).1
    | decimal t =>
      have hdecimal : isDecimalChar letter = true :=
        isDecimalChar_of_mem (t := t) (by simp [← htext])
      cases (not_isDecimalChar_radix _ hform).symm.trans hdecimal
  | @separated _ separator hseparator hmem =>
    obtain ⟨hdecimal, hradix⟩ :=
      letter_apart separator (List.mem_append_right ['i', 'I', 'n', 'N'] hseparator)
    obtain ⟨sign, rfl⟩ := infinity_of_mem hnumber hmem hdecimal hradix
    have hapart : ∀ separator ∈ ['_', ',', ' '], ∀ sign : Sign,
        separator ∉ sign.written ++ "Infinity".toList := by
      intro separator hseparator sign
      simp only [List.mem_cons, List.not_mem_nil, or_false] at hseparator
      rcases hseparator with rfl | rfl | rfl <;> cases sign <;> decide
    exact hapart separator hseparator sign hmem
  | bare hne hcs =>
    have hchars := (isNumberText_iff_of_decimalChars fun c hc => (hcs c hc).1).mp hnumber
    rcases hchars with rfl | ⟨t, rfl⟩
    · exact hne rfl
    · obtain ⟨c, hc, hdigit⟩ := exists_isDigit_mem t
      cases (hcs c hc).2.symm.trans hdigit
  | onlyExponent sign e =>
    have hchars : ∀ c ∈ sign.written ++ e.written, isDecimalChar c = true := by
      intro c hc
      rcases List.mem_append.mp hc with hc | hc
      · exact isDecimalChar_of_mem_sign hc
      · exact isDecimalChar_of_mem_exponent hc
    rcases (isNumberText_iff_of_decimalChars hchars).mp hnumber with hnil | ⟨t, ht⟩
    · simp [ExponentText.written] at hnil
    · have hread := Decimal.read?_written t
      rw [ht, read?_onlyExponent] at hread
      cases hread
  | openExponent t upper sign =>
    have hletter : isDecimalChar (if upper then 'E' else 'e') = true := by
      cases upper <;> rfl
    have hchars : ∀ c ∈ t.written ++ (if upper then 'E' else 'e') :: sign.written,
        isDecimalChar c = true := by
      intro c hc
      rw [List.mem_append, List.mem_cons] at hc
      rcases hc with hc | rfl | hc
      · exact isDecimalChar_of_mem hc
      · exact hletter
      · exact isDecimalChar_of_mem_sign hc
    rcases (isNumberText_iff_of_decimalChars hchars).mp hnumber with hnil | ⟨other, hother⟩
    · simp at hnil
    · have hlast := last_of_written other
      rw [hother, List.getLast?_append_of_ne_nil _ (List.cons_ne_nil _ _)] at hlast
      -- The last character is a sign or the letter of the exponent.
      cases upper <;> cases sign <;> exact absurd (hlast _ rfl) (by decide)

/-- **Which texts count as a number**: when the white space at both ends of a text is taken off,
what is left is in the grammar exactly if the text counts as a number, and misspellings do not. -/
theorem ofText_ne_nan_iff (s : String) :
    ∃ front core back, Text.Trims s.toList front core back ∧
      (ofText s ≠ .nan ↔ IsNumberText core) ∧ (IsMisspelt core → ofText s = .nan) := by
  obtain ⟨front, back, htrims⟩ := Text.exists_trims s.toList
  have hnumber : ofText s ≠ .nan ↔ IsNumberText (Text.trim s.toList) := by
    rw [← isNaN_ofText_iff]
    cases ofText s <;> simp [Double.isNaN]
  refine ⟨front, Text.trim s.toList, back, htrims, hnumber, fun hmisspelt => ?_⟩
  by_contra hne
  exact hmisspelt.not_isNumberText (hnumber.mp hne)

end Coercion

end Outreach
