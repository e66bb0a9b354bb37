import Outreach.Text.Percent

/-!
# What percent signs stand for

Writing characters with percent signs changes nothing in the bytes that a text stands for
(`Percent.bytes_encode`). These are the bytes of the text itself exactly unless it held a percent sign
with two digits from the start; then they are fewer (`Percent.length_bytes_eq_iff`).
-/

namespace Outreach

namespace Hexadecimal

theorem valueOf?_upperDigit {d : Nat} (h : d < 16) : valueOf? (upperDigit d) = some d := by
  decide +revert

theorem valueOf?_percent : valueOf? '%' = none := rfl

theorem toNat_of_valueOf? {c : Char} {n : Nat} (h : valueOf? c = some n) :
    48 ≤ c.toNat ∧ c.toNat ≤ 102 := by
  unfold valueOf? at h
  grind

theorem read?_pair (a b : Char) :
    read? [a, b] = (valueOf? a).bind fun m => (valueOf? b).map (16 * m + ·) := by
  simp [read?]

theorem read?_byte (b : UInt8) :
    read? [upperDigit (b.toNat / 16), upperDigit (b.toNat % 16)] = some b.toNat := by
  have hsmall := b.toNat_lt
  have hhigh : b.toNat / 16 < 16 := by omega
  have hlow : b.toNat % 16 < 16 := by omega
  simp [read?_pair, valueOf?_upperDigit hhigh, valueOf?_upperDigit hlow, Nat.div_add_mod]

end Hexadecimal

namespace Percent

/-- Whether a text begins with the two digits of a byte. -/
def startsWithDigits : List Char → Bool
  | a :: b :: _ => (Hexadecimal.read? [a, b]).isSome
  | _ => false

/-- Whether a percent sign with two digits behind it stands in a text. -/
def holdsByte : List Char → Bool
  | [] => false
  | c :: rest => (c == '%' && startsWithDigits rest) || holdsByte rest

/-- The bytes of a text itself. -/
def ownBytes (cs : List Char) : List UInt8 :=
  cs.flatMap String.utf8EncodeChar

variable {c : Char} {cs rest : List Char}

/-! ## One step -/

theorem bytes_percent {a b : Char} {n : Nat} (h : Hexadecimal.read? [a, b] = some n)
    (rest : List Char) : bytes ('%' :: a :: b :: rest) = n.toUInt8 :: bytes rest := by
  rw [bytes, h]

theorem bytes_cons (h : (c == '%' && startsWithDigits rest) = false) :
    bytes (c :: rest) = String.utf8EncodeChar c ++ bytes rest := by
  rw [bytes.eq_def]
  split
  next hnil => cases hnil
  next a b tail hcons =>
    obtain ⟨rfl, rfl⟩ := List.cons.inj hcons
    have hnone : Hexadecimal.read? [a, b] = none := by simpa [startsWithDigits] using h
    rw [hnone]
  next hcons =>
    obtain ⟨rfl, rfl⟩ := List.cons.inj hcons
    rfl

/-- Where no percent sign with two characters behind it stands, none stands for a byte. -/
theorem percent_startsWithDigits_eq_false
    (h : ∀ a b tail, c = '%' → rest = a :: b :: tail → False) :
    (c == '%' && startsWithDigits rest) = false := by
  cases hpercent : c == '%' with
  | false => rfl
  | true =>
    match rest, h with
    | [], _ => rfl
    | [_], _ => rfl
    | a :: b :: tail, h => exact (h a b tail (beq_iff_eq.mp hpercent) rfl).elim

theorem bytes_flatMap_byte (bs : List UInt8) (rest : List Char) :
    bytes (bs.flatMap byte ++ rest) = bs ++ bytes rest := by
  induction bs with
  | nil => rfl
  | cons b bs ih =>
    rw [List.flatMap_cons, List.append_assoc, byte, List.cons_append, List.cons_append,
      List.cons_append, bytes_percent (Hexadecimal.read?_byte b), List.nil_append, ih]
    simp

/-! ## Encoding -/

/-- A class of characters that percent signs and digits do not belong to. -/
def SparesBytes (mustEncode : Char → Bool) : Prop :=
  ∀ c, (c = '%' ∨ (Hexadecimal.valueOf? c).isSome = true) → mustEncode c = false

variable {mustEncode : Char → Bool}

/-- The form of a character in a text: itself, or a percent sign and more. -/
theorem encodeChar_cases (mustEncode : Char → Bool) (c : Char) :
    (mustEncode c = false ∧ encodeChar mustEncode c = [c]) ∨
      (mustEncode c = true ∧ ∃ a b more, encodeChar mustEncode c = '%' :: a :: b :: more) := by
  cases hc : mustEncode c with
  | false => exact .inl ⟨rfl, by simp [encodeChar, hc]⟩
  | true =>
    refine .inr ⟨rfl, ?_⟩
    have hne : String.utf8EncodeChar c ≠ [] := by
      apply List.ne_nil_of_length_pos
      rw [String.length_utf8EncodeChar]
      exact c.utf8Size_pos
    obtain ⟨first, others, hbytes⟩ := List.exists_cons_of_ne_nil hne
    rw [encodeChar, if_pos hc, hbytes]
    exact ⟨_, _, _, rfl⟩

theorem startsWithDigits_of_not_digit (h : Hexadecimal.valueOf? c = none) (rest : List Char) :
    startsWithDigits (c :: rest) = false := by
  cases rest with
  | nil => rfl
  | cons b rest => simp [startsWithDigits, Hexadecimal.read?_pair, h]

theorem startsWithDigits_percent (rest : List Char) : startsWithDigits ('%' :: rest) = false :=
  startsWithDigits_of_not_digit Hexadecimal.valueOf?_percent rest

/-- Encoding brings no digits to the start of a text, and takes none away. -/
theorem startsWithDigits_encode (h : SparesBytes mustEncode) (cs : List Char) :
    startsWithDigits (encode mustEncode cs) = startsWithDigits cs := by
  cases cs with
  | nil => rfl
  | cons a cs =>
    rw [encode, List.flatMap_cons]
    cases ha : Hexadecimal.valueOf? a with
    | none =>
      rw [startsWithDigits_of_not_digit ha]
      rcases encodeChar_cases mustEncode a with ⟨-, hsame⟩ | ⟨-, _, _, _, hbyte⟩
      · rw [hsame, List.singleton_append, startsWithDigits_of_not_digit ha]
      · rw [hbyte, List.cons_append, startsWithDigits_percent]
    | some m =>
      have hkept : encodeChar mustEncode a = [a] := by
        simp [encodeChar, h a (.inr (by simp [ha]))]
      rw [hkept, List.singleton_append]
      cases cs with
      | nil => rfl
      | cons b cs =>
        rw [List.flatMap_cons]
        rcases encodeChar_cases mustEncode b with ⟨-, hsame⟩ | ⟨hencoded, _, _, _, hbyte⟩
        · rw [hsame]
          rfl
        · -- What is encoded is no digit, and neither is the percent sign in its place.
          have hb : Hexadecimal.valueOf? b = none := by
            cases hb : Hexadecimal.valueOf? b with
            | none => rfl
            | some n =>
              rw [h b (.inr (by simp [hb]))] at hencoded
              cases hencoded
          rw [hbyte]
          simp [startsWithDigits, Hexadecimal.read?_pair, hb, Hexadecimal.valueOf?_percent]

/-- **Writing characters with percent signs changes nothing in what a text stands for.** -/
theorem bytes_encode (h : SparesBytes mustEncode) (cs : List Char) :
    bytes (encode mustEncode cs) = bytes cs := by
  fun_induction bytes cs with
  | case1 => simp [encode, bytes]
  | case2 a b rest n hn ih =>
    have hpair := hn
    rw [Hexadecimal.read?_pair, Option.bind_eq_some_iff] at hpair
    obtain ⟨m, ha, hb⟩ := hpair
    have hkept (c : Char) (hc : c = '%' ∨ (Hexadecimal.valueOf? c).isSome = true) :
        encodeChar mustEncode c = [c] := by
      simp [encodeChar, h c hc]
    have hdigit : (Hexadecimal.valueOf? b).isSome = true := by
      rw [← Option.isSome_map, hb]
      rfl
    rw [encode, List.flatMap_cons, List.flatMap_cons, List.flatMap_cons, hkept '%' (.inl rfl),
      hkept a (.inr (by simp [ha])), hkept b (.inr hdigit)]
    exact (bytes_percent hn _).trans (congrArg _ ih)
  | case3 a b rest hn ih =>
    have hstart : startsWithDigits (encode mustEncode (a :: b :: rest)) = false := by
      rw [startsWithDigits_encode h]
      simp [startsWithDigits, hn]
    have hkept : encodeChar mustEncode '%' = ['%'] := by simp [encodeChar, h '%' (.inl rfl)]
    rw [encode, List.flatMap_cons, hkept, List.singleton_append, ← encode,
      bytes_cons (by rw [hstart]; rfl), ih]
  | case4 c rest hc ih =>
    have hstart := percent_startsWithDigits_eq_false hc
    rw [encode, List.flatMap_cons, ← encode]
    rcases encodeChar_cases mustEncode c with ⟨-, hsame⟩ | ⟨hencoded, -⟩
    · rw [hsame, List.singleton_append, bytes_cons (by rwa [startsWithDigits_encode h]), ih]
    · rw [encodeChar, if_pos hencoded, bytes_flatMap_byte, ih]

/-! ## Lengths -/

@[simp] theorem length_ownBytes_cons (c : Char) (rest : List Char) :
    (ownBytes (c :: rest)).length = c.utf8Size + (ownBytes rest).length := by
  rw [ownBytes, List.flatMap_cons, List.length_append, String.length_utf8EncodeChar]
  rfl

/-- A text without percent signs in front of digits stands for itself. -/
theorem bytes_eq_ownBytes (h : holdsByte cs = false) : bytes cs = ownBytes cs := by
  induction cs with
  | nil => simp [bytes, ownBytes]
  | cons c rest ih =>
    obtain ⟨hc, hrest⟩ := Bool.or_eq_false_iff.mp h
    rw [bytes_cons hc, ih hrest]
    rfl

theorem length_bytes_le (cs : List Char) : (bytes cs).length ≤ (ownBytes cs).length := by
  fun_induction bytes cs with
  | case1 => exact Nat.zero_le _
  | case2 a b rest n hn ih =>
    simp only [List.length_cons, length_ownBytes_cons]
    have hpercent := Char.utf8Size_pos '%'
    omega
  | case3 a b rest hn ih =>
    simp only [List.length_append, String.length_utf8EncodeChar, length_ownBytes_cons] at ih ⊢
    omega
  | case4 c rest hc ih =>
    simp only [List.length_append, String.length_utf8EncodeChar, length_ownBytes_cons]
    omega

/-- A percent sign and two digits stand for one byte. -/
theorem length_bytes_lt (h : holdsByte cs = true) : (bytes cs).length < (ownBytes cs).length := by
  fun_induction bytes cs with
  | case1 => cases h
  | case2 a b rest n hn ih =>
    have hrest := length_bytes_le rest
    have hpercent := Char.utf8Size_pos '%'
    have ha := Char.utf8Size_pos a
    simp only [List.length_cons, length_ownBytes_cons]
    omega
  | case3 a b rest hn ih =>
    have hstart : startsWithDigits (a :: b :: rest) = false := by simp [startsWithDigits, hn]
    rw [holdsByte, hstart, Bool.and_false, Bool.false_or] at h
    have hrest := ih h
    simp only [List.length_append, String.length_utf8EncodeChar, length_ownBytes_cons] at hrest ⊢
    omega
  | case4 c rest hc ih =>
    rw [holdsByte, percent_startsWithDigits_eq_false hc, Bool.false_or] at h
    have hrest := ih h
    simp only [List.length_append, String.length_utf8EncodeChar, length_ownBytes_cons]
    omega

/-- **A text has as many bytes as it stands for exactly if no percent sign in it stands for a byte.** -/
theorem length_bytes_eq_iff (cs : List Char) :
    (bytes cs).length = (ownBytes cs).length ↔ holdsByte cs = false := by
  cases h : holdsByte cs with
  | false => simp [bytes_eq_ownBytes h]
  | true => simpa using Nat.ne_of_lt (length_bytes_lt h)

theorem length_ownBytes_le (h : cs.Sublist rest) :
    (ownBytes cs).length ≤ (ownBytes rest).length := by
  induction h with
  | slnil => exact Nat.le_refl _
  | cons c _ ih =>
    rw [length_ownBytes_cons]
    omega
  | cons_cons c _ ih =>
    rw [length_ownBytes_cons, length_ownBytes_cons]
    omega

/-- A part with as many bytes as the whole is the whole. -/
theorem eq_of_sublist_of_length_le (h : cs.Sublist rest)
    (hlength : (ownBytes rest).length ≤ (ownBytes cs).length) : cs = rest := by
  induction h with
  | slnil => rfl
  | cons c hsub ih =>
    have hle := length_ownBytes_le hsub
    have hpos := Char.utf8Size_pos c
    rw [length_ownBytes_cons] at hlength
    omega
  | cons_cons c _ ih =>
    rw [length_ownBytes_cons, length_ownBytes_cons] at hlength
    rw [ih (by omega)]

/-- Encoding brings nothing into a text but percent signs and digits. -/
theorem mem_of_mem_encode (h : c ∈ encode mustEncode cs) (hpercent : c ≠ '%')
    (hdigit : Hexadecimal.valueOf? c = none) : c ∈ cs := by
  have hno {d : Nat} (hd : d < 16) : c ≠ Hexadecimal.upperDigit d := by
    rintro rfl
    rw [Hexadecimal.valueOf?_upperDigit hd] at hdigit
    cases hdigit
  obtain ⟨d, hd, hmem⟩ := List.mem_flatMap.mp h
  unfold encodeChar at hmem
  split at hmem
  next =>
    obtain ⟨b, -, hb⟩ := List.mem_flatMap.mp hmem
    have hsmall := b.toNat_lt
    have hhigh := hno (show b.toNat / 16 < 16 by omega)
    have hlow := hno (show b.toNat % 16 < 16 by omega)
    simp [byte, hpercent, hhigh, hlow] at hb
  next => exact List.mem_singleton.mp hmem ▸ hd

/-! ## Decoding -/

/-- A text decodes to another one exactly if it stands for the bytes of it. -/
theorem decode?_eq_some_iff {text : String} :
    decode? cs = some text ↔ bytes cs = ownBytes text.toList := by
  have hown : text.toByteArray = ⟨(ownBytes text.toList).toArray⟩ := by
    calc text.toByteArray = (String.ofList text.toList).toByteArray := by rw [String.ofList_toList]
      _ = (ownBytes text.toList).toByteArray := String.toByteArray_ofList
      _ = ⟨(ownBytes text.toList).toArray⟩ := ByteArray.ext List.data_toByteArray
  have harrays (xs ys : List UInt8) : (⟨xs.toArray⟩ : ByteArray) = ⟨ys.toArray⟩ ↔ xs = ys := by
    simp
  rw [decode?, String.fromUTF8?, ← harrays, ← hown]
  split
  next hvalid =>
    rw [Option.some_inj, ← String.toByteArray_inj]
    rfl
  next hinvalid =>
    refine iff_of_false nofun fun hsame => hinvalid ?_
    rw [hsame]
    exact text.isValidUTF8

end Percent

end Outreach
