import Mathlib.Data.List.Induction
import Mathlib.Tactic.Ring
import Outreach.Number.Numeral

/-!
# How long a numeral is, and what it begins with

The numeral of a number has as many digits as powers of ten fit below it, and begins with a zero for
zero alone. Digits that stand in front of others count for as much more as there are digits behind
them, so that zeros in front count for nothing and zeros behind for a power of ten. An integer is told
by its numeral (`Numeral.intText_injective`).
-/

namespace Outreach.Numeral

theorem render_of_lt {n : Nat} (h : n < 10) : render n = [digit n] := by
  rw [render, if_pos h]

theorem render_of_le {n : Nat} (h : 10 ≤ n) : render n = render (n / 10) ++ [digit (n % 10)] := by
  rw [render, if_neg (Nat.not_lt.mpr h)]

/-- A numeral with a digit behind it. -/
theorem render_shiftIn {n d : Nat} (hn : 0 < n) (hd : d < 10) :
    render (10 * n + d) = render n ++ [digit d] := by
  rw [render_of_le (by omega), show (10 * n + d) / 10 = n by omega,
    show (10 * n + d) % 10 = d by omega]

theorem length_render_pos (n : Nat) : 0 < (render n).length :=
  List.length_pos_iff.mpr (render_ne_nil n)

theorem length_render_mul_ten {n : Nat} (h : 0 < n) :
    (render (10 * n)).length = (render n).length + 1 := by
  have hrender : render (10 * n + 0) = render n ++ [digit 0] := render_shiftIn h (by decide)
  simpa using congrArg List.length hrender

/-- A number lies below the power of ten that its numeral is long. -/
theorem lt_pow_length_render (n : Nat) : n < 10 ^ (render n).length := by
  induction n using Nat.strongRecOn with
  | ind n ih =>
    by_cases h : n < 10
    · simpa [render_of_lt h] using h
    · have hsmaller : n / 10 < 10 ^ (render (n / 10)).length := ih (n / 10) (by omega)
      rw [render_of_le (Nat.not_lt.mp h), List.length_append, List.length_singleton, Nat.pow_succ]
      omega

/-- A number does not lie below the power of ten with one digit less. -/
theorem pow_length_render_le {n : Nat} (h : 0 < n) : 10 ^ ((render n).length - 1) ≤ n := by
  induction n using Nat.strongRecOn with
  | ind n ih =>
    by_cases hsmall : n < 10
    · rw [render_of_lt hsmall]
      exact h
    · have hsmaller : 10 ^ ((render (n / 10)).length - 1) ≤ n / 10 :=
        ih (n / 10) (by omega) (by omega)
      have hlength := length_render_pos (n / 10)
      have hpow : 10 ^ (render (n / 10)).length = 10 ^ ((render (n / 10)).length - 1) * 10 := by
        rw [← Nat.pow_succ, Nat.succ_eq_add_one, Nat.sub_add_cancel hlength]
      rw [render_of_le (Nat.not_lt.mp hsmall), List.length_append, List.length_singleton,
        Nat.add_sub_cancel, hpow]
      omega

theorem length_render_le {n k : Nat} (h : n < 10 ^ k) (hk : 0 < k) : (render n).length ≤ k := by
  by_contra hlong
  rcases Nat.eq_zero_or_pos n with rfl | hn
  · rw [render_of_lt (by decide), List.length_singleton] at hlong
    omega
  · have hpow : 10 ^ k ≤ 10 ^ ((render n).length - 1) :=
      Nat.pow_le_pow_right (by decide) (by omega)
    exact absurd (Nat.le_trans hpow (pow_length_render_le hn)) (Nat.not_le.mpr h)

theorem le_length_render {n k : Nat} (h : 10 ^ k ≤ n) : k < (render n).length := by
  by_contra hshort
  have hpow : 10 ^ (render n).length ≤ 10 ^ k :=
    Nat.pow_le_pow_right (by decide) (Nat.not_lt.mp hshort)
  exact absurd (Nat.lt_of_lt_of_le (lt_pow_length_render n) (Nat.le_trans hpow h))
    (Nat.lt_irrefl n)

/-- No numeral but that of zero begins with a zero. -/
theorem head?_render_ne {n : Nat} (h : 0 < n) : (render n).head? ≠ some '0' := by
  induction n using Nat.strongRecOn with
  | ind n ih =>
    by_cases hsmall : n < 10
    · rw [render_of_lt hsmall, List.head?_cons]
      intro hzero
      have hvalue : valueOf (digit n) = valueOf '0' := congrArg valueOf (Option.some.inj hzero)
      rw [valueOf_digit hsmall, show valueOf '0' = 0 from rfl] at hvalue
      omega
    · have hhead : (render (n / 10)).head? ≠ some '0' := ih (n / 10) (by omega) (by omega)
      obtain ⟨c, rest, hcons⟩ := List.exists_cons_of_ne_nil (render_ne_nil (n / 10))
      rw [render_of_le (Nat.not_lt.mp hsmall), hcons]
      rwa [hcons] at hhead

theorem isDigit_zero : isDigit '0' = true := rfl

/-- Digits in front of others count for a power of ten more. -/
theorem read_append (front back : List Char) :
    read (front ++ back) = read front * 10 ^ back.length + read back := by
  induction back using List.reverseRecOn with
  | nil => simp [read]
  | append_singleton back c ih =>
    rw [← List.append_assoc, read_append_digit, ih, read_append_digit, List.length_append,
      List.length_singleton, Nat.pow_succ]
    ring

theorem read_replicate_zero (count : Nat) : read (List.replicate count '0') = 0 := by
  induction count with
  | zero => rfl
  | succ count ih => rw [List.replicate_succ', read_append_digit, ih]; rfl

/-- Zeros in front count for nothing. -/
theorem read_zeros_append (count : Nat) (digits : List Char) :
    read (List.replicate count '0' ++ digits) = read digits := by
  rw [read_append, read_replicate_zero, Nat.zero_mul, Nat.zero_add]

/-- Zeros behind count for a power of ten. -/
theorem read_append_zeros (digits : List Char) (count : Nat) :
    read (digits ++ List.replicate count '0') = read digits * 10 ^ count := by
  rw [read_append, read_replicate_zero, List.length_replicate, Nat.add_zero]

theorem read_padded (width n : Nat) : read (padded width n) = n := by
  rw [padded, read_zeros_append, read_render]

theorem all_isDigit_padded (width n : Nat) : (padded width n).all isDigit = true := by
  simp [padded, all_isDigit_render, isDigit_zero]

/-- A numeral that has room in a width fills it. -/
theorem length_padded {width n : Nat} (h : n < 10 ^ width) (hwidth : 0 < width) :
    (padded width n).length = width := by
  have hlength : (render n).length ≤ width := length_render_le h hwidth
  rw [padded, List.length_append, List.length_replicate]
  omega

/-! ## Numerals of integers -/

theorem toList_intText (i : Int) :
    (intText i).toList = if i < 0 then '-' :: render i.natAbs else render i.natAbs := by
  unfold intText text
  split
  · simp
  · simp

theorem render_injective {m n : Nat} (h : render m = render n) : m = n := by
  rw [← read_render m, h, read_render]

/-- No numeral begins with a minus. -/
theorem render_ne_minus (m n : Nat) : render m ≠ '-' :: render n := by
  intro h
  have hdigits := all_isDigit_render m
  rw [h, List.all_cons] at hdigits
  cases hdigits

/-- Integers with the same numeral are the same. -/
theorem intText_injective {i j : Int} (h : intText i = intText j) : i = j := by
  have hchars := congrArg String.toList h
  rw [toList_intText, toList_intText] at hchars
  split at hchars <;> split at hchars
  next hi hj =>
    have hmagnitude := render_injective (List.cons.inj hchars).2
    omega
  next => exact absurd hchars.symm (render_ne_minus _ _)
  next => exact absurd hchars (render_ne_minus _ _)
  next hi hj =>
    have hmagnitude := render_injective hchars
    omega

end Outreach.Numeral
