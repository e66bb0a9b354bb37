import Mathlib.Algebra.GroupWithZero.Nat
import Outreach.Execution.Basic
import Outreach.Proofs.Text.Split

/-!
# What is written of an identifier

An identifier of 128 bits is read back from its written form (`Identifier.read_render`). So
different identifiers are written differently, and executions with different identifiers are stored
under different keys (`Execution.keyOf_injective`).
-/

namespace Outreach

/-! ## Hexadecimal digits -/

namespace Hexadecimal

theorem valueOf?_digit {d : Nat} (h : d < 16) : valueOf? (digit d) = some d := by
  decide +revert

theorem read?_append_digit (cs : List Char) {d : Nat} (h : d < 16) :
    read? (cs ++ [digit d]) = (read? cs).map (16 * · + d) := by
  rw [read?, List.foldl_append, List.foldl_cons, List.foldl_nil, valueOf?_digit h]
  exact (Option.map_eq_bind ..).symm

theorem length_fixed (width n : Nat) : (fixed width n).length = width := by
  induction width generalizing n with
  | zero => rfl
  | succ width ih => simp [fixed, ih]

/-- The last digits of a number read as what is left of it. -/
theorem read?_fixed (width n : Nat) : read? (fixed width n) = some (n % 16 ^ width) := by
  induction width generalizing n with
  | zero => simp [fixed, read?, Nat.mod_one]
  | succ width ih =>
    rw [fixed, read?_append_digit _ (Nat.mod_lt n (by decide)), ih, Option.map_some]
    congr 1
    rw [Nat.pow_succ', Nat.mod_mul, Nat.add_comm]

theorem isSome_valueOf?_of_mem {c : Char} {width n : Nat} (h : c ∈ fixed width n) :
    (valueOf? c).isSome = true := by
  induction width generalizing n with
  | zero => cases h
  | succ width ih =>
    rcases List.mem_append.mp h with h | h
    · exact ih h
    · rw [List.mem_singleton.mp h, valueOf?_digit (Nat.mod_lt n (by decide))]
      rfl

end Hexadecimal

/-! ## Groups of digits -/

namespace Identifier

theorem map_length_cut {lengths : List Nat} {cs : List Char} (h : lengths.sum ≤ cs.length) :
    (cut lengths cs).map List.length = lengths := by
  induction lengths generalizing cs with
  | nil => rfl
  | cons n rest ih =>
    rw [List.sum_cons] at h
    have hrest : rest.sum ≤ (cs.drop n).length := by
      rw [List.length_drop]
      omega
    rw [cut, List.map_cons, ih hrest, List.length_take_of_le (by omega)]

theorem flatten_cut (lengths : List Nat) (cs : List Char) :
    (cut lengths cs).flatten = cs.take lengths.sum := by
  induction lengths generalizing cs with
  | nil => simp [cut]
  | cons n rest ih => rw [cut, List.flatten_cons, ih, List.sum_cons, List.take_add]

/-- What begins with a digit is not wrapped in anything. -/
theorem unwrap_of_isSome {c : Char} (h : (Hexadecimal.valueOf? c).isSome = true) (cs : List Char) :
    unwrap (c :: cs) = (c :: cs, 0) := by
  have hheading : c ≠ 'u' := by
    rintro rfl
    cases h
  have hbrace : c ≠ '\x7b' := by
    rintro rfl
    cases h
  simp [unwrap, Text.behind?, Ne.symm hheading, hbrace]

/-- **An identifier is read back from its written form.** -/
theorem read_render {id : Identifier} (h : id.value < 2 ^ 128) : read id.render = .ok id := by
  let digits := Hexadecimal.fixed 32 id.value
  have hdigits : ∀ c ∈ digits, (Hexadecimal.valueOf? c).isSome = true :=
    fun c hc => Hexadecimal.isSome_valueOf?_of_mem hc
  have hlength : digits.length = groups.sum := Hexadecimal.length_fixed 32 id.value
  have hflatten : (cut groups digits).flatten = digits := by
    rw [flatten_cut, ← hlength, List.take_length]
  have hpieces : ∀ piece ∈ cut groups digits, '-' ∉ piece := by
    intro piece hpiece hdash
    have hmem : '-' ∈ digits := hflatten ▸ List.mem_flatten_of_mem hpiece hdash
    cases hdigits '-' hmem
  obtain ⟨c, rest, hcs⟩ : ∃ c rest, digits = c :: rest :=
    List.exists_cons_of_length_eq_add_one hlength
  have htext : id.render.toList = List.intercalate ['-'] (cut groups digits) :=
    String.toList_ofList
  have hunwrap : unwrap id.render.toList = (id.render.toList, 0) := by
    rw [htext, hcs]
    exact unwrap_of_isSome (hdigits c (hcs ▸ List.mem_cons_self)) _
  have hsplit : Text.split '-' id.render.toList = cut groups digits := by
    rw [htext]
    exact Text.split_intercalate hpieces (by simp [cut, groups])
  have hshape : (cut groups digits).map List.length = groups :=
    map_length_cut (Nat.le_of_eq hlength.symm)
  have hvalue : Hexadecimal.read? digits = some id.value := by
    rw [Hexadecimal.read?_fixed]
    exact congrArg some (Nat.mod_eq_of_lt (by simpa using h))
  unfold read
  dsimp only
  rw [hunwrap]
  dsimp only
  rw [hsplit, if_pos (.inl hshape), hflatten, hvalue]

theorem render_injective {id id' : Identifier} (h : id.value < 2 ^ 128) (h' : id'.value < 2 ^ 128)
    (hsame : id.render = id'.render) : id = id' := by
  have hread := read_render h
  rw [hsame, read_render h'] at hread
  exact (Except.ok.inj hread).symm

end Identifier

/-- Executions with different identifiers are stored under different keys. -/
theorem Execution.keyOf_injective {id id' : Identifier} (h : id.value < 2 ^ 128)
    (h' : id'.value < 2 ^ 128) (hsame : keyOf id = keyOf id') : id = id' := by
  have htexts := congrArg String.toList hsame
  rw [keyOf, keyOf, String.toList_append, String.toList_append] at htexts
  exact Identifier.render_injective h h' (String.toList_inj.mp (List.append_cancel_left htexts))

end Outreach
