import Outreach.Proofs.Variables.Sameness

/-!
# Guards on one field

Whether two operands are the same is asked without converting them, which of them is the greater is
asked of the numbers that they count as. The two questions fit together: operands that are the same
count as one number or as none (`Coercion.operandNumber_of_same`), so neither is less than the
other. Guards that stand on one field and one operand therefore never contradict each other,
whatever the operands are (`Condition.guards_consistent`).
-/

namespace Outreach

namespace Double

variable {a b : Double}

/-- Doubles that are equal stand at one place of the line, so neither comes before the other. -/
theorem less_of_equals (h : a.equals b = true) : a.less b = false ∧ b.less a = false := by
  unfold equals at h
  split at h
  next x y hx hy =>
    obtain rfl : x = y := eq_of_beq h
    simp [less, hx, hy]
  next => cases h

/-- Of two doubles at most one comes before the other. -/
theorem less_asymm (h : a.less b = true) : b.less a = false := by
  unfold less at h
  split at h
  next x y hx hy =>
    have hlt : x < y := of_decide_eq_true h
    simp [less, hx, hy, Int.le_of_lt hlt]
  next => cases h

theorem less_irrefl (a : Double) : a.less a = false := by
  cases h : a.less a with
  | false => rfl
  | true => exact h.symm.trans (less_asymm h)

end Double

namespace Coercion

variable {left right : Option Json}

/-- Operands that are the same count as one and the same number, or as two that are equal. -/
theorem operandNumber_of_same (h : same left right = true) :
    operandNumber left = operandNumber right ∨
      (operandNumber left).equals (operandNumber right) = true := by
  rcases eq_or_numbers_of_same h with rfl | ⟨m, n, rfl, rfl, hequal⟩
  · exact .inl rfl
  · exact .inr hequal

theorem less_of_same (h : same left right = true) :
    (operandNumber left).less (operandNumber right) = false ∧
      (operandNumber right).less (operandNumber left) = false := by
  rcases operandNumber_of_same h with hnumber | hequal
  · rw [hnumber]
    exact ⟨Double.less_irrefl _, Double.less_irrefl _⟩
  · exact Double.less_of_equals hequal

end Coercion

/-- An operator that has a meaning finds what it asks for or does not. -/
theorem Operator.exists_holds {operator : Operator} (h : operator ∈ known)
    (left right : Option Json) : ∃ holds, operator.holds left right = .ok holds := by
  cases operator with
  | unknown label => simp [known] at h
  | _ => exact ⟨_, rfl⟩

namespace Condition

/-- What guards say of one field and one operand, without contradicting each other. -/
structure Consistent (verdict : Operator → Except ConditionFault Bool) : Prop where
  /-- Every operator that has a meaning gets an answer. -/
  answered : ∀ operator ∈ Operator.known, ∃ holds, verdict operator = .ok holds
  /-- The operand is either found equal or found not equal. -/
  decided : (verdict .equals = .ok true ∧ verdict .notEquals = .ok false) ∨
    (verdict .equals = .ok false ∧ verdict .notEquals = .ok true)
  /-- Of equal, greater and less at most one holds. -/
  exclusive : [Operator.equals, .greaterThan, .lessThan].Pairwise fun first second =>
    ¬ (verdict first = .ok true ∧ verdict second = .ok true)

theorem evaluate_of_not_blank {c : Condition} (h : Text.isBlankText c.field = false)
    (vars : Variables) : c.evaluate vars = c.operator.holds (vars.resolve? c.field) c.value := by
  rw [evaluate, h, if_neg Bool.false_ne_true]

theorem consistent_holds (left right : Option Json) :
    Consistent fun operator => operator.holds left right where
  answered _ h := Operator.exists_holds h left right
  decided := by
    simp only [Operator.holds, Except.ok.injEq]
    cases Coercion.same left right with
    | true => exact .inl ⟨rfl, rfl⟩
    | false => exact .inr ⟨rfl, rfl⟩
  exclusive := by
    have hgreater : ¬ (Coercion.same left right = true ∧
        (Coercion.operandNumber right).less (Coercion.operandNumber left) = true) := by
      rintro ⟨hsame, hless⟩
      exact absurd ((Coercion.less_of_same hsame).2.symm.trans hless) Bool.false_ne_true
    have hless : ¬ (Coercion.same left right = true ∧
        (Coercion.operandNumber left).less (Coercion.operandNumber right) = true) := by
      rintro ⟨hsame, hless⟩
      exact absurd ((Coercion.less_of_same hsame).1.symm.trans hless) Bool.false_ne_true
    have hboth : ¬ ((Coercion.operandNumber right).less (Coercion.operandNumber left) = true ∧
        (Coercion.operandNumber left).less (Coercion.operandNumber right) = true) := by
      rintro ⟨hgreater, hless⟩
      exact absurd ((Double.less_asymm hgreater).symm.trans hless) Bool.false_ne_true
    simp only [Operator.holds, Except.ok.injEq, List.pairwise_cons, List.mem_cons,
      List.not_mem_nil, or_false, forall_eq_or_imp, forall_eq]
    exact ⟨⟨hgreater, hless⟩, hboth, nofun, .nil⟩

/-- **Guards on one field and one operand are consistent**: on a field that is not blank, every
operator that has a meaning gets an answer, exactly one of equal and not equal holds, and at most
one of equal, greater and less does, whatever the field leads to and whatever the operand is. -/
theorem guards_consistent {field : String} (hfield : Text.isBlankText field = false)
    (value : Option Json) (vars : Variables) :
    Consistent fun operator => evaluate ⟨field, operator, value⟩ vars := by
  have hverdict : (fun operator => evaluate ⟨field, operator, value⟩ vars) =
      fun operator : Operator => operator.holds (vars.resolve? field) value :=
    funext fun _ => evaluate_of_not_blank hfield vars
  rw [hverdict]
  exact consistent_holds _ _

/-- A list in a list and a text, which count as the same number and are not the same: not equal is
all that holds of the two. -/
theorem nested_sixteen_consistent :
    let verdict (operator : Operator) := evaluate ⟨"a", operator, some (.string "0x10")⟩
      [("a", .array [.array [.number (.int 16)]])]
    Text.isBlankText "a" = false ∧ Consistent verdict ∧
      verdict .notEquals = .ok true ∧ verdict .greaterThan = .ok false ∧
      verdict .lessThan = .ok false :=
  ⟨by decide, guards_consistent (by decide) _ _, by decide +kernel, by decide +kernel,
    by decide +kernel⟩

end Condition

end Outreach
