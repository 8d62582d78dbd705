import Mathlib.Data.List.Infix
import LiveTokens.Text

/-!
# Decimal notation

The plainest way to write a number down is `Nat.toDigits 10`.  It gives digits and
nothing else, and a zero at its front only for the number zero.
-/

namespace LiveTokens

/-- The values of decimal digits. -/
def digitValues
    (digits : Text) : List Nat :=
  digits.map fun c => c.toNat - '0'.toNat

variable {number : Nat}
variable {c : Char}

theorem ofDigitChars_eq_foldl
    (digits : Text) :
    Nat.ofDigitChars 10 digits 0 =
      (digitValues digits).foldl (fun number digit => number * 10 + digit) 0 := by
  unfold digitValues Nat.ofDigitChars
  simp only [List.foldl_map, Nat.mul_comm]

/-- No prefix of a numeral is worth more than the whole. -/
theorem le_ofDigitChars
    (digits : Text)
    (number : Nat) :
    number ≤ Nat.ofDigitChars 10 digits number := by
  rw [Nat.ofDigitChars_eq_ofDigitChars_zero]
  have hpos : 0 < 10 ^ digits.length := Nat.pow_pos (by decide)
  exact (Nat.le_mul_of_pos_left number hpos).trans (Nat.le_add_right _ _)

theorem isDigit_of_mem_toDigits
    (h : c ∈ Nat.toDigits 10 number) :
    c.isDigit = true :=
  Nat.isDigit_of_mem_toDigits (by decide) (by decide) h

theorem not_mem_toDigits
    (h : c.isDigit = false) :
    c ∉ Nat.toDigits 10 number := by
  intro hmem
  rw [isDigit_of_mem_toDigits hmem] at h
  cases h

theorem toDigits_ne
    (h : c.isDigit = false)
    (front behind : Text) :
    Nat.toDigits 10 number ≠ front ++ c :: behind := by
  intro hsame
  exact not_mem_toDigits h (hsame ▸ List.mem_append_right _ List.mem_cons_self)

/-- Only the numeral of zero starts with a zero.  All digits but the last are the numeral of a
smaller number, which would be zero. -/
theorem eq_nil_of_digitValues_toDigits
    {values : List Nat}
    (h : digitValues (Nat.toDigits 10 number) = 0 :: values) :
    values = [] := by
  induction number using Nat.strong_induction_on generalizing values with
  | _ number ih =>
      rcases Nat.lt_or_ge number 10 with hlt | hge
      · rw [Nat.toDigits_of_lt_base hlt] at h
        exact (List.cons.inj h).2.symm
      · rw [Nat.toDigits_of_base_le (by decide) hge] at h
        obtain ⟨c, front, hfront⟩ := List.exists_cons_of_ne_nil
          (Nat.toDigits_ne_nil (n := number / 10) (b := 10))
        rw [hfront, List.cons_append, digitValues, List.map_cons] at h
        have hzero := (List.cons.inj h).1
        have hvalues : digitValues (Nat.toDigits 10 (number / 10)) = 0 :: digitValues front := by
          rw [hfront, digitValues, List.map_cons, hzero]
          rfl
        rw [ih (number / 10) (Nat.div_lt_self (by omega) (by decide)) hvalues] at hvalues
        have hvalue : number / 10 = 0 := by
          rw [← Nat.ofDigitChars_ten_toDigits (n := number / 10), ofDigitChars_eq_foldl, hvalues]
          rfl
        omega

end LiveTokens
