import Ensemble.Text.Digits

/-!
# Decimal digits

What is written in decimal digits reads as the number it was written for.
-/

namespace Ensemble.Text

theorem digitsValue_eq (cs : List Char) : digitsValue cs = Nat.ofDigitChars 10 cs 0 := by
  have same : ∀ n,
      cs.foldl (fun acc c => acc * 10 + (c.toNat - 48)) n = Nat.ofDigitChars 10 cs n := by
    intro n
    simp only [Nat.ofDigitChars, Nat.mul_comm 10]
    rfl
  exact same 0

@[simp] theorem digitsValue_toDigits (n : Nat) : digitsValue (Nat.toDigits 10 n) = n := by
  rw [digitsValue_eq, Nat.ofDigitChars_ten_toDigits]

theorem isDigit_of_mem_toDigits {n : Nat} {c : Char} (h : c ∈ Nat.toDigits 10 n) :
    c.isDigit = true := Nat.isDigit_of_mem_toDigits (by decide) (by decide) h

theorem toDigits_head {n : Nat} (h : 0 < n) :
    ∃ first rest, Nat.toDigits 10 n = first :: rest ∧ first ≠ '0' := by
  induction n using Nat.strongRecOn with
  | _ n ih =>
    by_cases small : n < 10
    · refine ⟨n.digitChar, [], Nat.toDigits_of_lt_base small, ?_⟩
      intro zero
      have := Nat.digitChar_eq_zero.mp zero
      omega
    · obtain ⟨first, rest, digits, nonzero⟩ := ih (n / 10) (by omega) (by omega)
      refine ⟨first, rest ++ [(n % 10).digitChar], ?_, nonzero⟩
      rw [Nat.toDigits_of_base_le (by decide) (by omega), digits]
      rfl

end Ensemble.Text
