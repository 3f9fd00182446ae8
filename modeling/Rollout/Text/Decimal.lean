-- Whole numbers in decimal digits: what a row of digits stands for and the digits of a number.
-- The digits of a number stand for that number.

namespace Rollout.Text

/-- Tells whether a text is a non-empty row of the digits 0 to 9. -/
def isNumeral (cs : List Char) : Bool :=
  !cs.isEmpty && cs.all Char.isDigit

/-- The number that a row of digits stands for. -/
def numeralValue (cs : List Char) : Nat :=
  Nat.ofDigitChars 10 cs 0

/-- The decimal digits of a number, without leading zeros. -/
def decimal (n : Nat) : List Char :=
  Nat.toDigits 10 n

def decimalText (n : Nat) : String :=
  String.ofList (decimal n)

@[simp] theorem numeralValue_decimal (n : Nat) : numeralValue (decimal n) = n :=
  Nat.ofDigitChars_toDigits (by decide) (by decide)

theorem isDigit_of_mem_decimal {n : Nat} {c : Char} (h : c ∈ decimal n) : c.isDigit :=
  Nat.isDigit_of_mem_toDigits (by decide) (by decide) h

theorem decimal_ne_nil (n : Nat) : decimal n ≠ [] := by
  intro h
  have := congrArg numeralValue h
  rw [numeralValue_decimal] at this
  subst this
  exact absurd h (by decide)

theorem isNumeral_decimal (n : Nat) : isNumeral (decimal n) := by
  simp only [isNumeral, Bool.and_eq_true, List.all_eq_true]
  exact ⟨by simp [decimal_ne_nil], fun c hc => isDigit_of_mem_decimal hc⟩

end Rollout.Text
