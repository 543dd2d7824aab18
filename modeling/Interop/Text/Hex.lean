/-!
# Interop.Text.Hex — numbers in lowercase hexadecimal of a fixed width.

`fixed w n` writes the last `w` base-sixteen digits of `n`, leading zeros included, so a
64-bit word always takes sixteen characters.
-/

namespace Interop.Text.Hex

/-! ## Digits -/

/-- The sixteen digits in the order of their values. -/
def digits : List Char :=
  ['0', '1', '2', '3', '4', '5', '6', '7', '8', '9', 'a', 'b', 'c', 'd', 'e', 'f']

/-- The digit of `n` modulo sixteen. -/
def digit (n : Nat) : Char := digits.getD (n % 16) '0'

/-- The last `w` digits of `n`, most significant first. -/
def fixed : Nat → Nat → List Char
  | 0, _ => []
  | w + 1, n => fixed w (n / 16) ++ [digit n]

end Interop.Text.Hex
