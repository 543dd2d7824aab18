/-!
# Interop.Qualifier.Scale — how the length of a buffer is scaled.

A scale is a C operator with its right operand. It is applied to a length by writing it behind the
length.
-/

namespace Interop.Qualifier

/-- The C operators that scale a length. -/
inductive ScaleOp where
  | div
  | mul
  | shiftLeft
  | shiftRight
  deriving DecidableEq, Repr

/-- The operator in C. -/
def ScaleOp.symbol : ScaleOp → String
  | div => "/"
  | mul => "*"
  | shiftLeft => "<<"
  | shiftRight => ">>"

/-- An operator and its right operand, a C expression. -/
structure Scale where
  op : ScaleOp
  operand : String
  deriving DecidableEq, Repr

namespace Scale

/-- A shift to the left by a fixed number of bits. -/
def shiftLeft (bits : Nat) : Scale := ⟨.shiftLeft, toString bits⟩

/-- A shift to the right by a fixed number of bits. -/
def shiftRight (bits : Nat) : Scale := ⟨.shiftRight, toString bits⟩

/-- Operator and operand, with a space between them. -/
def text (s : Scale) : String := s.op.symbol ++ " " ++ s.operand

/-- The scaled length: the scale stands behind the length, which is written as it is. -/
def apply (s : Scale) (length : String) : String := length ++ " " ++ s.text

end Scale

end Interop.Qualifier
