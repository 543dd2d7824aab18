import Interop.Proofs.Expression.Reading
import Interop.Qualifier.Scale

/-!
# Interop.Proofs.Expression.Scaling — what a scaled length means.

A scale is applied to a length by writing its operator and its operand behind the length. The text
is meant to say that the whole length is scaled by the whole operand. Nothing is put in parentheses
for it, so what the text says is a matter of how the operators bind: its operator is the outermost
one only if the length binds at least as tightly, and the operand more tightly. Words, calls, signs
and parentheses always do. A sum that is multiplied does not: of `a + b`, only `b` is multiplied.

## Main statements

* **`read_apply_iff`** — what a scaled length is read as, and when it is the length that is scaled.
* **`not_read_apply_sum`** — a sum that is not scaled as a whole.
-/

namespace Interop

open CExpr (Operator Token lex lexFrom read)

/-- The operator of C that a scale applies. -/
def Qualifier.ScaleOp.operator : Qualifier.ScaleOp → Operator
  | div => .div
  | mul => .mul
  | shiftLeft => .shiftLeft
  | shiftRight => .shiftRight

namespace Qualifier.Scale

variable {s : Scale} {length : String} {e o : CExpr}

/-- The spaces keep the three parts of the text apart. -/
theorem lex_apply {ts us : List Token} (hlength : lex length = some ts)
    (hoperand : lex s.operand = some us) :
    lex (s.apply length) = some (ts ++ .operator s.op.operator :: us) := by
  have hsymbol : lexFrom .gap s.op.symbol.toList = some [.operator s.op.operator] := by
    cases s.op <;> decide
  have htext : (s.apply length).toList
      = length.toList ++ ' ' :: (s.op.symbol.toList ++ ' ' :: s.operand.toList) := by
    simp [apply, text, String.toList_append]
  rw [lex] at hlength hoperand ⊢
  rw [htext, CExpr.lexFrom_append_space hlength, CExpr.lexFrom_append_space hsymbol, hoperand]
  rfl

/-- **What a scaled length is read as:** the operand is put behind the length. -/
theorem read_apply (he : read length = some e) (ho : read s.operand = some o) :
    read (s.apply length) = some (e.join s.op.operator o) := by
  obtain ⟨hce, hlength⟩ := CExpr.read_eq_some_iff.mp he
  obtain ⟨hco, hoperand⟩ := CExpr.read_eq_some_iff.mp ho
  refine CExpr.read_eq_some_iff.mpr ⟨CExpr.canonical_join hce hco, ?_⟩
  rw [lex_apply hlength hoperand, CExpr.tokens_join]

/-- **What a scaled length is read as**, and when it is the length that is scaled. The operator
comes to the root, between the length and the operand, exactly when the length binds at least as
tightly as the operator and the operand more tightly. Of two scales one after the other, the second
scales what the first has scaled exactly when, beyond that, its own operator binds no more tightly
than the first one's and less tightly than its operand. -/
theorem read_apply_iff (he : read length = some e) (ho : read s.operand = some o) :
    read (s.apply length) = some (e.join s.op.operator o) ∧
    (read (s.apply length) = some (.binary s.op.operator e o) ↔
      s.op.operator.level ≤ e.level ∧ s.op.operator.level < o.level) ∧
    ∀ (s' : Scale) (o' : CExpr), read s'.operand = some o' →
      (read (s'.apply (s.apply length))
          = some (.binary s'.op.operator (.binary s.op.operator e o) o') ↔
        (s.op.operator.level ≤ e.level ∧ s.op.operator.level < o.level) ∧
          s'.op.operator.level ≤ s.op.operator.level ∧ s'.op.operator.level < o'.level) := by
  have hce : e.Canonical := (CExpr.read_eq_some_iff.mp he).1
  have hco : o.Canonical := (CExpr.read_eq_some_iff.mp ho).1
  have hroot : read (s.apply length) = some (.binary s.op.operator e o) ↔
      s.op.operator.level ≤ e.level ∧ s.op.operator.level < o.level := by
    rw [read_apply he ho, Option.some_inj]
    exact CExpr.join_eq_binary_iff hce hco
  refine ⟨read_apply he ho, hroot, fun s' o' ho' => ⟨?_, ?_⟩⟩
  · intro h
    -- what is read is canonical, and so is its left operand
    obtain ⟨⟨-, -, hlength, hoperand⟩, -, hbefore, hoperand'⟩ := (CExpr.read_eq_some_iff.mp h).1
    exact ⟨⟨hlength, hoperand⟩, hbefore, hoperand'⟩
  · rintro ⟨hinner, houter⟩
    rw [read_apply (hroot.mpr hinner) ho', Option.some_inj]
    have hscaled : (CExpr.binary s.op.operator e o).Canonical := ⟨hce, hco, hinner⟩
    have hco' : o'.Canonical := (CExpr.read_eq_some_iff.mp ho').1
    exact (CExpr.join_eq_binary_iff hscaled hco').mpr houter

/-- What remains of the data, in bytes and then in words of four bytes: first the call is
multiplied, then the product is shifted. -/
theorem read_apply_iff_remaining :
    read "remaining(data)" = some (.call (.word "remaining") (.word "data")) ∧
    read "stride" = some (.word "stride") ∧ read "2" = some (.word "2") ∧
    read (apply ⟨.shiftRight, "2"⟩ (apply ⟨.mul, "stride"⟩ "remaining(data)"))
      = some (.binary .shiftRight
          (.binary .mul (.call (.word "remaining") (.word "data")) (.word "stride"))
          (.word "2")) := by
  have hlength : read "remaining(data)" = some (.call (.word "remaining") (.word "data")) := by
    decide +kernel
  have hstride : read "stride" = some (.word "stride") := by decide +kernel
  have htwo : read "2" = some (.word "2") := by decide +kernel
  obtain ⟨-, -, htwice⟩ := read_apply_iff (s := ⟨.mul, "stride"⟩) hlength hstride
  exact ⟨hlength, hstride, htwo, (htwice ⟨.shiftRight, "2"⟩ _ htwo).mpr (by decide)⟩

/-- Not every length is scaled as a whole: of the sum `a + b`, four times `b` is taken, and nothing
else is read in the text. -/
theorem not_read_apply_sum :
    ¬ ∀ (s : Scale) (length : String) (e o : CExpr),
      read length = some e → read s.operand = some o →
        read (s.apply length) = some (.binary s.op.operator e o) := by
  intro h
  have hsum := h ⟨.mul, "4"⟩ "a + b" (.binary .add (.word "a") (.word "b")) (.word "4")
    (by decide +kernel) (by decide +kernel)
  have hread : read (apply ⟨.mul, "4"⟩ "a + b")
      = some (.binary .add (.word "a") (.binary .mul (.word "b") (.word "4"))) := by
    decide +kernel
  rw [hread] at hsum
  exact absurd hsum (by decide)

/-- An operand that is a sum is torn apart as well, and so is a shift that is multiplied. -/
example :
    read (apply ⟨.mul, "c + d"⟩ "n")
      = some (.binary .add (.binary .mul (.word "n") (.word "c")) (.word "d")) ∧
    read (apply ⟨.mul, "3"⟩ (apply (shiftLeft 2) "n"))
      = some (.binary .shiftLeft (.word "n") (.binary .mul (.word "2") (.word "3"))) := by
  decide +kernel

end Qualifier.Scale

end Interop
