import Interop.Proofs.CType.Derivation
import Interop.Proofs.CType.Registration
import Mathlib.Logic.Function.Iterate

/-!
# Interop.Proofs.CType.FixedPoints — types that share the fingerprint of their pointer.

The step from a fingerprint to that of the pointer rotates the word by seven bits, multiplies it by
an odd factor and mixes in a constant. Multiplication and mixing carry no bit down to a lower place,
and the rotation moves all bits seven places up, save the top seven, which it puts at the bottom. So
once the top seven bits are known, the lowest `n` bits of a word settle the lowest `n + 7` bits of
what the step makes of it. A word that the step leaves alone can then be computed from its top seven
bits, seven bits at a time; of the 128 words found like this, two are left alone indeed.

These two are fingerprints of types with ordinary names. In a table with such a type, there is no
room for its pointer.

## Main statements

* **`pointerTo_eq_self_iff`** — the two fingerprints that the step leaves alone.
* **`register_pointerAs_isOk_iff`** — the types that share the fingerprint of their pointer, and
  keep it out of a table.
* **`not_fingerprint_pointerTo_ne`** — two such types.
-/

namespace Interop

/-! ## §1 Words that the step leaves alone -/

namespace Fingerprint

/-- The top seven bits of a word. -/
def topBits (w : BitVec 64) : BitVec 7 := w.extractLsb' 57 7

/-- What the step makes of a word, if `t` stands for the top seven bits. -/
def stepWith (t : BitVec 7) (w : BitVec 64) : BitVec 64 :=
  (w.extractLsb' 0 57 ++ t) * pointerFactor.toBitVec ^^^ domain.toBitVec

theorem toBitVec_pointerTo (f : Fingerprint) :
    f.pointerTo.bits.toBitVec = stepWith (topBits f.bits.toBitVec) f.bits.toBitVec := by
  have hrotate : f.bits.toBitVec.rotateLeft 7
      = f.bits.toBitVec.extractLsb' 0 57 ++ topBits f.bits.toBitVec := by
    apply BitVec.eq_of_getLsbD_eq
    intro i hi
    rw [BitVec.getLsbD_rotateLeft, BitVec.getLsbD_append, cond_eq_ite, topBits,
      BitVec.getLsbD_extractLsb', BitVec.getLsbD_extractLsb']
    by_cases h : i < 7
    · simp [h]
    · simp [h, hi]
      omega
  show (Digest.rotl f.bits 7 * pointerFactor ^^^ domain).toBitVec = _
  rw [UInt64.toBitVec_xor, UInt64.toBitVec_mul, stepWith, ← hrotate]
  rfl

variable {t : BitVec 7} {v w : BitVec 64} {n : Nat}

/-- **Seven bits more.** Words that agree in their lowest `n` bits agree in seven more after the
step. -/
theorem setWidth_stepWith (hn : n + 7 ≤ 64) (h : v.setWidth n = w.setWidth n) :
    (stepWith t v).setWidth (n + 7) = (stepWith t w).setWidth (n + 7) := by
  have happend : (v.extractLsb' 0 57 ++ t).setWidth (n + 7)
      = (w.extractLsb' 0 57 ++ t).setWidth (n + 7) := by
    apply BitVec.eq_of_getLsbD_eq
    intro i hi
    rw [BitVec.getLsbD_setWidth, BitVec.getLsbD_setWidth, BitVec.getLsbD_append,
      BitVec.getLsbD_append]
    split
    · rfl
    · -- the bit comes from seven places below, where the words agree
      have hlow : i - 7 < n := by omega
      have hbit := congrArg (·.getLsbD (i - 7)) h
      simp only [BitVec.getLsbD_setWidth, hlow, decide_true, Bool.true_and] at hbit
      rw [BitVec.getLsbD_extractLsb', BitVec.getLsbD_extractLsb', Nat.zero_add, hbit]
  rw [stepWith, stepWith, BitVec.setWidth_xor, BitVec.setWidth_xor, BitVec.setWidth_mul _ _ hn,
    BitVec.setWidth_mul _ _ hn, happend]

/-- The word that ten steps lead to. Any other word to start from would do. -/
def candidate (t : BitVec 7) : BitVec 64 := (stepWith t)^[10] 0#64

/-- Every step towards the candidate settles seven more bits of a word that it leaves alone. -/
theorem setWidth_iterate_stepWith (hv : stepWith t v = v) {k : Nat} (hk : 7 * k ≤ 64) :
    v.setWidth (7 * k) = ((stepWith t)^[k] 0#64).setWidth (7 * k) := by
  induction k with
  | zero => exact BitVec.of_length_zero
  | succ k ih =>
    have hstep := setWidth_stepWith (t := t) hk (ih (by omega))
    rw [hv] at hstep
    rw [Function.iterate_succ_apply']
    exact hstep

/-- **Only the candidate is left.** A word that the step leaves alone is the candidate of its top
seven bits. -/
theorem eq_candidate (hv : stepWith t v = v) : v = candidate t := by
  -- nine steps settle 63 bits, of which the tenth needs 57
  have hnine := congrArg (BitVec.setWidth 57) (setWidth_iterate_stepWith hv (k := 9) (by decide))
  rw [BitVec.setWidth_setWidth_of_le _ (by decide), BitVec.setWidth_setWidth_of_le _ (by decide)]
    at hnine
  have hten := setWidth_stepWith (t := t) (by decide) hnine
  rw [hv, BitVec.setWidth_eq, BitVec.setWidth_eq] at hten
  rw [candidate, Function.iterate_succ_apply']
  exact hten

/-- The fingerprints that a type shares with its pointer. -/
def fixedPoints : List Fingerprint := [⟨0xd2cf0beb7ebe6b49⟩, ⟨0xec728c3def71cc42⟩]

/-- Of all candidates, two are left alone and have the top seven bits they were computed from. -/
theorem candidate_mem_fixedPoints (ht : topBits (candidate t) = t)
    (hstep : stepWith t (candidate t) = candidate t) : ⟨⟨candidate t⟩⟩ ∈ fixedPoints := by
  obtain ⟨t⟩ := t
  revert t
  decide +kernel

/-- **The fixed points of the step.** There are two of them. -/
theorem pointerTo_eq_self_iff (f : Fingerprint) : f.pointerTo = f ↔ f ∈ fixedPoints := by
  refine ⟨?_, ?_⟩
  · intro h
    obtain ⟨t, ht⟩ : ∃ t, topBits f.bits.toBitVec = t := ⟨_, rfl⟩
    have hstep : stepWith t f.bits.toBitVec = f.bits.toBitVec := by
      rw [← ht, ← toBitVec_pointerTo, h]
    have hword : f.bits.toBitVec = candidate t := eq_candidate hstep
    have hf : f = ⟨⟨candidate t⟩⟩ := by rw [← hword]
    rw [hword] at ht hstep
    rw [hf]
    exact candidate_mem_fixedPoints ht hstep
  · revert f
    decide +kernel

end Fingerprint

/-! ## §2 Types and tables -/

/-- A type and its pointer are never declared alike, so they can stand in one table unless they
share the fingerprint. -/
theorem CType.apart_pointerAs_iff {t : CType} {p : Pointee} :
    (t.pointerAs p).Apart t ↔ t.fingerprint ∉ Fingerprint.fixedPoints := by
  have hdeclared : (t.pointerAs p).declaration ≠ t.declaration := by
    rw [CType.declaration_pointerAs]
    exact CType.addMarker_ne t.declaration
  rw [CType.Apart, CType.fingerprint_pointerAs, and_iff_left hdeclared, Ne,
    Fingerprint.pointerTo_eq_self_iff]

namespace TypeTable

/-- **Types that keep their pointer out.** The step from a fingerprint to that of the pointer leaves
two fingerprints alone and no others, and a type shares its fingerprint with a pointer to it exactly
when it has one of the two. Take a table that has room for the type and for the pointer. Once the
type is in, there is still room for the pointer exactly when they do not share the fingerprint. -/
theorem register_pointerAs_isOk_iff (t : CType) (p : Pointee) :
    (∀ f : Fingerprint, f.pointerTo = f ↔ f ∈ Fingerprint.fixedPoints) ∧
    ((t.pointerAs p).fingerprint = t.fingerprint ↔ t.fingerprint ∈ Fingerprint.fixedPoints) ∧
    ∀ T : TypeTable, T.Reachable → (T.register t).isOk = true →
      (T.register (t.pointerAs p)).isOk = true →
      (((T.insert t).register (t.pointerAs p)).isOk = true ↔
        t.fingerprint ∉ Fingerprint.fixedPoints) := by
  refine ⟨Fingerprint.pointerTo_eq_self_iff, ?_, ?_⟩
  · rw [CType.fingerprint_pointerAs, Fingerprint.pointerTo_eq_self_iff]
  · intro T hT ht hp
    obtain ⟨us, -, rfl⟩ := exists_ofTypes_of_reachable hT
    have hothers := register_isOk_iff.mp hp
    -- the pointer is apart from all that was there, so only the new type can be in its way
    rw [(register_ofTypes (register_isOk_iff.mp ht)).2, register_isOk_iff, List.forall_mem_cons,
      and_iff_left hothers, CType.apart_pointerAs_iff]

/-- A struct that shares its fingerprint with its pointer, and the table of the standard types. -/
theorem register_pointerAs_isOk_iff_struct :
    let t : CType := .struct "alrqgudabldeatif"
    TypeTable.standard.Reachable ∧ (TypeTable.standard.register t).isOk = true ∧
      (TypeTable.standard.register (t.pointerAs .raw)).isOk = true ∧
      ((TypeTable.standard.insert t).register (t.pointerAs .raw)).isOk = false := by
  intro t
  have ht : (TypeTable.standard.register t).isOk = true := by decide +kernel
  have hp : (TypeTable.standard.register (t.pointerAs .raw)).isOk = true := by decide +kernel
  have hfixed : t.fingerprint ∈ Fingerprint.fixedPoints := by decide +kernel
  obtain ⟨-, -, hroom⟩ := register_pointerAs_isOk_iff t .raw
  refine ⟨.standard, ht, hp, ?_⟩
  rw [Bool.eq_false_iff]
  exact fun hok => (hroom TypeTable.standard .standard ht hp).mp hok hfixed

end TypeTable

/-- **Identified like their pointer.** Two structs, one for each of the two fingerprints, and what a
table with the first of them answers when it is asked for the pointer. -/
theorem CType.not_fingerprint_pointerTo_ne :
    (struct "alrqgudabldeatif").fingerprint = ⟨0xd2cf0beb7ebe6b49⟩ ∧
    (struct "alrqgudabldeatif").pointerTo.fingerprint = (struct "alrqgudabldeatif").fingerprint ∧
    (struct "adgzpipcapjjoosc").fingerprint = ⟨0xec728c3def71cc42⟩ ∧
    (struct "adgzpipcapjjoosc").pointerTo.fingerprint = (struct "adgzpipcapjjoosc").fingerprint ∧
    (TypeTable.empty.insert (struct "alrqgudabldeatif")).get?
        (struct "alrqgudabldeatif").pointerTo.fingerprint = some (struct "alrqgudabldeatif") ∧
    (TypeTable.empty.insert (struct "alrqgudabldeatif")).register
        (struct "alrqgudabldeatif").pointerTo = .error (.taken "alrqgudabldeatif *") := by
  decide +kernel

end Interop
