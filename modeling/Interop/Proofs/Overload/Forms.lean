import Interop.Proofs.Overload.References

/-!
# Interop.Proofs.Overload.Forms — the references of a buffer in one form.

A buffer that is given a form keeps its name, and so does every other parameter. The lengths that
are tied to it are shifted, but stay tied to the same names. What goes is how the buffer itself was
passed, and with it the names of the parameters that it took lengths from. So an overload for one
form mentions nothing new, and whatever it mentions is looked for among the same names.

## Main statements

* **`referencesResolve_iff_withForm`** — the references of a signature are those of the overload and
  the lengths that the buffer takes from other parameters.
* **`freeze_multiType`** — an overload for one form is accepted wherever its signature is.
-/

namespace Interop

open Qualifier (Kind KindSet)

/-! ## §1 What a form leaves of the mentions of a parameter -/

namespace Parameter

variable {p q : Parameter} {form : Pointee} {t : String}

/-- A shifted length is tied to the same names. -/
theorem sizeOf_fitLength {buffer : String} : (p.fitLength buffer form).SizeOf t ↔ p.SizeOf t := by
  unfold fitLength
  split
  · rename_i shift hshift
    show (∃ a, (p.qualifiers.modify .autoSize _).get? .autoSize = some a ∧ t ∈ a.names) ↔ _
    rw [QualifierSet.get?_modify_self, SizeOf]
    cases p.qualifiers.get? .autoSize with
    | none => simp
    | some a =>
      simp only [Option.map_some, Option.some.injEq, exists_eq_left']
      split <;> rfl
  · rfl
  · rfl

theorem lengthFrom_fitLength {buffer : String} :
    (p.fitLength buffer form).LengthFrom t ↔ p.LengthFrom t := by
  rw [LengthFrom, LengthFrom, get?_fitLength_of_ne p buffer form (by decide),
    get?_fitLength_of_ne p buffer form (by decide)]

/-- A buffer in one form takes no lengths from other parameters. -/
theorem not_lengthFrom_inForm? (h : p.inForm? form = some q) (t : String) : ¬ q.LengthFrom t := by
  obtain ⟨u, -, rfl⟩ := inForm?_eq_some_iff.mp h
  have hgone {k : Kind} (hk : KindSet.arrayKinds.contains k = true) :
      (p.retype u p.name).dropArrayKinds.qualifiers.get? k = none := by
    rw [QualifierSet.get?, find?_dropArrayKinds, if_pos (.inl hk)]
    rfl
  rw [LengthFrom, hgone (by decide), hgone (by decide)]
  simp

/-- A buffer in one form that was a length of something is so still. -/
theorem sizeOf_inForm? (h : p.inForm? form = some q) : q.SizeOf t ↔ p.SizeOf t := by
  obtain ⟨u, -, rfl⟩ := inForm?_eq_some_iff.mp h
  have hsize : (p.retype u p.name).dropArrayKinds.qualifiers.get? .autoSize
      = p.qualifiers.get? .autoSize := by
    rw [QualifierSet.get?, find?_dropArrayKinds, if_neg (by simp [KindSet.arrayKinds])]
    rfl
  rw [SizeOf, SizeOf, hsize]

end Parameter

/-! ## §2 The references of an overload for one form -/

namespace Signature

variable {s : Signature} {i : Nat} {p q : Parameter} {form : Pointee}

/-- The parameters of the overload are the buffer in its form and the others, all of them following
it. -/
theorem mem_params_withForm_iff (hp : s.params[i]? = some p) {r' : Parameter} :
    r' ∈ (s.withForm i p q form).params ↔
      r' = q.fitLength p.name form ∨
        ∃ j r, j ≠ i ∧ s.params[j]? = some r ∧ r' = r.fitLength p.name form := by
  rw [withForm_eq]
  exact mem_map_set_iff hp

/-- **What one form lets go.** The references of a signature resolve exactly when those of the
overload do, and the buffer takes its lengths from parameters that are there. -/
theorem referencesResolve_iff_withForm (hp : s.params[i]? = some p)
    (hq : p.inForm? form = some q) :
    s.ReferencesResolve ↔
      (s.withForm i p q form).ReferencesResolve ∧ ∀ t, p.LengthFrom t → t ∈ s.names := by
  have hmem : p ∈ s.params := List.mem_of_getElem? hp
  rw [referencesResolve_iff, referencesResolve_iff, names_withForm hp hq]
  refine ⟨?_, ?_⟩
  · intro h
    refine ⟨fun r' hr' => ?_, (h p hmem).2⟩
    rcases (mem_params_withForm_iff hp).mp hr' with rfl | ⟨j, r, -, hr, rfl⟩
    · refine ⟨fun t ht => ?_, fun t ht => ?_⟩
      · exact (h p hmem).1 t ((Parameter.sizeOf_inForm? hq).mp (Parameter.sizeOf_fitLength.mp ht))
      · exact absurd (Parameter.lengthFrom_fitLength.mp ht) (Parameter.not_lengthFrom_inForm? hq t)
    · obtain ⟨hsize, hlength⟩ := h r (List.mem_of_getElem? hr)
      exact ⟨fun t ht => hsize t (Parameter.sizeOf_fitLength.mp ht),
        fun t ht => hlength t (Parameter.lengthFrom_fitLength.mp ht)⟩
  · rintro ⟨h, hown⟩ r hr
    obtain ⟨j, hj⟩ := List.mem_iff_getElem?.mp hr
    by_cases hji : j = i
    · -- the buffer itself: its lengths are in the overload, what it took lengths from is not
      subst hji
      obtain rfl : r = p := Option.some.inj (hj.symm.trans hp)
      obtain ⟨hsize, -⟩ := h _ ((mem_params_withForm_iff hp).mpr (.inl rfl))
      refine ⟨fun t ht => hsize t ?_, hown⟩
      exact Parameter.sizeOf_fitLength.mpr ((Parameter.sizeOf_inForm? hq).mpr ht)
    · obtain ⟨hsize, hlength⟩ :=
        h _ ((mem_params_withForm_iff hp).mpr (.inr ⟨j, r, hji, hj, rfl⟩))
      exact ⟨fun t ht => hsize t (Parameter.sizeOf_fitLength.mpr ht),
        fun t ht => hlength t (Parameter.lengthFrom_fitLength.mpr ht)⟩

/-- **An overload for one form is as good as its signature.** If a signature is accepted, so is the
overload for any form of any of its parameters. Without the check of references nothing but names
is looked at, and then the one is accepted exactly when the other is. -/
theorem freeze_multiType {v : Overload} {n : String} (hv : v ∈ s.overloads)
    (hvariant : v.variant = .multiType n form) :
    ((∃ f, s.freeze true = .ok f) → ∃ f, v.signature.freeze true = .ok f) ∧
    ((∃ f, v.signature.freeze false = .ok f) ↔ ∃ f, s.freeze false = .ok f) := by
  obtain ⟨i, p, q, hp, -, -, hq, hsig⟩ := exists_inForm?_of_mem_overloads hv hvariant
  have hnames : v.signature.names = s.names := by rw [hsig, names_withForm hp hq]
  refine ⟨?_, ?_⟩
  · intro hs
    obtain ⟨hd, hresolve⟩ := exists_freeze_iff.mp hs
    refine exists_freeze_iff.mpr ⟨hnames ▸ hd, fun _ => ?_⟩
    rw [hsig]
    exact ((referencesResolve_iff_withForm hp hq).mp (hresolve rfl)).1
  · rw [exists_freeze_iff, exists_freeze_iff, hnames]
    simp

/-- Rows of numbers, each with its own length, or all of them in one block. -/
def rows : Parameter where
  name := "rows"
  type := .pointerTo .nothing
  qualifiers :=
    .ofList [⟨.nullable, ⟨true⟩⟩, ⟨.pointerArray, ⟨.pointerTo .nothing, some "widths"⟩⟩,
      ⟨.multiType, ⟨[.byte, .float]⟩⟩]

/-- The number of the rows. -/
def height : Parameter where
  name := "height"
  type := .scalar "size_t" .address
  qualifiers := .ofList [⟨.autoSize, ⟨rows.name, [], none⟩⟩]

/-- A function that takes rows, their number and their lengths. -/
def gather : Signature where
  name := "gather"
  params := [height, { name := "widths", type := .pointerTo (.scalar "int32_t" .int) }, rows]

/-- The rows as floats are accepted; their number is shifted, and their lengths are no more taken
from another parameter. -/
theorem freeze_multiType_gather :
    (∃ f, gather.freeze true = .ok f) ∧
    ∃ v ∈ gather.overloads, v.variant = .multiType rows.name .float ∧
      v.signature.mentions = [⟨"height", .autoSize, "rows"⟩] ∧
      ((∃ f, gather.freeze true = .ok f) → ∃ f, v.signature.freeze true = .ok f) ∧
      ((∃ f, v.signature.freeze false = .ok f) ↔ ∃ f, gather.freeze false = .ok f) := by
  have hs : ∃ f, gather.freeze true = .ok f :=
    exists_freeze_iff.mpr (fault?_eq_none_iff.mp (by decide +kernel))
  have hover : ∃ v ∈ gather.overloads, v.variant = .multiType rows.name .float ∧
      v.signature.mentions = [⟨"height", .autoSize, "rows"⟩] := by
    decide +kernel
  obtain ⟨v, hv, hvariant, hmentions⟩ := hover
  exact ⟨hs, v, hv, hvariant, hmentions, freeze_multiType hv hvariant⟩

end Signature

end Interop
