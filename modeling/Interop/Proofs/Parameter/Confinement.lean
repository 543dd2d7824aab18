import Interop.Proofs.Overload.Edits
import Interop.Proofs.Qualifier.History

/-!
# Interop.Proofs.Parameter.Confinement — edits that keep to some kinds of qualifiers.

Most edits of a parameter change nothing but qualifiers, and of these only a few kinds. What they
leave under those kinds depends on what they find there, and on nothing else. Edits that keep to
different kinds do not see each other, so they may be made in either order. Nor does it matter
whether the type, the name and the direction of a parameter change before such an edit or after it.

## Main statements

* **`KeepsTo.comm`** — edits that keep to different kinds commute.
* **`keepsTo_dropArrayKinds`** — of which kinds an edit that drops the kinds of buffers takes note.
-/

namespace Interop

open Qualifier (Kind KindSet)

/-! ## §1 Kinds that two edits share -/

/-- Two sets of kinds do not meet exactly when no kind is in both. -/
theorem Qualifier.KindSet.meets_eq_false_iff {ks ls : KindSet} :
    ks.meets ls = false ↔ ∀ k, ks.contains k = true → ls.contains k = false := by
  rw [meets, bne_eq_false_iff_eq]
  refine ⟨?_, ?_⟩
  · intro h k hk
    have hnone : (ks.inter ls).contains k = false := by rw [h, contains_empty]
    rwa [contains_inter, hk, Bool.true_and] at hnone
  · intro h
    refine ext_contains fun k => ?_
    rw [contains_inter, contains_empty]
    cases hk : ks.contains k with
    | false => rfl
    | true => rw [h k hk, Bool.true_and]

theorem Qualifier.KindSet.meets_comm (ks ls : KindSet) : ks.meets ls = ls.meets ks := by
  rw [meets, meets, inter, inter, BitVec.and_comm]

namespace Parameter

/-! ## §2 Confined edits -/

/-- The edit keeps to the kinds of `ks`: nothing but qualifiers of these kinds changes, and what
becomes of them depends on nothing else. -/
structure KeepsTo (ks : KindSet) (f : Parameter → Parameter) : Prop where
  frame : ∀ p, f p = p.withQualifiers (f p).qualifiers
  kept : ∀ p k, ks.contains k = false → (f p).qualifiers.get? k = p.qualifiers.get? k
  reads : ∀ p q, (∀ k, ks.contains k = true → p.qualifiers.get? k = q.qualifiers.get? k) →
    ∀ k, ks.contains k = true → (f p).qualifiers.get? k = (f q).qualifiers.get? k

namespace KeepsTo

variable {ks ls : KindSet} {f g : Parameter → Parameter}

/-- Of two edits that keep to the same kinds, only the outcome under these kinds matters. -/
theorem eq_of_get? (hf : KeepsTo ks f) (hg : KeepsTo ks g) {p : Parameter}
    (h : ∀ k, ks.contains k = true → (f p).qualifiers.get? k = (g p).qualifiers.get? k) :
    f p = g p := by
  have hqualifiers : (f p).qualifiers = (g p).qualifiers := by
    refine QualifierSet.ext_get? fun k => ?_
    cases hk : ks.contains k with
    | true => exact h k hk
    | false => rw [hf.kept p k hk, hg.kept p k hk]
  rw [hf.frame p, hg.frame p, hqualifiers]

/-- One edit after another changes nothing but qualifiers either. -/
theorem frame_comp (hf : KeepsTo ks f) (hg : KeepsTo ls g) (p : Parameter) :
    f (g p) = p.withQualifiers (f (g p)).qualifiers := by
  calc f (g p) = (g p).withQualifiers (f (g p)).qualifiers := hf.frame (g p)
    _ = (p.withQualifiers (g p).qualifiers).withQualifiers (f (g p)).qualifiers := by
        rw [← hg.frame p]
    _ = p.withQualifiers (f (g p)).qualifiers := rfl

/-- If both keep to the same kinds, so do the two together. -/
theorem comp (hf : KeepsTo ks f) (hg : KeepsTo ks g) : KeepsTo ks fun p => f (g p) where
  frame := hf.frame_comp hg
  kept p k hk := by rw [hf.kept (g p) k hk, hg.kept p k hk]
  reads p q h := hf.reads (g p) (g q) (hg.reads p q h)

/-- **Edits that keep to different kinds commute.** -/
theorem comm (hf : KeepsTo ks f) (hg : KeepsTo ls g) (h : ks.meets ls = false) (p : Parameter) :
    f (g p) = g (f p) := by
  have hdisjoint := KindSet.meets_eq_false_iff.mp h
  have hdisjoint' := KindSet.meets_eq_false_iff.mp (ls.meets_comm ks ▸ h)
  have hqualifiers : (f (g p)).qualifiers = (g (f p)).qualifiers := by
    refine QualifierSet.ext_get? fun k => ?_
    cases hk : ks.contains k with
    | true =>
      -- the kind belongs to the one edit, and the other changes nothing that this one reads
      calc (f (g p)).qualifiers.get? k
          = (f p).qualifiers.get? k := hf.reads (g p) p (fun l hl => hg.kept p l (hdisjoint l hl)) k hk
        _ = (g (f p)).qualifiers.get? k := (hg.kept (f p) k (hdisjoint k hk)).symm
    | false =>
      cases hl : ls.contains k with
      | true =>
        calc (f (g p)).qualifiers.get? k
            = (g p).qualifiers.get? k := hf.kept (g p) k hk
          _ = (g (f p)).qualifiers.get? k :=
              hg.reads p (f p) (fun l hl => (hf.kept p l (hdisjoint' l hl)).symm) k hl
      | false => rw [hf.kept (g p) k hk, hg.kept p k hl, hg.kept (f p) k hl, hf.kept p k hk]
  rw [hf.frame_comp hg p, hg.frame_comp hf p, hqualifiers]

/-- The name, the type and the direction are no qualifiers. -/
theorem fields_eq (hf : KeepsTo ks f) (p : Parameter) :
    (f p).name = p.name ∧ (f p).type = p.type ∧ (f p).direction = p.direction := by
  rw [hf.frame p]
  exact ⟨rfl, rfl, rfl⟩

/-- What becomes of the qualifiers does not depend on anything but qualifiers. -/
theorem qualifiers_congr (hf : KeepsTo ks f) {p q : Parameter} (h : p.qualifiers = q.qualifiers) :
    (f p).qualifiers = (f q).qualifiers := by
  refine QualifierSet.ext_get? fun k => ?_
  cases hk : ks.contains k with
  | true => exact hf.reads p q (fun l _ => by rw [h]) k hk
  | false => rw [hf.kept p k hk, hf.kept q k hk, h]

/-- **Another type, name and direction** may come before the edit or after it. -/
theorem retypeAs_comm (hf : KeepsTo ks f) (p : Parameter) (t : CType) (n : String) (d : Direction) :
    (f p).retypeAs t n d = f (p.retypeAs t n d) := by
  have hqualifiers : (f (p.retypeAs t n d)).qualifiers = (f p).qualifiers := hf.qualifiers_congr rfl
  rw [hf.frame (p.retypeAs t n d), hf.frame p, hqualifiers]
  rfl

end KeepsTo

/-! ## §3 Removals -/

theorem keepsTo_remove (k : Kind) : KeepsTo (.single k) (·.remove k) where
  frame p := rfl
  kept p l hl := by
    show (p.qualifiers.erase k).get? l = _
    have hne : k ≠ l := by simpa using hl
    rw [QualifierSet.get?_erase, if_neg hne]
  reads p q h l hl := by
    show (p.qualifiers.erase k).get? l = (q.qualifiers.erase k).get? l
    rw [QualifierSet.get?_erase, QualifierSet.get?_erase, h l hl]

/-- The kinds that a buffer can lose: those that describe how it is passed, and the permission to be
null. -/
def bufferKinds : KindSet := KindSet.arrayKinds.union (.single .nullable)

/-- What an edit that drops the kinds of buffers leaves under a kind. -/
theorem get?_dropArrayKinds (p : Parameter) (k : Kind) :
    p.dropArrayKinds.qualifiers.get? k =
      if KindSet.arrayKinds.contains k = true ∨
        k = .nullable ∧ p.isOptional = true ∧ p.qualifiers.has .multiType = true then none
      else p.qualifiers.get? k := by
  rw [QualifierSet.get?, find?_dropArrayKinds]
  split
  · rfl
  · rfl

/-- **Dropping the kinds of buffers** takes note of no other kind: whether the permission to be null
goes is seen from this permission and from the forms, and both are of these kinds. -/
theorem keepsTo_dropArrayKinds : KeepsTo bufferKinds dropArrayKinds where
  frame p := rfl
  kept p k hk := by
    rw [bufferKinds, KindSet.contains_union, Bool.or_eq_false_iff] at hk
    obtain ⟨harray, hnullable⟩ := hk
    have hne : k ≠ .nullable := by
      rintro rfl
      exact Bool.false_ne_true hnullable.symm
    rw [get?_dropArrayKinds, if_neg (by simp [harray, hne])]
  reads p q h k hk := by
    have hoptional : p.isOptional = q.isOptional := by
      rw [isOptional, isOptional, h .nullable (by decide)]
    have hmulti : p.qualifiers.has .multiType = q.qualifiers.has .multiType := by
      rw [QualifierSet.has_eq_isSome_get?, QualifierSet.has_eq_isSome_get?, h .multiType (by decide)]
    rw [get?_dropArrayKinds, get?_dropArrayKinds, hoptional, hmulti, h k hk]

/-! ## §4 A buffer that is rebuilt -/

namespace KeepsTo

variable {ks : KindSet} {f : Parameter → Parameter}

/-- A buffer may be given a form before or after an edit of other kinds. -/
theorem inForm?_comm (hf : KeepsTo ks f) (h : ks.meets bufferKinds = false) (p : Parameter)
    (form : Pointee) : (f p).inForm? form = (p.inForm? form).map f := by
  obtain ⟨hname, htype, hdirection⟩ := hf.fields_eq p
  have hrebuilt (t : CType) :
      ((f p).retype t (f p).name).dropArrayKinds = f (p.retype t p.name).dropArrayKinds := by
    calc ((f p).retype t (f p).name).dropArrayKinds
        = ((f p).retypeAs t p.name p.direction).dropArrayKinds := by
          rw [hname, ← hdirection]
          rfl
      _ = (f (p.retype t p.name)).dropArrayKinds := by
          rw [hf.retypeAs_comm]
          rfl
      _ = f (p.retype t p.name).dropArrayKinds := (hf.comm keepsTo_dropArrayKinds h _).symm
  rw [inForm?, inForm?, htype, Option.map_map]
  exact congrArg (fun g => (p.type.retarget? form).map g) (funext hrebuilt)

/-- So may a buffer be passed as one value. -/
theorem asValue?_comm (hf : KeepsTo ks f) (h : ks.meets bufferKinds = false) (p : Parameter) :
    (f p).asValue? = p.asValue?.map f := by
  obtain ⟨-, htype, -⟩ := hf.fields_eq p
  have hsingle : (f p).qualifiers.get? .singleValue = p.qualifiers.get? .singleValue := by
    refine hf.kept p .singleValue ?_
    rw [KindSet.meets_comm] at h
    exact KindSet.meets_eq_false_iff.mp h .singleValue (by decide)
  have hnullable : ks.meets (.single .nullable) = false := by
    refine KindSet.meets_eq_false_iff.mpr fun k hk => ?_
    have hbuffer := KindSet.meets_eq_false_iff.mp h k hk
    rw [bufferKinds, KindSet.contains_union, Bool.or_eq_false_iff] at hbuffer
    exact hbuffer.2
  have hrebuilt (t : CType) (n : String) :
      (((f p).retypeAs t n .input).dropArrayKinds).remove .nullable
        = f (((p.retypeAs t n .input).dropArrayKinds).remove .nullable) := by
    rw [hf.retypeAs_comm, ← hf.comm keepsTo_dropArrayKinds h, ← hf.comm (keepsTo_remove .nullable)
      hnullable]
  unfold asValue?
  rw [hsingle, htype]
  cases p.qualifiers.get? .singleValue with
  | none => rfl
  | some single =>
    cases p.type.element? with
    | none => rfl
    | some element =>
      cases p.type.isHandle with
      | true => rfl
      | false => exact congrArg some (hrebuilt element single.name)

end KeepsTo

end Parameter

end Interop
