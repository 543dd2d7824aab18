import Interop.Proofs.Parameter.Confinement

/-!
# Interop.Proofs.Parameter.BufferKinds — what is left of a parameter without the kinds of buffers.

A parameter that is no buffer in several forms any more loses the qualifiers that say how a buffer is
passed, and in one case the permission to be null with them: if it could be left out among several
forms. Whether this is the case is told by two qualifiers, and both of them go. So it has to be found
out before they do, and a second time nothing is found. What is left is said here by the members of
the two sets of qualifiers, without the steps in which they are removed.

## Main statements

* **`sheds_iff`** — what is left, as the only parameter that fits a description.
* **`sheds_dropArrayKinds`** — dropping a second time changes nothing, and edits of other kinds may be
  made before or after.
-/

namespace Interop

open Qualifier (Kind KindSet Payload)

/-- Two sets with the same members are equal. -/
theorem QualifierSet.ext_mem {s t : QualifierSet} (h : ∀ e, e ∈ s.toList ↔ e ∈ t.toList) :
    s = t := by
  refine ext_find? fun k => Option.ext fun e => ?_
  rw [find?_eq_some_iff, find?_eq_some_iff, h e]

namespace Parameter

/-! ## §1 Edits of one kind -/

theorem keepsTo_add (q : Qualifier) : KeepsTo (.single q.kind) (·.add q) where
  frame p := rfl
  kept p l hl := by
    have hne : q.kind ≠ l := by simpa using hl
    show (p.qualifiers.put q.kind q.payload).get? l = _
    rw [QualifierSet.get?_put, dif_neg hne]
  reads p r h l hl := by
    show (p.qualifiers.put q.kind q.payload).get? l = (r.qualifiers.put q.kind q.payload).get? l
    rw [QualifierSet.get?_put, QualifierSet.get?_put, h l hl]

theorem keepsTo_modify (k : Kind) (f : Payload k → Payload k) :
    KeepsTo (.single k) (·.modify k f) where
  frame p := rfl
  kept p l hl := by
    have hne : k ≠ l := by simpa using hl
    exact p.qualifiers.get?_modify_of_ne f hne
  reads p r h l hl := by
    obtain rfl : k = l := by simpa using hl
    show (p.qualifiers.modify k f).get? k = (r.qualifiers.modify k f).get? k
    rw [QualifierSet.get?_modify_self, QualifierSet.get?_modify_self, h k hl]

/-! ## §2 What is left -/

/-- The kinds that say how a buffer is passed. -/
def passingKinds : List Kind := [.pointerArray, .returnCarrier, .singleValue, .multiType]

/-- The parameter may be left out, and has forms to be passed in. -/
def OptionalInForms (p : Parameter) : Prop :=
  ⟨.nullable, ⟨true⟩⟩ ∈ p.qualifiers.toList ∧ ∃ m, ⟨.multiType, m⟩ ∈ p.qualifiers.toList

/-- `q` is `p` without the kinds of buffers: nothing changes but the qualifiers, and of these the
ones stay as they are that do not say how a buffer is passed, save that a parameter that may be left
out and has forms loses the permission to be null as well. -/
structure Sheds (p q : Parameter) : Prop where
  frame : q = { p with qualifiers := q.qualifiers }
  mem_iff : ∀ e, e ∈ q.qualifiers.toList ↔
    e ∈ p.qualifiers.toList ∧ e.kind ∉ passingKinds ∧ ¬(e.kind = .nullable ∧ p.OptionalInForms)

variable {p q r : Parameter}

theorem contains_arrayKinds_iff {k : Kind} :
    KindSet.arrayKinds.contains k = true ↔ k ∈ passingKinds := by
  cases k <;> decide

/-- What the edit asks for, by members. -/
theorem optionalInForms_iff :
    p.OptionalInForms ↔ p.isOptional = true ∧ p.qualifiers.has .multiType = true := by
  refine and_congr ?_ ?_
  · rw [← QualifierSet.get?_eq_some_iff, isOptional]
    cases p.qualifiers.get? .nullable with
    | none => simp
    | some n =>
      obtain ⟨optional⟩ := n
      simp
  · rw [QualifierSet.has_eq_isSome_get?, Option.isSome_iff_exists]
    exact exists_congr fun m => QualifierSet.get?_eq_some_iff.symm

/-- A kind that a buffer loses is found no more. -/
theorem find?_dropArrayKinds_of_gone {k : Kind}
    (h : k ∈ passingKinds ∨ k = .nullable ∧ p.OptionalInForms) :
    p.dropArrayKinds.qualifiers.find? k = none := by
  rw [← contains_arrayKinds_iff, optionalInForms_iff] at h
  rw [find?_dropArrayKinds, if_pos h]

/-- Under any other kind the same is found as before. -/
theorem find?_dropArrayKinds_of_kept {k : Kind}
    (h : ¬(k ∈ passingKinds ∨ k = .nullable ∧ p.OptionalInForms)) :
    p.dropArrayKinds.qualifiers.find? k = p.qualifiers.find? k := by
  rw [← contains_arrayKinds_iff, optionalInForms_iff] at h
  rw [find?_dropArrayKinds, if_neg h]

/-- A parameter has one remainder. -/
theorem Sheds.unique (hq : p.Sheds q) (hr : p.Sheds r) : q = r := by
  have hqualifiers : q.qualifiers = r.qualifiers :=
    QualifierSet.ext_mem fun e => (hq.mem_iff e).trans (hr.mem_iff e).symm
  rw [hq.frame, hr.frame, hqualifiers]

/-- The edit leaves what it is said to. -/
theorem Sheds.dropArrayKinds (p : Parameter) : p.Sheds p.dropArrayKinds where
  frame := rfl
  mem_iff e := by
    have hfind (s : QualifierSet) : e ∈ s.toList ↔ s.find? e.kind = some e := by
      rw [QualifierSet.find?_eq_some_iff, and_iff_left rfl]
    rw [hfind, hfind, ← not_or]
    by_cases hgone : e.kind ∈ passingKinds ∨ e.kind = .nullable ∧ p.OptionalInForms
    · rw [find?_dropArrayKinds_of_gone hgone]
      exact ⟨nofun, fun h => absurd hgone h.2⟩
    · rw [find?_dropArrayKinds_of_kept hgone, and_iff_left hgone]

/-- **What is left** of a parameter that loses the kinds of buffers. -/
theorem sheds_iff : p.Sheds q ↔ q = p.dropArrayKinds := by
  refine ⟨fun h => h.unique (.dropArrayKinds p), ?_⟩
  rintro rfl
  exact .dropArrayKinds p

/-! ## §3 A second time, and among other edits -/

/-- What is left has no forms, so nothing more is lost. -/
theorem Sheds.self (h : p.Sheds q) : q.Sheds q where
  frame := rfl
  mem_iff e := by
    refine ⟨fun he => ⟨he, ((h.mem_iff e).mp he).2.1, ?_⟩, And.left⟩
    rintro ⟨-, -, m, hm⟩
    have hmulti : Kind.multiType ∉ passingKinds := ((h.mem_iff _).mp hm).2.1
    exact hmulti (by decide)

/-- **Dropping a second time** changes nothing. -/
theorem dropArrayKinds_dropArrayKinds (p : Parameter) :
    p.dropArrayKinds.dropArrayKinds = p.dropArrayKinds :=
  (sheds_iff.mp (Sheds.dropArrayKinds p).self).symm

theorem meets_bufferKinds_eq_false {k : Kind} (h : k ∉ .nullable :: passingKinds) :
    (KindSet.single k).meets bufferKinds = false := by
  revert h
  cases k <;> decide

/-- **A parameter that loses the kinds of buffers.** The parameter that is left is the only one that
fits the description by members: every qualifier that does not say how a buffer is passed stays with
its payload, save the permission to be null of a parameter that may be left out and has forms, and
nothing else changes. Dropping a second time changes nothing. Before and after come to the same for
adding, removing or changing a qualifier of any other kind than these, and a removal takes out the
same qualifier. -/
theorem sheds_dropArrayKinds (p : Parameter) :
    (∀ q, p.Sheds q ↔ q = p.dropArrayKinds) ∧
    p.dropArrayKinds.dropArrayKinds = p.dropArrayKinds ∧
    (∀ e : Qualifier, e.kind ∉ .nullable :: passingKinds →
      (p.add e).dropArrayKinds = p.dropArrayKinds.add e) ∧
    (∀ k : Kind, k ∉ .nullable :: passingKinds →
      (p.remove k).dropArrayKinds = p.dropArrayKinds.remove k ∧
        p.dropArrayKinds.extract k = ((p.extract k).1, (p.extract k).2.dropArrayKinds)) ∧
    ∀ (k : Kind) (f : Payload k → Payload k), k ∉ .nullable :: passingKinds →
      (p.modify k f).dropArrayKinds = p.dropArrayKinds.modify k f := by
  refine ⟨fun q => sheds_iff, p.dropArrayKinds_dropArrayKinds, fun e he => ?_, fun k hk => ?_,
    fun k f hk => ?_⟩
  · exact ((keepsTo_add e).comm keepsTo_dropArrayKinds (meets_bufferKinds_eq_false he) p).symm
  · have hremove : p.dropArrayKinds.remove k = (p.remove k).dropArrayKinds :=
      (keepsTo_remove k).comm keepsTo_dropArrayKinds (meets_bufferKinds_eq_false hk) p
    have hfind : p.dropArrayKinds.qualifiers.find? k = p.qualifiers.find? k := by
      refine find?_dropArrayKinds_of_kept fun hgone => hk (List.mem_cons.mpr ?_)
      exact hgone.symm.imp_left And.left
    exact ⟨hremove.symm, Prod.ext hfind hremove⟩
  · exact ((keepsTo_modify k f).comm keepsTo_dropArrayKinds (meets_bufferKinds_eq_false hk) p).symm

/-- Pixels in one of two forms that may be left out. -/
def pixels : Parameter where
  name := "pixels"
  type := .pointerTo .nothing
  direction := .both
  qualifiers :=
    .ofList [⟨.const, ()⟩, ⟨.nullable, ⟨true⟩⟩, ⟨.check, ⟨"pixels", true⟩⟩,
      ⟨.returnCarrier, ⟨none, some "4"⟩⟩, ⟨.multiType, ⟨[.byte, .float]⟩⟩]

/-- Of the pixels the constness and the check are left, and the check may be changed before or
after. -/
theorem sheds_dropArrayKinds_pixels :
    pixels.OptionalInForms ∧ pixels.Sheds pixels.dropArrayKinds ∧
    pixels.dropArrayKinds.qualifiers.toList = [⟨.const, ()⟩, ⟨.check, ⟨"pixels", true⟩⟩] ∧
    ((pixels.modify .check fun c => { c with debugOnly := false }).dropArrayKinds).qualifiers.toList
      = [⟨.const, ()⟩, ⟨.check, ⟨"pixels", false⟩⟩] ∧
    (pixels.extract .check).1 = (pixels.dropArrayKinds.extract .check).1 := by
  obtain ⟨hsheds, -, -, hremove, hmodify⟩ := sheds_dropArrayKinds pixels
  refine ⟨optionalInForms_iff.mpr (by decide +kernel), (hsheds _).mpr rfl, by decide +kernel, ?_, ?_⟩
  · rw [hmodify .check _ (by decide)]
    decide +kernel
  · rw [(hremove .check (by decide)).2]

end Parameter

end Interop
