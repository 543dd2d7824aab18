import Interop.Proofs.Overload.Edits
import Interop.Proofs.Signature.Faults
import Mathlib.Data.List.Nodup

/-!
# Interop.Proofs.Overload.References — which references a single value leaves in place.

Passing a buffer as one value gives it another name, and a reference to the old name then leads
nowhere. Lengths that are tied to the buffer are fixed at the same time, so they mention it no more.
The other two ways to mention a parameter, the lengths of an array of pointers and the length of a
result that a buffer carries, are left as they are: a parameter that takes its length from the
buffer still takes it from the old name.

## Main statements

* **`freeze_singleValue_iff`** — for a signature that is accepted, the exact condition under which
  the overload for a single value is accepted too.
* **`not_freeze_sources`** — a signature that is accepted, with such an overload that is not.
-/

namespace Interop

open Qualifier (Kind KindSet)

/-! ## §1 What a parameter mentions -/

namespace Parameter

/-- Some qualifier of the parameter mentions the name. -/
def Mentions (p : Parameter) (t : String) : Prop := ∃ q ∈ p.qualifiers.toList, t ∈ q.references

/-- The parameter is the length of a buffer or of a dependent of that name. -/
def SizeOf (p : Parameter) (t : String) : Prop :=
  ∃ a, p.qualifiers.get? .autoSize = some a ∧ t ∈ a.names

/-- The name is that of a parameter with lengths, of the elements of this one or of the result that
it carries. -/
def LengthFrom (p : Parameter) (t : String) : Prop :=
  (∃ a, p.qualifiers.get? .pointerArray = some a ∧ a.length = some t) ∨
    ∃ r, p.qualifiers.get? .returnCarrier = some r ∧ r.length = some t

/-- There are no other ways to mention a parameter. -/
theorem mentions_iff {p : Parameter} {t : String} : p.Mentions t ↔ p.SizeOf t ∨ p.LengthFrom t := by
  refine ⟨?_, ?_⟩
  · intro h
    obtain ⟨⟨k, payload⟩, hq, ht⟩ := h
    have hget : p.qualifiers.get? k = some payload := QualifierSet.get?_eq_some_iff.mpr hq
    cases k with
    | autoSize => exact .inl ⟨payload, hget, ht⟩
    | pointerArray => exact .inr (.inl ⟨payload, hget, Option.mem_toList.mp ht⟩)
    | returnCarrier => exact .inr (.inr ⟨payload, hget, Option.mem_toList.mp ht⟩)
    | const | nullable | autoSizeResult | check | singleValue | multiType | expression => cases ht
  · intro h
    rcases h with ⟨a, hget, ht⟩ | ⟨a, hget, ht⟩ | ⟨r, hget, ht⟩
    · exact ⟨_, QualifierSet.get?_eq_some_iff.mp hget, ht⟩
    · exact ⟨_, QualifierSet.get?_eq_some_iff.mp hget, Option.mem_toList.mpr ht⟩
    · exact ⟨_, QualifierSet.get?_eq_some_iff.mp hget, Option.mem_toList.mpr ht⟩

/-- Fixing the lengths tied to a buffer leaves the other lengths, and all that is no length. -/
theorem sizeOf_fixLength {p : Parameter} {buffer t : String} :
    (p.fixLength buffer).SizeOf t ↔ p.SizeOf t ∧ ¬ p.SizeOf buffer := by
  refine ⟨?_, ?_⟩
  · intro h
    obtain ⟨a, ha, ht⟩ := h
    obtain ⟨hold, hbuffer⟩ := (get?_autoSize_fixLength p buffer).mp ha
    refine ⟨⟨a, hold, ht⟩, ?_⟩
    intro h
    obtain ⟨b, hb, hm⟩ := h
    have hab : a = b := Option.some.inj (hold.symm.trans hb)
    exact hbuffer (hab ▸ hm)
  · intro h
    obtain ⟨⟨a, ha, ht⟩, hbuffer⟩ := h
    have hfree : buffer ∉ a.names := fun hm => hbuffer ⟨a, ha, hm⟩
    exact ⟨a, (get?_autoSize_fixLength p buffer).mpr ⟨ha, hfree⟩, ht⟩

theorem lengthFrom_fixLength {p : Parameter} {buffer t : String} :
    (p.fixLength buffer).LengthFrom t ↔ p.LengthFrom t := by
  rw [LengthFrom, LengthFrom, get?_fixLength_of_ne p buffer (by decide) (by decide),
    get?_fixLength_of_ne p buffer (by decide) (by decide)]

/-- A single value has no length. -/
theorem not_lengthFrom_asValue? {p q : Parameter} (h : p.asValue? = some q) (t : String) :
    ¬ q.LengthFrom t := by
  have hpointers : q.qualifiers.get? .pointerArray = none := by
    rw [get?_asValue? h]
    exact if_pos (.inl (by decide))
  have hcarrier : q.qualifiers.get? .returnCarrier = none := by
    rw [get?_asValue? h]
    exact if_pos (.inl (by decide))
  simp [LengthFrom, hpointers, hcarrier]

/-- A single value that was a length of something is so still. -/
theorem sizeOf_asValue? {p q : Parameter} (h : p.asValue? = some q) {t : String} :
    q.SizeOf t ↔ p.SizeOf t := by
  have hsize : q.qualifiers.get? .autoSize = p.qualifiers.get? .autoSize := by
    rw [get?_asValue? h]
    exact if_neg (by decide)
  rw [SizeOf, SizeOf, hsize]

end Parameter

/-! ## §2 Names and places -/

namespace Signature

theorem getElem?_names {s : Signature} {i : Nat} {p : Parameter} (hp : s.params[i]? = some p) :
    s.names[i]? = some p.name := by
  rw [names, List.getElem?_map, hp, Option.map_some]

/-- Where the names are distinct, a name stands at one place only. -/
theorem place_unique {s : Signature} (hd : s.names.Nodup) {i j : Nat} {p q : Parameter}
    (hp : s.params[i]? = some p) (hq : s.params[j]? = some q) (h : p.name = q.name) : i = j := by
  have hi : s.names[i]? = some p.name := getElem?_names hp
  have hj : s.names[j]? = some p.name := h ▸ getElem?_names hq
  obtain ⟨hlt, -⟩ := List.getElem?_eq_some_iff.mp hi
  exact (List.getElem?_inj hlt hd).mp (hi.trans hj.symm)

/-- References resolve exactly when all lengths are lengths of parameters, and all lengths are taken
from parameters. -/
theorem referencesResolve_iff {s : Signature} :
    s.ReferencesResolve ↔ ∀ r ∈ s.params,
      (∀ t, r.SizeOf t → t ∈ s.names) ∧ ∀ t, r.LengthFrom t → t ∈ s.names := by
  refine ⟨?_, ?_⟩
  · intro h r hr
    have hmentions (t : String) (ht : r.Mentions t) : t ∈ s.names := by
      obtain ⟨q, hq, ht⟩ := ht
      exact mem_names_iff.mpr (h r hr q hq t ht)
    exact ⟨fun t ht => hmentions t (Parameter.mentions_iff.mpr (.inl ht)),
      fun t ht => hmentions t (Parameter.mentions_iff.mpr (.inr ht))⟩
  · intro h r hr q hq t ht
    obtain ⟨hsize, hlength⟩ := h r hr
    rcases Parameter.mentions_iff.mp ⟨q, hq, ht⟩ with ht | ht
    · exact mem_names_iff.mp (hsize t ht)
    · exact mem_names_iff.mp (hlength t ht)

variable {s : Signature} {i : Nat} {p q : Parameter}

/-- After the renaming the new name is there in place of the old one. -/
theorem mem_names_withValue_iff (hd : s.names.Nodup) (hp : s.params[i]? = some p) {t : String} :
    t ∈ (s.withValue i p q).names ↔ t = q.name ∨ t ∈ s.names ∧ t ≠ p.name := by
  have hi := getElem?_names hp
  obtain ⟨hlt, -⟩ := List.getElem?_eq_some_iff.mp hi
  rw [names_withValue, List.mem_iff_getElem?]
  refine ⟨?_, ?_⟩
  · intro h
    obtain ⟨j, hj⟩ := h
    -- at the place of the buffer stands the new name, anywhere else a name that is not the old one
    by_cases hij : i = j
    · subst hij
      rw [List.getElem?_set_self hlt] at hj
      exact .inl (Option.some.inj hj).symm
    · rw [List.getElem?_set_ne hij] at hj
      refine .inr ⟨List.mem_of_getElem? hj, ?_⟩
      rintro rfl
      exact hij ((List.getElem?_inj hlt hd).mp (hi.trans hj.symm))
  · intro h
    rcases h with rfl | ⟨ht, hne⟩
    · exact ⟨i, List.getElem?_set_self hlt⟩
    · obtain ⟨j, hj⟩ := List.mem_iff_getElem?.mp ht
      have hij : i ≠ j := by
        rintro rfl
        rw [hi] at hj
        exact hne (Option.some.inj hj).symm
      exact ⟨j, by rw [List.getElem?_set_ne hij, hj]⟩

/-- The names stay distinct if the new name is the old one or new to the signature. -/
theorem nodup_names_withValue (hd : s.names.Nodup) (hp : s.params[i]? = some p)
    (hnew : ∀ j r, j ≠ i → s.params[j]? = some r → r.name ≠ q.name) :
    (s.withValue i p q).names.Nodup := by
  rw [names_withValue]
  by_cases hname : q.name = p.name
  · have hsame : s.names.set i q.name = s.names := by
      obtain ⟨hlt, hget⟩ := List.getElem?_eq_some_iff.mp (getElem?_names hp)
      rw [hname, ← hget, List.set_getElem_self]
    rw [hsame]
    exact hd
  · -- a parameter that has the new name is another one, or the buffer under its old name
    refine hd.set fun hmem => ?_
    obtain ⟨r, hr, hrn⟩ := mem_names_iff.mp hmem
    obtain ⟨j, hj⟩ := List.mem_iff_getElem?.mp hr
    refine hnew j r ?_ hj hrn
    rintro rfl
    rw [hp] at hj
    cases hj
    exact hname hrn.symm

/-! ## §3 The references of a single value -/

/-- A parameter that is the length of something in the overload was so before, and the renamed
buffer was not among it. -/
theorem exists_sizeOf_of_withValue (hp : s.params[i]? = some p) (hq : p.asValue? = some q)
    {r' : Parameter} (hr' : r' ∈ (s.withValue i p q).params) {t : String} (ht : r'.SizeOf t) :
    ∃ r ∈ s.params, r.SizeOf t ∧ ¬ r.SizeOf p.name := by
  rcases (mem_params_withValue_iff hp).mp hr' with rfl | ⟨j, r, -, hr, rfl⟩
  · obtain ⟨hsize, hbuffer⟩ := Parameter.sizeOf_fixLength.mp ht
    rw [Parameter.sizeOf_asValue? hq] at hsize hbuffer
    exact ⟨p, List.mem_of_getElem? hp, hsize, hbuffer⟩
  · exact ⟨r, List.mem_of_getElem? hr, Parameter.sizeOf_fixLength.mp ht⟩

/-- The parameters of the overload take their lengths from where they did before; only the single
value takes none. -/
theorem lengthFrom_withValue_iff (hp : s.params[i]? = some p) (hq : p.asValue? = some q)
    {t : String} :
    (∃ r' ∈ (s.withValue i p q).params, r'.LengthFrom t) ↔
      ∃ j r, j ≠ i ∧ s.params[j]? = some r ∧ r.LengthFrom t := by
  refine ⟨?_, ?_⟩
  · intro h
    obtain ⟨r', hr', ht⟩ := h
    rcases (mem_params_withValue_iff hp).mp hr' with rfl | ⟨j, r, hj, hr, rfl⟩
    · rw [Parameter.lengthFrom_fixLength] at ht
      exact absurd ht (Parameter.not_lengthFrom_asValue? hq t)
    · exact ⟨j, r, hj, hr, Parameter.lengthFrom_fixLength.mp ht⟩
  · intro h
    obtain ⟨j, r, hj, hr, ht⟩ := h
    exact ⟨r.fixLength p.name, (mem_params_withValue_iff hp).mpr (.inr ⟨j, r, hj, hr, rfl⟩),
      Parameter.lengthFrom_fixLength.mpr ht⟩

/-- Every length is tied to parameters that are there, whatever the buffer is renamed to. -/
theorem mem_names_of_sizeOf_withValue (hd : s.names.Nodup) (hresolve : s.ReferencesResolve)
    (hp : s.params[i]? = some p) (hq : p.asValue? = some q) {r' : Parameter}
    (hr' : r' ∈ (s.withValue i p q).params) {t : String} (ht : r'.SizeOf t) :
    t ∈ (s.withValue i p q).names := by
  obtain ⟨r, hr, hsize, hbuffer⟩ := exists_sizeOf_of_withValue hp hq hr' ht
  refine (mem_names_withValue_iff hd hp).mpr (.inr ⟨?_, ?_⟩)
  · exact (referencesResolve_iff.mp hresolve r hr).1 t hsize
  · rintro rfl
    exact hbuffer hsize

/-- Renaming the buffer leaves every reference in place exactly when the name stays or no other
parameter takes its length from the buffer. -/
theorem referencesResolve_withValue_iff (hd : s.names.Nodup) (hresolve : s.ReferencesResolve)
    (hp : s.params[i]? = some p) (hq : p.asValue? = some q) :
    (s.withValue i p q).ReferencesResolve ↔
      q.name = p.name ∨ ∀ j r, j ≠ i → s.params[j]? = some r → ¬ r.LengthFrom p.name := by
  rw [referencesResolve_iff]
  refine ⟨?_, ?_⟩
  · intro h
    by_cases hname : q.name = p.name
    · exact .inl hname
    · refine .inr fun j r hj hr hlength => ?_
      obtain ⟨r', hr', ht⟩ := (lengthFrom_withValue_iff hp hq).mpr ⟨j, r, hj, hr, hlength⟩
      -- what is found under the old name would be a parameter that kept it
      rcases (mem_names_withValue_iff hd hp).mp ((h r' hr').2 p.name ht) with heq | ⟨-, hne⟩
      · exact hname heq.symm
      · exact hne rfl
  · intro h r' hr'
    refine ⟨fun t ht => mem_names_of_sizeOf_withValue hd hresolve hp hq hr' ht, fun t ht => ?_⟩
    obtain ⟨j, r, hj, hr, hlength⟩ := (lengthFrom_withValue_iff hp hq).mp ⟨r', hr', ht⟩
    rw [mem_names_withValue_iff hd hp]
    by_cases hold : t = p.name
    · subst hold
      rcases h with hname | hfree
      · exact .inl hname.symm
      · exact absurd hlength (hfree j r hj hr)
    · have hmem : r ∈ s.params := List.mem_of_getElem? hr
      exact .inr ⟨(referencesResolve_iff.mp hresolve r hmem).2 t hlength, hold⟩

/-- **When a single value is accepted.** Take a signature that is accepted, and a parameter of it
that may be passed as one value under a name no other parameter has. The overload for that value has
distinct names, and every length in it is tied to a parameter that is there. It is accepted exactly
when the name stays, or no other parameter takes its length from the one that is renamed. -/
theorem freeze_singleValue_iff {single : Qualifier.SingleValue} {v : Overload}
    (hs : ∃ f, s.freeze true = .ok f) (hp : s.params[i]? = some p)
    (hsingle : p.qualifiers.get? .singleValue = some single)
    (hnew : ∀ j r, j ≠ i → s.params[j]? = some r → r.name ≠ single.name)
    (hv : v ∈ s.overloads) (hvariant : v.variant = .singleValue p.name) :
    (∃ f, v.signature.freeze false = .ok f) ∧
    (∀ r ∈ v.signature.params, ∀ t, r.SizeOf t → t ∈ v.signature.names) ∧
    ((∃ f, v.signature.freeze true = .ok f) ↔
      single.name = p.name ∨ ∀ j r, j ≠ i → s.params[j]? = some r → ¬ r.LengthFrom p.name) := by
  obtain ⟨hd, hresolve⟩ := exists_freeze_iff.mp hs
  -- the overload comes from the parameter at place `i`, since no other has its name
  obtain ⟨i', p', q, hp', hname, hq, hsig⟩ := exists_asValue?_of_mem_overloads hv hvariant
  obtain rfl : i' = i := place_unique hd hp' hp hname
  obtain rfl : p' = p := Option.some.inj (hp'.symm.trans hp)
  have hqname : q.name = single.name := by
    obtain ⟨single', element, hsingle', -, -, rfl⟩ := Parameter.asValue?_eq_some_iff.mp hq
    rw [hsingle] at hsingle'
    cases hsingle'
    rfl
  have hdistinct : v.signature.names.Nodup := by
    rw [hsig]
    exact nodup_names_withValue hd hp (by rw [hqname]; exact hnew)
  refine ⟨exists_freeze_iff.mpr ⟨hdistinct, nofun⟩, fun r' hr' t ht => ?_, ?_⟩
  · rw [hsig] at hr' ⊢
    exact mem_names_of_sizeOf_withValue hd (hresolve rfl) hp hq hr' ht
  · rw [← hqname, ← referencesResolve_withValue_iff hd (hresolve rfl) hp hq, ← hsig,
      exists_freeze_iff]
    exact ⟨fun h => h.2 rfl, fun h => ⟨hdistinct, fun _ => h⟩⟩

/-- The lengths of strings, or the one length. -/
def lengths : Parameter where
  name := "lengths"
  type := .pointerTo (.scalar "int32_t" .int)
  qualifiers := .ofList [⟨.singleValue, ⟨"length"⟩⟩]

/-- A function that takes strings and their lengths. -/
def sources : Signature where
  name := "sources"
  params :=
    [{ name := "strings", type := .pointerTo (.pointerTo (.scalar "char" .byte)),
       qualifiers :=
         .ofList [⟨.pointerArray, ⟨.pointerTo (.scalar "char" .byte), some lengths.name⟩⟩] },
     lengths]

/-- The condition at work: the strings take their lengths from the parameter that is renamed. -/
theorem freeze_singleValue_iff_sources :
    ∃ v ∈ sources.overloads, v.variant = .singleValue lengths.name ∧
      (∃ f, v.signature.freeze false = .ok f) ∧
      (∀ r ∈ v.signature.params, ∀ t, r.SizeOf t → t ∈ v.signature.names) ∧
      ((∃ f, v.signature.freeze true = .ok f) ↔
        "length" = lengths.name ∨
          ∀ j r, j ≠ 1 → sources.params[j]? = some r → ¬ r.LengthFrom lengths.name) := by
  have hs : ∃ f, sources.freeze true = .ok f :=
    exists_freeze_iff.mpr (fault?_eq_none_iff.mp (by decide +kernel))
  have hsingle : lengths.qualifiers.get? .singleValue = some ⟨"length"⟩ := by decide +kernel
  have hnew : ∀ r ∈ sources.params, r.name ≠ "length" := by decide +kernel
  obtain ⟨v, hv, hvariant⟩ : ∃ v ∈ sources.overloads, v.variant = .singleValue lengths.name := by
    decide +kernel
  exact ⟨v, hv, hvariant, freeze_singleValue_iff (i := 1) hs rfl hsingle
    (fun j r _ hr => hnew r (List.mem_of_getElem? hr)) hv hvariant⟩

/-- **A single value may be refused.** The function is accepted and no parameter has the new name,
but with one length for all strings, the strings refer to lengths that are not there. -/
theorem not_freeze_sources :
    (∃ f, sources.freeze true = .ok f) ∧ sources.params[1]? = some lengths ∧
      lengths.qualifiers.get? .singleValue = some ⟨"length"⟩ ∧ "length" ∉ sources.names ∧
      ∃ v ∈ sources.overloads, v.variant = .singleValue lengths.name ∧
        v.signature.freeze true
          = .error (.unresolved "sources" ⟨"strings", .pointerArray, "lengths"⟩) := by
  have hs : ∃ f, sources.freeze true = .ok f :=
    exists_freeze_iff.mpr (fault?_eq_none_iff.mp (by decide +kernel))
  have hrefused : ∃ v ∈ sources.overloads, v.variant = .singleValue lengths.name ∧
      v.signature.fault? true
        = some (.unresolved "sources" ⟨"strings", .pointerArray, "lengths"⟩) := by
    decide +kernel
  obtain ⟨v, hv, hvariant, hfault⟩ := hrefused
  exact ⟨hs, rfl, by decide +kernel, by decide +kernel, v, hv, hvariant,
    freeze_eq_error_iff.mpr hfault⟩

end Signature

end Interop
