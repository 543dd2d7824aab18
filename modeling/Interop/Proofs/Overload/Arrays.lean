import Interop.Proofs.Overload.Order
import Interop.Proofs.Signature.Arrays

/-!
# Interop.Proofs.Overload.Arrays — for which parameters of an overload the caller passes an array.

Whether the caller passes an array for a parameter depends on a count over the whole signature, so an
overload that edits one parameter could change this for all the others. One form of a buffer changes
neither what is counted nor how anything but the buffer crosses. A single value is an input, though: a
buffer that was an output of worked-out length is counted no more. If one other such output is left,
it is alone then, and it is returned where it was passed as an array before.

## Main statements

* **`Signature.sizedResults_rebuildAt`** — the count after one parameter is rebuilt.
* **`Signature.takesArray_of_overloads`** — the counts of all overloads, and for which of the other
  parameters the caller passes an array.
-/

namespace Interop

open Qualifier (Kind KindSet)

/-! ## §1 What is counted -/

namespace Parameter

variable {ks : KindSet} {f : Parameter → Parameter} {p q : Parameter}

/-- An edit that keeps to other kinds leaves a parameter an output of worked-out length, or none. -/
theorem KeepsTo.isSizedResult_eq (hf : KeepsTo ks f) (h : ks.contains .autoSizeResult = false)
    (p : Parameter) : (f p).isSizedResult = p.isSizedResult := by
  obtain ⟨-, -, hdirection⟩ := hf.fields_eq p
  rw [isSizedResult, isSizedResult, hdirection, QualifierSet.has_eq_isSome_get?,
    QualifierSet.has_eq_isSome_get?, hf.kept p .autoSizeResult h]

/-- Beside the same count it is passed as it was. -/
theorem KeepsTo.isArray_eq (hf : KeepsTo ks f) (h : ks.contains .autoSizeResult = false)
    (p : Parameter) (n : Nat) : (f p).isArray n = p.isArray n := by
  obtain ⟨-, htype, -⟩ := hf.fields_eq p
  rw [isArray, isArray, htype, hf.isSizedResult_eq h]

/-- A form of a buffer is counted if the buffer was. -/
theorem isSizedResult_inForm? {form : Pointee} (h : p.inForm? form = some q) :
    q.isSizedResult = p.isSizedResult := by
  obtain ⟨t, -, rfl⟩ := inForm?_eq_some_iff.mp h
  exact keepsTo_dropArrayKinds.isSizedResult_eq (by decide) (p.retype t p.name)

/-- A single value is an input, so it is not counted. -/
theorem isSizedResult_asValue? (h : p.asValue? = some q) : q.isSizedResult = false := by
  obtain ⟨single, element, -, -, -, rfl⟩ := asValue?_eq_some_iff.mp h
  rfl

end Parameter

namespace Choice

/-- To follow a buffer makes no difference to what is counted. -/
theorem isSizedResult_follow (c : Choice) (buffer : String) (r : Parameter) :
    (c.follow buffer r).isSizedResult = r.isSizedResult :=
  (c.keepsTo_follow buffer).isSizedResult_eq (by decide) r

/-- Nor does it make a difference to how a parameter is passed beside the same count. -/
theorem isArray_follow (c : Choice) (buffer : String) (r : Parameter) (n : Nat) :
    (c.follow buffer r).isArray n = r.isArray n :=
  (c.keepsTo_follow buffer).isArray_eq (by decide) r n

end Choice

/-! ## §2 The other parameters, place by place -/

namespace Signature

variable {s t : Signature} {i : Nat} {p q : Parameter} {c : Choice}

/-- At every place but `i` the two signatures have parameters that are related, or none. -/
def Elsewhere (rel : Parameter → Parameter → Prop) (s : Signature) (i : Nat) (t : Signature) : Prop :=
  ∀ j, j ≠ i → Option.Rel rel s.params[j]? t.params[j]?

/-- The count after one parameter is rebuilt differs by the old and the new parameter at most. -/
theorem sizedResults_rebuildAt (c : Choice) (buffer : String) (hp : s.params[i]? = some p) :
    (s.rebuildAt i q (c.follow buffer)).sizedResults + p.isSizedResult.toNat
      = s.sizedResults + q.isSizedResult.toNat :=
  countP_map_set (c.isSizedResult_follow buffer) hp

/-- At the other places stand the edited parameters. -/
theorem elsewhere_rebuildAt {rel : Parameter → Parameter → Prop} {f : Parameter → Parameter}
    (hp : s.params[i]? = some p) (h : ∀ r, f r ∈ (s.rebuildAt i q f).params → rel r (f r)) :
    Elsewhere rel s i (s.rebuildAt i q f) := by
  intro j hj
  have hplace : (s.rebuildAt i q f).params[j]? = s.params[j]?.map f := by
    rw [rebuildAt, withParams, getElem?_map_set hp, if_neg hj]
  rw [hplace]
  cases hr : s.params[j]? with
  | none => exact .none
  | some r =>
    rw [hr] at hplace
    exact .some (h r (List.mem_of_getElem? hplace))

/-- Every overload that is not generic rebuilds the parameter at some place. -/
theorem exists_specializes_of_mem_overloads {v : Overload} (hv : v ∈ s.overloads)
    (h : v.variant ≠ .generic) : ∃ i, s.Specializes i v.variant v.signature := by
  rcases mem_overloads_iff.mp hv with rfl | ⟨i, p, hp, hof⟩
  · exact absurd rfl h
  · exact ⟨i, p, hp, mem_overloadsOf_iff.mpr hof⟩

/-- The overload for one form of a parameter rebuilds it in that form. -/
theorem Specializes.exists_inForm? {n : String} {form : Pointee}
    (h : s.Specializes i (.multiType n form) t) :
    ∃ p q, s.params[i]? = some p ∧ p.inForm? form = some q ∧
      t = s.rebuildAt i q (Choice.follow (.form form) p.name) := by
  obtain ⟨p, hp, h⟩ := h
  obtain ⟨_ | _, q, hq, heq⟩ := mem_overloadsOf_iff_rebuild.mp h
  · cases heq
    rw [Choice.rebuild?] at hq
    split at hq
    · exact ⟨p, q, hp, hq, rfl⟩
    · cases hq
  · cases heq

/-- The overload for one value of a parameter rebuilds it as that value. -/
theorem Specializes.exists_asValue? {n : String} (h : s.Specializes i (.singleValue n) t) :
    ∃ p q, s.params[i]? = some p ∧ p.asValue? = some q ∧
      t = s.rebuildAt i q (Choice.follow .value p.name) := by
  obtain ⟨p, hp, h⟩ := h
  obtain ⟨_ | _, q, hq, heq⟩ := mem_overloadsOf_iff_rebuild.mp h
  · cases heq
  · cases heq
    exact ⟨p, q, hp, hq, rfl⟩

end Signature

/-! ## §3 Two counts -/

namespace Parameter

variable {r : Parameter} {m n : Nat}

/-- Beside the count one, an output of worked-out length is not passed as an array. -/
theorem isArray_one (h : r.SizedResult) : r.isArray 1 = false := by
  rw [isArray, isSizedResult_iff.mpr h]
  exact Bool.and_false _

/-- Any other parameter is passed as it crosses, and so is every parameter beside any other count. -/
theorem isArray_of_ne_one (h : ¬r.SizedResult ∨ n ≠ 1) :
    r.isArray n = r.type.crossing.isArray := by
  have hkept : (r.isSizedResult && n == 1) = false := by
    rcases h with h | h
    · rw [isSizedResult_eq_false_iff.mpr h, Bool.false_and]
    · rw [beq_false_of_ne h, Bool.and_false]
  rw [isArray, hkept, Bool.not_false, Bool.and_true]

/-- **When the count goes down**, the outputs of worked-out length that cross as arrays are the only
ones for which it may matter, and it matters to them when it arrives at one. -/
theorem isArray_ne_iff (hle : m ≤ n) (hpos : r.SizedResult → 0 < m) :
    r.isArray m ≠ r.isArray n ↔
      r.type.crossing.isArray = true ∧ r.SizedResult ∧ m = 1 ∧ 1 < n := by
  refine ⟨fun h => ?_, ?_⟩
  · have hsized : r.SizedResult := by
      by_contra hother
      exact h ((isArray_of_ne_one (.inl hother)).trans (isArray_of_ne_one (.inl hother)).symm)
    have hm : m = 1 := by
      by_contra hm
      have hn : n ≠ 1 := by
        have hcounted := hpos hsized
        omega
      exact h ((isArray_of_ne_one (.inr hm)).trans (isArray_of_ne_one (.inr hn)).symm)
    have hn : n ≠ 1 := fun hn => h (by rw [hm, hn])
    rw [hm, isArray_one hsized, isArray_of_ne_one (.inr hn), ne_comm, ne_eq,
      Bool.not_eq_false] at h
    exact ⟨h, hsized, hm, by omega⟩
  · rintro ⟨harray, hsized, rfl, hn⟩
    rw [isArray_one hsized, isArray_of_ne_one (.inr (Nat.ne_of_gt hn)), harray]
    exact Bool.false_ne_true

end Parameter

/-! ## §4 The overloads -/

namespace Signature

variable {s t : Signature} {i : Nat} {p : Parameter}

/-- The count is one in `t`, and was more in `s`. -/
def DropsToOne (s t : Signature) : Prop := t.sizedResults = 1 ∧ 1 < s.sizedResults

/-- The parameter `r'` of `t` is passed as the parameter `r` of `s` is, unless the count drops to
one. Then an output of worked-out length is not passed as an array any more. -/
structure FollowsCount (s t : Signature) (r r' : Parameter) : Prop where
  differs_iff : t.takesArray r' ≠ s.takesArray r ↔
    r.type.crossing.isArray = true ∧ r.SizedResult ∧ s.DropsToOne t
  returned : r.SizedResult → s.DropsToOne t → t.takesArray r' = false

/-- One form of a buffer leaves the count as it is. -/
theorem Specializes.sizedResults_multiType {n : String} {form : Pointee}
    (h : s.Specializes i (.multiType n form) t) : t.sizedResults = s.sizedResults := by
  obtain ⟨p, q, hp, hq, rfl⟩ := h.exists_inForm?
  have hcount := sizedResults_rebuildAt (q := q) (.form form) p.name hp
  rw [Parameter.isSizedResult_inForm? hq] at hcount
  exact Nat.add_right_cancel hcount

/-- One form of a buffer leaves all other parameters passed as they are. -/
theorem Specializes.takesArray_multiType {n : String} {form : Pointee}
    (h : s.Specializes i (.multiType n form) t) :
    Elsewhere (fun r r' => t.takesArray r' = s.takesArray r) s i t := by
  have hcount := h.sizedResults_multiType
  obtain ⟨p, q, hp, -, rfl⟩ := h.exists_inForm?
  refine elsewhere_rebuildAt hp fun r _ => ?_
  rw [takesArray, takesArray, hcount, Choice.isArray_follow]

/-- A single value is not counted any more. -/
theorem Specializes.sizedResults_singleValue {n : String} (hp : s.params[i]? = some p)
    (h : s.Specializes i (.singleValue n) t) :
    t.sizedResults + p.isSizedResult.toNat = s.sizedResults := by
  obtain ⟨p', q, hp', hq, rfl⟩ := h.exists_asValue?
  obtain rfl : p' = p := Option.some.inj (hp'.symm.trans hp)
  have hcount := sizedResults_rebuildAt (q := q) .value p'.name hp
  rwa [Parameter.isSizedResult_asValue? hq] at hcount

/-- All other parameters follow the count. -/
theorem Specializes.followsCount {n : String} (h : s.Specializes i (.singleValue n) t) :
    Elsewhere (s.FollowsCount t) s i t := by
  obtain ⟨p, q, hp, -, rfl⟩ := h.exists_asValue?
  have hle := Nat.le.intro (h.sizedResults_singleValue hp)
  refine elsewhere_rebuildAt hp fun r hr => ?_
  -- what was counted at another place still is, so the count cannot drop to zero
  have hpos (hsized : r.SizedResult) :
      0 < (s.rebuildAt i q (Choice.follow .value p.name)).sizedResults := by
    refine List.countP_pos_iff.mpr ⟨_, hr, ?_⟩
    rw [Choice.isSizedResult_follow]
    exact Parameter.isSizedResult_iff.mpr hsized
  refine ⟨?_, fun hsized hdrops => ?_⟩
  · rw [takesArray, takesArray, Choice.isArray_follow]
    exact Parameter.isArray_ne_iff hle hpos
  · rw [takesArray, Choice.isArray_follow, hdrops.1, Parameter.isArray_one hsized]

/-- **For which parameters of an overload the caller passes an array.** The overload for one form of
a parameter has the count of the signature, and every other parameter is passed as it was. The
overload for one value of a parameter has one less if the parameter was an output of worked-out
length, and the same count if not; another parameter is passed as it was, save that an output of
worked-out length is no longer passed as an array where the count drops to one. -/
theorem takesArray_of_overloads (s : Signature) :
    (∀ v ∈ s.overloads, v.variant ≠ .generic → ∃ i, s.Specializes i v.variant v.signature) ∧
    (∀ (i : Nat) (n : String) (form : Pointee) (t : Signature),
      s.Specializes i (.multiType n form) t →
      t.sizedResults = s.sizedResults ∧
        Elsewhere (fun r r' => t.takesArray r' = s.takesArray r) s i t) ∧
    ∀ (i : Nat) (n : String) (t : Signature) (p : Parameter),
      s.Specializes i (.singleValue n) t → s.params[i]? = some p →
      (p.SizedResult → t.sizedResults + 1 = s.sizedResults) ∧
        (¬p.SizedResult → t.sizedResults = s.sizedResults) ∧
        Elsewhere (s.FollowsCount t) s i t := by
  refine ⟨fun v hv => exists_specializes_of_mem_overloads hv,
    fun i n form t h => ⟨h.sizedResults_multiType, h.takesArray_multiType⟩,
    fun i n t p h hp => ⟨fun hsized => ?_, fun hother => ?_, h.followsCount⟩⟩
  · rw [← h.sizedResults_singleValue hp, Parameter.isSizedResult_iff.mpr hsized]
    rfl
  · rw [← h.sizedResults_singleValue hp, Parameter.isSizedResult_eq_false_iff.mpr hother]
    rfl

/-- The results of a query, or one of them; their number is worked out for the caller. -/
def results : Parameter where
  name := "results"
  type := .pointerTo (.scalar "int32_t" .int)
  direction := .output
  qualifiers := .ofList [⟨.autoSizeResult, ()⟩, ⟨.singleValue, ⟨"result"⟩⟩]

/-- The sizes of the results; their number is worked out as well. -/
def sizes : Parameter where
  name := "sizes"
  type := .pointerTo (.scalar "int32_t" .int)
  direction := .output
  qualifiers := .ofList [⟨.autoSizeResult, ()⟩]

/-- What is asked for, as bytes or as floats. -/
def request : Parameter where
  name := "request"
  type := .pointerTo .nothing
  qualifiers := .ofList [⟨.multiType, ⟨[.byte, .float]⟩⟩]

def query : Signature where
  name := "query"
  params := [results, sizes, request]

/-- Two numbers are worked out for the query, so both outputs are passed as arrays, with the request
as floats too. With one value for the results only the sizes are left, and they are not passed as
an array. -/
theorem takesArray_of_overloads_query :
    query.sizedResults = 2 ∧ query.takesArray sizes = true ∧
    (∃ t, query.Specializes 2 (.multiType request.name .float) t ∧ t.sizedResults = 2) ∧
    ∃ t r, query.Specializes 0 (.singleValue results.name) t ∧ t.sizedResults = 1 ∧
      t.params[1]? = some r ∧ t.takesArray r = false := by
  obtain ⟨-, hform, hvalue⟩ := takesArray_of_overloads query
  have htwo : query.sizedResults = 2 := by decide +kernel
  refine ⟨htwo, by decide +kernel, ?_, ?_⟩
  · obtain ⟨⟨-, t⟩, ht, rfl⟩ : ∃ v ∈ query.overloadsOf 2 request,
        v.variant = .multiType request.name .float := by decide +kernel
    have hspecializes : query.Specializes 2 (.multiType request.name .float) t :=
      ⟨request, rfl, ht⟩
    exact ⟨t, hspecializes, (hform _ _ _ _ hspecializes).1.trans htwo⟩
  · obtain ⟨⟨-, t⟩, ht, rfl⟩ : ∃ v ∈ query.overloadsOf 0 results,
        v.variant = .singleValue results.name := by decide +kernel
    have hspecializes : query.Specializes 0 (.singleValue results.name) t := ⟨results, rfl, ht⟩
    obtain ⟨hless, -, helsewhere⟩ := hvalue 0 _ t results hspecializes rfl
    have hone : t.sizedResults = 1 :=
      Nat.succ.inj ((hless ⟨rfl, by decide +kernel⟩).trans htwo)
    have hrel : Option.Rel (query.FollowsCount t) (some sizes) t.params[1]? :=
      helsewhere 1 Nat.one_ne_zero
    generalize hr : t.params[1]? = found at hrel
    cases hrel with
    | some hfollows =>
      refine ⟨t, _, hspecializes, hone, hr, hfollows.returned ⟨rfl, by decide +kernel⟩ ?_⟩
      exact ⟨hone, htwo ▸ Nat.one_lt_two⟩

end Signature

end Interop
