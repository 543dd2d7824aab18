import Interop.Overload

/-!
# Interop.Proofs.Overload.Edits — what an overload changes in its signature.

An overload comes from one parameter of a signature, which it rebuilds, and it brings the lengths
that are tied to that parameter into line. This module says where overloads come from, and what the
edits leave of the qualifiers of a parameter, kind by kind, and of the parameters of a signature,
place by place.
-/

namespace Interop

open Qualifier (Kind KindSet Payload)

/-! ## §1 Where overloads come from -/

namespace Signature

/-- An overload that is not the generic one is one form or the one value of the parameter at some
place. -/
theorem mem_concreteOverloads_iff {s : Signature} {v : Overload} :
    v ∈ s.concreteOverloads ↔ ∃ i p, s.params[i]? = some p ∧
      ((∃ form ∈ p.forms, s.formOverload? i p form = some v) ∨ s.valueOverload? i p = some v) := by
  simp only [concreteOverloads, overloadsOf, List.mem_flatMap, Prod.exists,
    List.mem_zipIdx_iff_getElem?, List.mem_append, List.mem_filterMap, Option.mem_toList]
  exact ⟨fun ⟨p, i, h⟩ => ⟨i, p, h⟩, fun ⟨i, p, h⟩ => ⟨p, i, h⟩⟩

/-- An overload is the generic one, or one form or the one value of the parameter at some place. -/
theorem mem_overloads_iff {s : Signature} {v : Overload} :
    v ∈ s.overloads ↔ v = ⟨.generic, s⟩ ∨ ∃ i p, s.params[i]? = some p ∧
      ((∃ form ∈ p.forms, s.formOverload? i p form = some v) ∨ s.valueOverload? i p = some v) := by
  rw [overloads, List.mem_cons, mem_concreteOverloads_iff]

/-- A single-value overload names the parameter it comes from. -/
theorem valueOverload?_eq_some_iff {s : Signature} {i : Nat} {p : Parameter} {v : Overload} :
    s.valueOverload? i p = some v ↔
      ∃ q, p.asValue? = some q ∧ v = ⟨.singleValue p.name, s.withValue i p q⟩ := by
  rw [valueOverload?, Option.map_eq_some_iff]
  exact exists_congr fun q => and_congr_right fun _ => eq_comm

/-- A multi-type overload names the parameter it comes from, and its form. -/
theorem formOverload?_eq_some_iff {s : Signature} {i : Nat} {p : Parameter} {form : Pointee}
    {v : Overload} :
    s.formOverload? i p form = some v ↔
      ∃ q, p.inForm? form = some q ∧ v = ⟨.multiType p.name form, s.withForm i p q form⟩ := by
  rw [formOverload?, Option.map_eq_some_iff]
  exact exists_congr fun q => and_congr_right fun _ => eq_comm

/-- The overload for the single value of a parameter comes from a parameter of that name. -/
theorem exists_asValue?_of_mem_overloads {s : Signature} {v : Overload} {n : String}
    (hv : v ∈ s.overloads) (hn : v.variant = .singleValue n) :
    ∃ i p q, s.params[i]? = some p ∧ p.name = n ∧ p.asValue? = some q ∧
      v.signature = s.withValue i p q := by
  rcases mem_overloads_iff.mp hv with rfl | ⟨i, p, hp, ⟨form, -, hform⟩ | hvalue⟩
  · cases hn
  · obtain ⟨q, -, rfl⟩ := formOverload?_eq_some_iff.mp hform
    cases hn
  · obtain ⟨q, hq, rfl⟩ := valueOverload?_eq_some_iff.mp hvalue
    cases hn
    exact ⟨i, p, q, hp, rfl, hq, rfl⟩

/-- The overload for one form of a parameter comes from a parameter of that name that may be passed
in that form. -/
theorem exists_inForm?_of_mem_overloads {s : Signature} {v : Overload} {n : String} {form : Pointee}
    (hv : v ∈ s.overloads) (hn : v.variant = .multiType n form) :
    ∃ i p q, s.params[i]? = some p ∧ p.name = n ∧ form ∈ p.forms ∧ p.inForm? form = some q ∧
      v.signature = s.withForm i p q form := by
  rcases mem_overloads_iff.mp hv with rfl | ⟨i, p, hp, ⟨form', hmem, hform⟩ | hvalue⟩
  · cases hn
  · obtain ⟨q, hq, rfl⟩ := formOverload?_eq_some_iff.mp hform
    cases hn
    exact ⟨i, p, q, hp, rfl, hmem, hq, rfl⟩
  · obtain ⟨q, -, rfl⟩ := valueOverload?_eq_some_iff.mp hvalue
    cases hn

end Signature

/-! ## §2 The qualifiers of an edited parameter -/

namespace Parameter

/-- How a parameter follows a buffer that is given a form: the length of the buffer is shifted where
the elements of the form have a fixed width above one byte. -/
def fitLength (p : Parameter) (buffer : String) (form : Pointee) : Parameter :=
  match form.shift? with
  | some (shift + 1) => p.scaleLength buffer (shift + 1)
  | some 0 | none => p

/-- Following a form changes nothing but qualifiers. -/
theorem fitLength_eq (p : Parameter) (buffer : String) (form : Pointee) :
    p.fitLength buffer form = p.withQualifiers (p.fitLength buffer form).qualifiers := by
  unfold fitLength
  split <;> rfl

@[simp] theorem name_fitLength (p : Parameter) (buffer : String) (form : Pointee) :
    (p.fitLength buffer form).name = p.name := by
  rw [fitLength_eq]
  rfl

/-- Following a form touches one kind only. -/
theorem get?_fitLength_of_ne (p : Parameter) (buffer : String) (form : Pointee) {k : Kind}
    (h : k ≠ .autoSize) :
    (p.fitLength buffer form).qualifiers.get? k = p.qualifiers.get? k := by
  unfold fitLength
  split
  · exact QualifierSet.get?_modify_of_ne p.qualifiers _ (Ne.symm h)
  · rfl
  · rfl

/-- **One form.** A pointer or an array keeps its name and changes what it leads to; the kinds of
buffers go. -/
theorem inForm?_eq_some_iff {p q : Parameter} {form : Pointee} :
    p.inForm? form = some q ↔
      ∃ t, p.type.retarget? form = some t ∧ q = (p.retype t p.name).dropArrayKinds := by
  rw [inForm?, Option.map_eq_some_iff]
  exact exists_congr fun t => and_congr_right fun _ => eq_comm

/-- **Array kinds go.** What describes how a buffer is passed is gone; so is the permission to be
null if the parameter could be left out among several forms. Everything else stays. -/
theorem find?_dropArrayKinds (p : Parameter) (k : Kind) :
    p.dropArrayKinds.qualifiers.find? k =
      if KindSet.arrayKinds.contains k = true ∨
        k = .nullable ∧ p.isOptional = true ∧ p.qualifiers.has .multiType = true then none
      else p.qualifiers.find? k := by
  rw [dropArrayKinds, withQualifiers, QualifierSet.find?_eraseAll]
  by_cases harray : KindSet.arrayKinds.contains k = true
  · simp [harray]
  · by_cases hopt : p.isOptional = true ∧ p.qualifiers.has .multiType = true
    · simp [harray, hopt, QualifierSet.find?_erase, eq_comm]
    · have hkeep : (p.isOptional && p.qualifiers.has .multiType) = false := by
        simpa [Bool.and_eq_true] using hopt
      simp [harray, hopt, hkeep]

/-- A length tied to the buffer gives way to the constant one; any other parameter stays as it
is. -/
theorem fixLength_cases (p : Parameter) (buffer : String) :
    (∃ a, p.qualifiers.get? .autoSize = some a ∧ buffer ∈ a.names ∧
      p.fixLength buffer = (p.remove .autoSize).add ⟨.expression, ⟨"1", false⟩⟩) ∨
    (∀ a, p.qualifiers.get? .autoSize = some a → buffer ∉ a.names) ∧ p.fixLength buffer = p := by
  unfold fixLength
  cases ha : p.qualifiers.get? .autoSize with
  | none =>
    right
    refine ⟨fun a h => ?_, rfl⟩
    cases h
  | some a =>
    by_cases hm : buffer ∈ a.names
    · left
      refine ⟨a, rfl, hm, ?_⟩
      simp [Qualifier.AutoSize.mentions, hm]
    · right
      refine ⟨fun b hb => ?_, ?_⟩
      · cases hb
        exact hm
      · simp [Qualifier.AutoSize.mentions, hm]

/-- Fixing lengths changes nothing but qualifiers. -/
theorem fixLength_eq (p : Parameter) (buffer : String) :
    p.fixLength buffer = p.withQualifiers (p.fixLength buffer).qualifiers := by
  rcases p.fixLength_cases buffer with ⟨a, -, -, h⟩ | ⟨-, h⟩
  · rw [h]
    rfl
  · rw [h]
    rfl

@[simp] theorem name_fixLength (p : Parameter) (buffer : String) :
    (p.fixLength buffer).name = p.name := by
  rw [fixLength_eq]
  rfl

/-- Fixing lengths touches two kinds only. -/
theorem get?_fixLength_of_ne (p : Parameter) (buffer : String) {k : Kind} (hsize : k ≠ .autoSize)
    (hexpr : k ≠ .expression) :
    (p.fixLength buffer).qualifiers.get? k = p.qualifiers.get? k := by
  rcases p.fixLength_cases buffer with ⟨a, -, -, h⟩ | ⟨-, h⟩
  · rw [h]
    show ((p.qualifiers.erase .autoSize).put .expression ⟨"1", false⟩).get? k = _
    rw [QualifierSet.get?_put, dif_neg (Ne.symm hexpr), QualifierSet.get?_erase,
      if_neg (Ne.symm hsize)]
  · rw [h]

/-- After fixing, exactly the lengths remain that are not tied to the buffer. -/
theorem get?_autoSize_fixLength (p : Parameter) (buffer : String) {a : Qualifier.AutoSize} :
    (p.fixLength buffer).qualifiers.get? .autoSize = some a ↔
      p.qualifiers.get? .autoSize = some a ∧ buffer ∉ a.names := by
  rcases p.fixLength_cases buffer with ⟨b, hb, hm, h⟩ | ⟨hnot, h⟩
  · rw [h]
    show ((p.qualifiers.erase .autoSize).put .expression ⟨"1", false⟩).get? .autoSize = some a ↔ _
    rw [QualifierSet.get?_put, dif_neg (by decide), QualifierSet.get?_erase, if_pos rfl]
    refine ⟨fun h => ?_, fun ⟨ha, hn⟩ => ?_⟩
    · cases h
    · rw [hb] at ha
      cases ha
      exact absurd hm hn
  · rw [h]
    exact ⟨fun ha => ⟨ha, hnot a ha⟩, And.left⟩

/-- **The single value.** A buffer of values becomes an input of the type of its elements under the
name meant for it; the kinds of buffers go, and it may not be null. -/
theorem asValue?_eq_some_iff {p q : Parameter} :
    p.asValue? = some q ↔ ∃ single element, p.qualifiers.get? .singleValue = some single ∧
      p.type.element? = some element ∧ p.type.isHandle = false ∧
      q = ((p.retypeAs element single.name .input).dropArrayKinds).remove .nullable := by
  unfold asValue?
  cases p.qualifiers.get? .singleValue with
  | none => simp
  | some single =>
    cases p.type.element? with
    | none => simp
    | some element =>
      cases p.type.isHandle with
      | true => simp
      | false => simp [eq_comm]

/-- What a single value keeps of the qualifiers of the buffer. -/
theorem get?_asValue? {p q : Parameter} (h : p.asValue? = some q) (k : Kind) :
    q.qualifiers.get? k =
      if KindSet.arrayKinds.contains k = true ∨ k = .nullable then none
      else p.qualifiers.get? k := by
  obtain ⟨single, element, -, -, -, rfl⟩ := asValue?_eq_some_iff.mp h
  have hdrop := (p.retypeAs element single.name .input).find?_dropArrayKinds k
  show ((p.retypeAs element single.name .input).dropArrayKinds.qualifiers.erase .nullable).get? k
    = _
  rw [QualifierSet.get?_erase]
  by_cases hk : k = .nullable
  · simp [hk]
  · -- the permission to be null is gone in any case, so it does not matter why it was dropped
    rw [if_neg (Ne.symm hk), QualifierSet.get?, hdrop]
    by_cases harray : KindSet.arrayKinds.contains k = true
    · simp [harray]
    · rw [if_neg (by simp [hk, harray]), if_neg (by simp [hk, harray])]
      rfl

end Parameter

/-! ## §3 The parameters of an edited signature -/

namespace Signature

/-- One form changes nothing but parameters: one of them is rebuilt, and all follow it. -/
theorem withForm_eq (s : Signature) (i : Nat) (old new : Parameter) (form : Pointee) :
    s.withForm i old new form =
      s.withParams ((s.params.set i new).map (·.fitLength old.name form)) := by
  unfold withForm Parameter.fitLength
  rcases form.shift? with _ | _ | shift
  · exact congrArg s.withParams (List.map_id' _).symm
  · exact congrArg s.withParams (List.map_id' _).symm
  · rfl

section

-- the parameters of an overload: one is replaced, and then all are edited
variable {ps : List Parameter} {i : Nat} {p new : Parameter} {f : Parameter → Parameter}

/-- Place by place: the edited new one stands at its place, and the others, edited, at theirs. -/
theorem getElem?_map_set (hp : ps[i]? = some p) (j : Nat) :
    ((ps.set i new).map f)[j]? = if j = i then some (f new) else ps[j]?.map f := by
  obtain ⟨hi, -⟩ := List.getElem?_eq_some_iff.mp hp
  rw [List.getElem?_map]
  split
  · rename_i hj
    subst hj
    rw [List.getElem?_set_self hi, Option.map_some]
  · rename_i hj
    rw [List.getElem?_set_ne (Ne.symm hj)]

/-- The parameters are the edited new one and the others, edited. -/
theorem mem_map_set_iff (hp : ps[i]? = some p) {r' : Parameter} :
    r' ∈ (ps.set i new).map f ↔ r' = f new ∨ ∃ j r, j ≠ i ∧ ps[j]? = some r ∧ r' = f r := by
  rw [List.mem_iff_getElem?]
  refine ⟨?_, ?_⟩
  · intro h
    obtain ⟨j, hj⟩ := h
    rw [getElem?_map_set hp] at hj
    split at hj
    · exact .inl (Option.some.inj hj).symm
    · rename_i hij
      obtain ⟨r, hr, rfl⟩ := Option.map_eq_some_iff.mp hj
      exact .inr ⟨j, r, hij, hr, rfl⟩
  · intro h
    rcases h with rfl | ⟨j, r, hj, hr, rfl⟩
    · exact ⟨i, by rw [getElem?_map_set hp, if_pos rfl]⟩
    · exact ⟨j, by rw [getElem?_map_set hp, if_neg hj, hr, Option.map_some]⟩

/-- **What the edits leave alone** changes at the place of the replaced parameter only. -/
theorem map_map_set {α : Type} {g : Parameter → α} (hf : ∀ r, g (f r) = g r) :
    ((ps.set i new).map f).map g = (ps.map g).set i (g new) := by
  rw [List.map_map, ← List.map_set]
  exact List.map_congr_left fun r _ => hf r

/-- What the new parameter shares with the one it replaces changes nowhere. -/
theorem map_map_set_of_eq {α : Type} {g : Parameter → α} (hf : ∀ r, g (f r) = g r)
    (hp : ps[i]? = some p) (hnew : g new = g p) :
    ((ps.set i new).map f).map g = ps.map g := by
  have hg : (ps.map g)[i]? = some (g p) := by rw [List.getElem?_map, hp, Option.map_some]
  obtain ⟨hi, hget⟩ := List.getElem?_eq_some_iff.mp hg
  rw [map_map_set hf, hnew, ← hget, List.set_getElem_self]

/-- **Counting.** What the edits leave alone is counted as before, save at the place of the replaced
parameter. -/
theorem countP_map_set {g : Parameter → Bool} (hf : ∀ r, g (f r) = g r) (hp : ps[i]? = some p) :
    ((ps.set i new).map f).countP g + (g p).toNat = ps.countP g + (g new).toNat := by
  obtain ⟨hi, hget⟩ := List.getElem?_eq_some_iff.mp hp
  have hmap : ((ps.set i new).map f).countP g = (ps.set i new).countP g := by
    rw [List.countP_map]
    exact List.countP_congr fun r _ => by rw [Function.comp_apply, hf]
  have hcounted (b : Bool) : (if b = true then 1 else 0) = b.toNat := by cases b <;> rfl
  -- if the old parameter was counted, there is something to take away
  have hle : (g p).toNat ≤ ps.countP g := by
    cases hgp : g p with
    | false => exact Nat.zero_le _
    | true => exact List.countP_pos_iff.mpr ⟨p, List.mem_of_getElem? hp, hgp⟩
  rw [hmap, List.countP_set hi, hget, hcounted, hcounted]
  omega

end

/-- The parameters of the overload are the single value and the others, all with their lengths
fixed. -/
theorem mem_params_withValue_iff {s : Signature} {i : Nat} {p q r' : Parameter}
    (hp : s.params[i]? = some p) :
    r' ∈ (s.withValue i p q).params ↔
      r' = q.fixLength p.name ∨
        ∃ j r, j ≠ i ∧ s.params[j]? = some r ∧ r' = r.fixLength p.name :=
  mem_map_set_iff hp

/-- No name changes in one form of a buffer. -/
theorem names_withForm {s : Signature} {i : Nat} {p q : Parameter} {form : Pointee}
    (hp : s.params[i]? = some p) (hq : p.inForm? form = some q) :
    (s.withForm i p q form).names = s.names := by
  obtain ⟨t, -, rfl⟩ := Parameter.inForm?_eq_some_iff.mp hq
  rw [withForm_eq]
  exact map_map_set_of_eq (·.name_fitLength p.name form) hp rfl

/-- Only the name of the rebuilt parameter changes. -/
theorem names_withValue (s : Signature) (i : Nat) (old new : Parameter) :
    (s.withValue i old new).names = s.names.set i new.name :=
  map_map_set (·.name_fixLength old.name)

end Signature

end Interop
