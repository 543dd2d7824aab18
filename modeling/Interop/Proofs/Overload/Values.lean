import Interop.Proofs.Overload.Changes
import Interop.Proofs.Overload.References

/-!
# Interop.Proofs.Overload.Values — all that a single value changes.

A buffer that is passed as one value becomes another parameter, and the lengths that were tied to it
have no buffer to be lengths of. They become the constant one, whichever of their buffers it was, and
whatever scale they had. So the constant is what the length of one element was declared to be only
where the length was not scaled.

## Main statements

* **`changes_iff_of_singleValue`** — the overload for one value of a buffer is the signature that is
  described by `BecomesValue` for the buffer and by `LosesBuffer` for all other parameters.
* **`expression_of_singleValue`** — the length of a single value, against the declared length of one
  element.
* **`not_scaled_fillWords`** — a scaled length, and a constant that is not.
-/

namespace Interop

open Qualifier (Kind KindSet AutoSize)

/-! ## §1 The parameters of an overload for one value -/

namespace Parameter

/-- The qualifiers of `r'` are those of `r` without the dropped kinds, and a length tied to the
buffer has given way to the constant one, with no parameter kept for it. -/
structure FixesLength (dropped : List Kind) (buffer : String) (r r' : Parameter) : Prop where
  gone : ∀ k ∈ dropped, r'.qualifiers.get? k = none
  tied : r.SizeOf buffer → r'.qualifiers.get? .autoSize = none ∧
    r'.qualifiers.get? .expression = some ⟨"1", false⟩
  free : ¬ r.SizeOf buffer → r'.qualifiers.get? .autoSize = r.qualifiers.get? .autoSize ∧
    r'.qualifiers.get? .expression = r.qualifiers.get? .expression
  kept : ∀ k, k ∉ dropped → k ≠ .autoSize → k ≠ .expression →
    r'.qualifiers.get? k = r.qualifiers.get? k

/-- `r'` is `r` after the buffer of that name became a value: only its qualifiers may change, and of
these only a length tied to the buffer. -/
structure LosesBuffer (buffer : String) (r r' : Parameter) : Prop where
  frame : r' = r.withQualifiers r'.qualifiers
  qualifiers : r.FixesLength [] buffer r'

/-- The kinds that a buffer loses when it becomes a value: all that describe how it is passed, and
the permission to be null. -/
def valueDrops : List Kind := [.pointerArray, .returnCarrier, .singleValue, .multiType, .nullable]

/-- `q` is one value of the buffer `p`: an input of the type of its elements under a name of its own.
Its role and its documentation stay. -/
structure BecomesValue (name : String) (element : CType) (p q : Parameter) : Prop where
  frame : q = { p with name := name, type := element, direction := .input,
                       qualifiers := q.qualifiers }
  qualifiers : p.FixesLength valueDrops p.name q

variable {p q r r' r₁ r₂ : Parameter} {buffer : String}

/-- What is left of the qualifiers is determined. -/
theorem FixesLength.unique {dropped : List Kind} (h₁ : r.FixesLength dropped buffer r₁)
    (h₂ : r.FixesLength dropped buffer r₂) : r₁.qualifiers = r₂.qualifiers := by
  have hlength : r₁.qualifiers.get? .autoSize = r₂.qualifiers.get? .autoSize ∧
      r₁.qualifiers.get? .expression = r₂.qualifiers.get? .expression := by
    by_cases hsize : r.SizeOf buffer
    · obtain ⟨hsize₁, hexpr₁⟩ := h₁.tied hsize
      obtain ⟨hsize₂, hexpr₂⟩ := h₂.tied hsize
      exact ⟨hsize₁.trans hsize₂.symm, hexpr₁.trans hexpr₂.symm⟩
    · obtain ⟨hsize₁, hexpr₁⟩ := h₁.free hsize
      obtain ⟨hsize₂, hexpr₂⟩ := h₂.free hsize
      exact ⟨hsize₁.trans hsize₂.symm, hexpr₁.trans hexpr₂.symm⟩
  refine QualifierSet.ext_get? fun k => ?_
  by_cases hsize : k = .autoSize
  · subst hsize
    exact hlength.1
  · by_cases hexpr : k = .expression
    · subst hexpr
      exact hlength.2
    · by_cases hgone : k ∈ dropped
      · rw [h₁.gone k hgone, h₂.gone k hgone]
      · rw [h₁.kept k hgone hsize hexpr, h₂.kept k hgone hsize hexpr]

/-- A length tied to the buffer gives way to the constant one. -/
theorem get?_fixLength_of_sizeOf (h : r.SizeOf buffer) :
    (r.fixLength buffer).qualifiers.get? .autoSize = none ∧
      (r.fixLength buffer).qualifiers.get? .expression = some ⟨"1", false⟩ := by
  obtain ⟨a, ha, hm⟩ := h
  rcases r.fixLength_cases buffer with ⟨-, -, -, hfix⟩ | ⟨hnot, -⟩
  · have hput (k : Kind) : (r.fixLength buffer).qualifiers.get? k =
        ((r.qualifiers.erase .autoSize).put .expression ⟨"1", false⟩).get? k := by
      rw [hfix]
      rfl
    refine ⟨?_, ?_⟩
    · rw [hput, QualifierSet.get?_put, dif_neg (by decide), QualifierSet.get?_erase, if_pos rfl]
    · rw [hput, QualifierSet.get?_put, dif_pos rfl]
  · exact absurd hm (hnot a ha)

/-- Any other parameter stays as it is. -/
theorem fixLength_of_not_sizeOf (h : ¬ r.SizeOf buffer) : r.fixLength buffer = r := by
  rcases r.fixLength_cases buffer with ⟨a, ha, hm, -⟩ | ⟨-, hfix⟩
  · exact absurd ⟨a, ha, hm⟩ h
  · exact hfix

/-- No length is tied to the buffer after that. -/
theorem not_sizeOf_fixLength (r : Parameter) (buffer : String) :
    ¬ (r.fixLength buffer).SizeOf buffer := by
  rw [sizeOf_fixLength]
  rintro ⟨h, hnot⟩
  exact hnot h

/-- Lengths are fixed as they are said to be. -/
theorem fixesLength_fixLength (r : Parameter) (buffer : String) :
    r.FixesLength [] buffer (r.fixLength buffer) where
  gone := nofun
  tied := get?_fixLength_of_sizeOf
  free h := by
    rw [fixLength_of_not_sizeOf h]
    exact ⟨rfl, rfl⟩
  kept k _ hsize hexpr := r.get?_fixLength_of_ne buffer hsize hexpr

theorem losesBuffer_fixLength (r : Parameter) (buffer : String) :
    r.LosesBuffer buffer (r.fixLength buffer) :=
  ⟨r.fixLength_eq buffer, r.fixesLength_fixLength buffer⟩

/-- **The other parameters.** Of each of them one parameter is left. -/
theorem losesBuffer_iff : r.LosesBuffer buffer r' ↔ r' = r.fixLength buffer := by
  have hfix := r.losesBuffer_fixLength buffer
  refine ⟨fun h => ?_, ?_⟩
  · calc r' = r.withQualifiers r'.qualifiers := h.frame
      _ = r.withQualifiers (r.fixLength buffer).qualifiers := by
        rw [h.qualifiers.unique hfix.qualifiers]
      _ = r.fixLength buffer := hfix.frame.symm
  · rintro rfl
    exact hfix

/-- A single value keeps all kinds but those it drops. -/
theorem get?_asValue?_eq (h : p.asValue? = some q) (k : Kind) :
    q.qualifiers.get? k = if k ∈ valueDrops then none else p.qualifiers.get? k := by
  have hdrops : (KindSet.arrayKinds.contains k = true ∨ k = .nullable) ↔ k ∈ valueDrops := by
    cases k <;> decide
  rw [get?_asValue? h]
  exact if_congr hdrops rfl rfl

/-- A single value, with its own length fixed, is as it is said to be. -/
theorem becomesValue_fixLength {single : Qualifier.SingleValue} {element : CType}
    (hsingle : p.qualifiers.get? .singleValue = some single)
    (helement : p.type.element? = some element) (h : p.asValue? = some q) :
    p.BecomesValue single.name element (q.fixLength p.name) where
  frame := by
    obtain ⟨single', element', hsingle', helement', -, rfl⟩ := asValue?_eq_some_iff.mp h
    obtain rfl := Option.some.inj (hsingle'.symm.trans hsingle)
    obtain rfl := Option.some.inj (helement'.symm.trans helement)
    rw [fixLength_eq]
    rfl
  qualifiers :=
    have hfixes := q.fixesLength_fixLength p.name
    { gone := fun k hk => by
        have hne : k ≠ .autoSize ∧ k ≠ .expression := by
          revert hk
          cases k <;> decide
        rw [q.get?_fixLength_of_ne p.name hne.1 hne.2, get?_asValue?_eq h, if_pos hk]
      tied := fun hsize => hfixes.tied ((sizeOf_asValue? h).mpr hsize)
      free := fun hsize => by
        have hfree := hfixes.free (mt (sizeOf_asValue? h).mp hsize)
        rw [get?_asValue?_eq h, if_neg (by decide), get?_asValue?_eq h,
          if_neg (by decide)] at hfree
        exact hfree
      kept := fun k hk hsize hexpr => by
        rw [hfixes.kept k List.not_mem_nil hsize hexpr, get?_asValue?_eq h, if_neg hk] }

/-- **The value.** Of the buffer one parameter is left as well. -/
theorem becomesValue_iff {single : Qualifier.SingleValue} {element : CType}
    (hsingle : p.qualifiers.get? .singleValue = some single)
    (helement : p.type.element? = some element) (h : p.asValue? = some q) {q' : Parameter} :
    p.BecomesValue single.name element q' ↔ q' = q.fixLength p.name := by
  have hvalue := becomesValue_fixLength hsingle helement h
  refine ⟨fun h' => ?_, ?_⟩
  · rw [h'.frame, hvalue.frame, h'.qualifiers.unique hvalue.qualifiers]
  · rintro rfl
    exact hvalue

end Parameter

/-! ## §2 The overload for one value -/

namespace Signature

variable {s : Signature} {i : Nat} {p : Parameter}

/-- **All that one value changes.** Take a pointer or an array that is no handle and may be passed
as one value. There is an overload for this value of the parameter, and among the overloads of the
parameter only one. Its signature is the only one that differs from the given one as said: the
parameter becomes the value, all other parameters lose the buffer, and everything else stays. No
length in it is tied to the old name. -/
theorem changes_iff_of_singleValue {single : Qualifier.SingleValue} {element : CType}
    (hp : s.params[i]? = some p) (hsingle : p.qualifiers.get? .singleValue = some single)
    (helement : p.type.element? = some element) (hhandle : p.type.isHandle = false) :
    ∃ v ∈ s.overloads, v ∈ s.overloadsOf i p ∧ v.variant = .singleValue p.name ∧
      (∀ w ∈ s.overloadsOf i p, w.variant = v.variant → w = v) ∧
      (∀ s', s.Changes i (Parameter.BecomesValue single.name element)
        (Parameter.LosesBuffer p.name) s' ↔ s' = v.signature) ∧
      ∀ r ∈ v.signature.params, ¬ r.SizeOf p.name := by
  obtain ⟨q, hq⟩ : ∃ q, p.asValue? = some q :=
    ⟨_, Parameter.asValue?_eq_some_iff.mpr ⟨single, element, hsingle, helement, hhandle, rfl⟩⟩
  have hv : s.valueOverload? i p = some ⟨.singleValue p.name, s.withValue i p q⟩ :=
    valueOverload?_eq_some_iff.mpr ⟨q, hq, rfl⟩
  have hof : ⟨.singleValue p.name, s.withValue i p q⟩ ∈ s.overloadsOf i p :=
    mem_overloadsOf_iff.mpr (.inr hv)
  refine ⟨_, mem_overloads_iff.mpr (.inr ⟨i, p, hp, mem_overloadsOf_iff.mp hof⟩), hof, rfl,
    fun w hw => eq_of_variant_eq hof hw, fun s' => ?_, fun r hr => ?_⟩
  · have hhere (q' : Parameter) :
        p.BecomesValue single.name element q' ↔ q' = q.fixLength p.name :=
      Parameter.becomesValue_iff hsingle helement hq
    have hthere (r r' : Parameter) : r.LosesBuffer p.name r' ↔ r' = r.fixLength p.name :=
      Parameter.losesBuffer_iff
    exact changes_iff hp hhere hthere
  · rcases (mem_params_withValue_iff hp).mp hr with rfl | ⟨j, r, -, -, rfl⟩
    · exact q.not_sizeOf_fixLength p.name
    · exact r.not_sizeOf_fixLength p.name

/-- Values to clear a buffer with, or one value, with their own length. -/
def values : Parameter where
  name := "values"
  type := .pointerTo (.scalar "float" .float)
  direction := .both
  qualifiers :=
    .ofList [⟨.const, ()⟩, ⟨.nullable, ⟨false⟩⟩, ⟨.autoSize, ⟨"values", [], none⟩⟩,
      ⟨.singleValue, ⟨"value"⟩⟩]
  doc := some "What to clear with."

/-- A function that clears a buffer; one length is tied to the values behind a mask and has an
expression already, the other to the mask alone. -/
def clear : Signature where
  name := "clear"
  params :=
    [{ name := "size", type := .scalar "size_t" .address,
       qualifiers :=
         .ofList [⟨.autoSize, ⟨"mask", [values.name], none⟩⟩, ⟨.expression, ⟨"n", true⟩⟩] },
     { name := "limit", type := .scalar "size_t" .address,
       qualifiers := .ofList [⟨.autoSize, ⟨"mask", [], none⟩⟩] },
     values,
     { name := "mask", type := .pointerTo (.scalar "uint8_t" .byte) }]

/-- One value to clear with: its own length and the one that depended on it are one, the length of
the mask is what it was. -/
theorem changes_iff_of_singleValue_clear :
    clear.params[2]? = some values ∧ values.qualifiers.get? .singleValue = some ⟨"value"⟩ ∧
    values.type.element? = some (.scalar "float" .float) ∧ values.type.isHandle = false ∧
    ∃ v ∈ clear.overloads, v.variant = .singleValue values.name ∧
      (∀ s', clear.Changes 2 (Parameter.BecomesValue "value" (.scalar "float" .float))
        (Parameter.LosesBuffer values.name) s' ↔ s' = v.signature) ∧
      v.signature.params.map (fun r => (r.name, r.qualifiers.kinds,
          (r.qualifiers.get? .expression).map (·.value))) =
        [("size", .ofList [.expression], some "1"), ("limit", .ofList [.autoSize], none),
          ("value", .ofList [.const, .expression], some "1"), ("mask", .empty, none)] := by
  have hsingle : values.qualifiers.get? .singleValue = some ⟨"value"⟩ := by decide +kernel
  obtain ⟨v, hv, -, hvariant, hunique, hchanges, -⟩ :=
    changes_iff_of_singleValue (s := clear) (i := 2) rfl hsingle rfl rfl
  obtain ⟨w, hw, hw', hparams⟩ : ∃ w ∈ clear.overloadsOf 2 values,
      w.variant = .singleValue values.name ∧
      w.signature.params.map (fun r => (r.name, r.qualifiers.kinds,
          (r.qualifiers.get? .expression).map (·.value))) =
        [("size", .ofList [.expression], some "1"), ("limit", .ofList [.autoSize], none),
          ("value", .ofList [.const, .expression], some "1"), ("mask", .empty, none)] := by
    decide +kernel
  obtain rfl := hunique w hw (hw'.trans hvariant.symm)
  exact ⟨rfl, hsingle, rfl, rfl, w, hv, hvariant, hchanges, hparams⟩

/-! ## §3 The length of one value -/

end Signature

namespace Qualifier

theorem Scale.apply_ne (f : Scale) (count : String) : f.apply count ≠ count := by
  intro h
  have hlength := congrArg String.length h
  rw [Scale.apply, String.length_append, String.length_append] at hlength
  have hspace : " ".length = 1 := rfl
  omega

/-- The length of a buffer of so many elements as it is declared: the count, with the scale behind
it if there is one. -/
def AutoSize.lengthOf (a : AutoSize) (count : String) : String :=
  match a.scale with
  | some f => f.apply count
  | none => count

/-- A length is the bare count exactly when it is not scaled. -/
theorem AutoSize.eq_lengthOf_iff {a : AutoSize} {count : String} :
    count = a.lengthOf count ↔ a.scale = none := by
  rw [lengthOf]
  cases a.scale with
  | none => simp
  | some f => simp [Ne.symm (f.apply_ne count)]

end Qualifier

namespace Signature

variable {s : Signature} {j : Nat} {r : Parameter}

/-- **The length of one value.** In an overload for one value, every length that is tied to the
buffer is given by the constant one, at its old place and with no parameter kept for it. That is
what the length of one element was declared to be exactly when the length was not scaled. -/
theorem expression_of_singleValue {v : Overload} {n : String} {a : AutoSize} (hv : v ∈ s.overloads)
    (hvariant : v.variant = .singleValue n) (hr : s.params[j]? = some r)
    (ha : r.qualifiers.get? .autoSize = some a) (hn : n ∈ a.names) :
    ∃ r' e, v.signature.params[j]? = some r' ∧ r'.qualifiers.get? .autoSize = none ∧
      r'.qualifiers.get? .expression = some e ∧ e.value = "1" ∧ e.keepParameter = false ∧
      (e.value = a.lengthOf "1" ↔ a.scale = none) := by
  obtain ⟨i, p, q, hp, rfl, hq, hsig⟩ := exists_asValue?_of_mem_overloads hv hvariant
  have hsize : r.SizeOf p.name := ⟨a, ha, hn⟩
  have hparams (k : Nat) : v.signature.params[k]? =
      if k = i then some (q.fixLength p.name) else s.params[k]?.map (·.fixLength p.name) := by
    rw [hsig]
    exact getElem?_map_set hp k
  -- the length is the buffer itself, rebuilt, or any other parameter
  obtain ⟨r₀, hr₀, hsize₀⟩ : ∃ r₀ : Parameter,
      v.signature.params[j]? = some (r₀.fixLength p.name) ∧ r₀.SizeOf p.name := by
    by_cases hj : j = i
    · subst hj
      obtain rfl : r = p := Option.some.inj (hr.symm.trans hp)
      exact ⟨q, by rw [hparams, if_pos rfl], (Parameter.sizeOf_asValue? hq).mpr hsize⟩
    · exact ⟨r, by rw [hparams, if_neg hj, hr, Option.map_some], hsize⟩
  obtain ⟨hnone, hone⟩ := Parameter.get?_fixLength_of_sizeOf hsize₀
  exact ⟨_, _, hr₀, hnone, hone, rfl, rfl, AutoSize.eq_lengthOf_iff⟩

/-- A function that fills a buffer of words, or one word; one length counts bytes, the other
words. -/
def fillWords : Signature where
  name := "fillWords"
  params :=
    [{ name := "size", type := .scalar "size_t" .address,
       qualifiers := .ofList [⟨.autoSize, ⟨"words", [], some (.shiftLeft 2)⟩⟩] },
     { name := "count", type := .scalar "int32_t" .int,
       qualifiers := .ofList [⟨.autoSize, ⟨"words", [], none⟩⟩] },
     { name := "words", type := .pointerTo (.scalar "int32_t" .int),
       qualifiers := .ofList [⟨.singleValue, ⟨"word"⟩⟩] }]

/-- The count of words is one for one word, as declared. -/
theorem expression_of_singleValue_fillWords :
    ∃ r a, fillWords.params[1]? = some r ∧ r.qualifiers.get? .autoSize = some a ∧
      "words" ∈ a.names ∧ ∃ v ∈ fillWords.overloads, v.variant = .singleValue "words" ∧
      ∃ r' e, v.signature.params[1]? = some r' ∧ r'.qualifiers.get? .expression = some e ∧
        e.value = a.lengthOf "1" := by
  obtain ⟨v, hv, hvariant⟩ : ∃ v ∈ fillWords.overloads, v.variant = .singleValue "words" := by
    decide +kernel
  obtain ⟨r, hr, a, ha, hn, hscale⟩ : ∃ r ∈ fillWords.params[1]?,
      ∃ a ∈ r.qualifiers.get? .autoSize, "words" ∈ a.names ∧ a.scale = none := by
    decide +kernel
  obtain ⟨r', e, hr', -, he, -, -, hiff⟩ := expression_of_singleValue hv hvariant hr ha hn
  exact ⟨r, a, hr, ha, hn, v, hv, hvariant, r', e, hr', he, hiff.mpr hscale⟩

/-- **A scaled length.** The size of one word is declared to be `1 << 2`, and given by `1`. -/
theorem not_scaled_fillWords :
    ∃ v ∈ fillWords.overloads, v.variant = .singleValue "words" ∧
      ∃ r ∈ fillWords.params[0]?, ∃ a ∈ r.qualifiers.get? .autoSize, a.reference = "words" ∧
        a.lengthOf "1" = "1 << 2" ∧
        ∃ r' ∈ v.signature.params[0]?, ∃ e ∈ r'.qualifiers.get? .expression,
          e.value = "1" ∧ e.value ≠ a.lengthOf "1" := by
  decide +kernel

end Signature

end Interop
