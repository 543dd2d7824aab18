import Interop.Proofs.Generation.Lookup
import Interop.Proofs.Overload.Edits

/-!
# Interop.Proofs.Overload.Prototypes — an overload calls the same native function.

The overloads of a function are so many ways to call one native function, so their prototypes must
not differ where the native side can see it. What is written for a parameter depends on its name,
its type, its role and on whether it is `const`; every other qualifier is for the host alone. Giving
a buffer a form changes what the host finds behind an address, and the address is written as before.
Passing one value changes one parameter for good, and the lengths it brings into line only lose or
gain qualifiers that are not written.

## Main statements

* **`declaration_of_mem_overloads`** — under every binding an overload for one form is declared like
  the generic one, and an overload for one value differs from it in one parameter only.
-/

namespace Interop

open Qualifier (Kind KindSet)

/-! ## §1 What a form leaves of the text of a type -/

namespace CType

variable {t u : CType} {form : Pointee}

/-- What has a form is a pointer, and stays one. -/
theorem isPointer_of_retarget? (h : t.retarget? form = some u) :
    t.isPointer = true ∧ u.isPointer = true := by
  cases t <;> cases h <;> exact ⟨rfl, rfl⟩

theorem isStruct_of_isPointer (h : t.isPointer = true) : t.isStruct = false := by
  cases t with
  | struct n => cases h
  | _ => rfl

/-- Only for a struct does it matter whether structs are asked for as pointers. -/
theorem declarationAs_of_not_isStruct (h : t.isStruct = false) (structAsPointer : Bool) :
    t.declarationAs structAsPointer = t.declaration := by
  rw [declarationAs, h, Bool.and_false, if_neg Bool.false_ne_true]

theorem declarationAs_of_isPointer (h : t.isPointer = true) (structAsPointer : Bool) :
    t.declarationAs structAsPointer = t.declaration :=
  declarationAs_of_not_isStruct (isStruct_of_isPointer h) structAsPointer

end CType

namespace Value

/-- **The form of a buffer is not written.** With or without a binding, a value of the new type is
written like one of the old. -/
theorem typeText_retarget? {v : Value} {u : CType} {form : Pointee}
    (h : v.type.retarget? form = some u) (binding : Option Binding) (structAsPointer : Bool) :
    ({ v with type := u } : Value).typeText binding structAsPointer
      = v.typeText binding structAsPointer := by
  obtain ⟨hold, hnew⟩ := CType.isPointer_of_retarget? h
  have hdecl : u.declarationAs structAsPointer = v.type.declarationAs structAsPointer := by
    rw [CType.declarationAs_of_isPointer hold, CType.declarationAs_of_isPointer hnew]
    exact CType.declaration_retarget? h
  cases binding with
  | none => exact hdecl
  | some b =>
    have hkeeps : ({ v with type := u } : Value).keepsType = v.keepsType := by
      show (v.role == .environment || u.isStruct) = (v.role == .environment || v.type.isStruct)
      rw [CType.isStruct_of_isPointer hold, CType.isStruct_of_isPointer hnew]
    have hcarrier : b.carrier u = b.carrier v.type := by
      rw [carrier_of_isPointer b hold, carrier_of_isPointer b hnew]
    show (if ({ v with type := u } : Value).keepsType = true then u.declarationAs structAsPointer
      else b.carrier u) = _
    rw [hkeeps, hdecl, hcarrier]
    rfl

end Value

/-! ## §2 What the edits leave of the text of a parameter -/

namespace Prototype

variable {p q : Parameter}

/-- **Of the qualifiers only `const` is written.** -/
theorem paramText_withQualifiers (binding : Option Binding) (p : Parameter) {qs : QualifierSet}
    (h : qs.has .const = p.qualifiers.has .const) :
    paramText binding (p.withQualifiers qs) = paramText binding p := by
  have hvalue : (p.withQualifiers qs).toValue.render binding false
      = p.toValue.render binding false := by
    show (if (qs.has .const && (binding.isNone || p.role.isParameter)) = true
      then "const " else "") ++ p.toValue.typeText binding false = _
    rw [h]
    rfl
  rw [paramText, hvalue]
  rfl

/-- The text of a length does not show that it follows a form. -/
theorem paramText_fitLength (binding : Option Binding) (p : Parameter) (buffer : String)
    (form : Pointee) :
    paramText binding (p.fitLength buffer form) = paramText binding p := by
  rw [p.fitLength_eq]
  refine paramText_withQualifiers binding p ?_
  rw [QualifierSet.has_eq_isSome_get?, QualifierSet.has_eq_isSome_get?,
    p.get?_fitLength_of_ne buffer form (by decide)]

/-- The text of a length does not show that it became a constant. -/
theorem paramText_fixLength (binding : Option Binding) (p : Parameter) (buffer : String) :
    paramText binding (p.fixLength buffer) = paramText binding p := by
  rw [p.fixLength_eq]
  refine paramText_withQualifiers binding p ?_
  rw [QualifierSet.has_eq_isSome_get?, QualifierSet.has_eq_isSome_get?,
    p.get?_fixLength_of_ne buffer (by decide) (by decide)]

/-- Nor does the text of the buffer show its form. -/
theorem paramText_inForm? {form : Pointee} (h : p.inForm? form = some q)
    (binding : Option Binding) : paramText binding q = paramText binding p := by
  obtain ⟨t, ht, rfl⟩ := Parameter.inForm?_eq_some_iff.mp h
  have hconst : (p.retype t p.name).dropArrayKinds.qualifiers.has .const
      = (p.retype t p.name).qualifiers.has .const := by
    rw [QualifierSet.has_eq_isSome_find?, QualifierSet.has_eq_isSome_find?,
      Parameter.find?_dropArrayKinds, if_neg (by simp [KindSet.arrayKinds])]
  have htext := Value.typeText_retarget? (v := p.toValue) ht binding false
  calc paramText binding (p.retype t p.name).dropArrayKinds
      = paramText binding (p.retype t p.name) := paramText_withQualifiers binding _ hconst
    _ = paramText binding p := by
        show (if p.toValue.writesConst binding = true then "const " else "")
          ++ ({ p.toValue with type := t } : Value).typeText binding false ++ " " ++ p.name = _
        rw [htext]
        rfl

/-! ## §3 What an overload leaves of the text of a prototype -/

/-- The text of the result. -/
def resultText (f : Prototype) (binding : Option Binding) : String :=
  f.result.toValue.render binding false

/-- The texts of the parameters, in order. -/
def paramTexts (f : Prototype) (binding : Option Binding) : List String :=
  f.params.map (paramText binding)

/-- A declaration is made of the text of the result, the name and the texts of the parameters. -/
theorem declaration_eq_texts (f : Prototype) (binding : Option Binding) :
    f.declaration binding = f.resultText binding ++ " " ++ f.name
      ++ "(" ++ ", ".intercalate (f.paramTexts binding) ++ ")" := rfl

variable {s : Signature} {f g : Prototype} {i : Nat}

/-- No text changes in an overload for one form. -/
theorem paramTexts_of_withForm {form : Pointee} (hf : f.signature = s)
    (hp : s.params[i]? = some p) (hq : p.inForm? form = some q)
    (hg : g.signature = s.withForm i p q form) (binding : Option Binding) :
    g.paramTexts binding = f.paramTexts binding := by
  rw [Signature.withForm_eq] at hg
  rw [paramTexts, ← signature_params, hg, paramTexts, ← signature_params, hf]
  exact Signature.map_map_set_of_eq (paramText_fitLength binding · p.name form) hp
    (paramText_inForm? hq binding)

/-- One text changes in an overload for one value. -/
theorem paramTexts_of_withValue (hf : f.signature = s) (hg : g.signature = s.withValue i p q)
    (binding : Option Binding) :
    g.paramTexts binding = (f.paramTexts binding).set i (paramText binding q) := by
  rw [paramTexts, ← signature_params, hg, paramTexts, ← signature_params, hf]
  exact Signature.map_map_set (paramText_fixLength binding · p.name)

end Prototype

namespace Options

open Prototype

/-- **An overload calls the same native function.** Let a signature and one of its overloads be
frozen, each with or without the check of references. If the overload is for one form of a
parameter, the two are declared by the same text. If it is for one value of a parameter, that
parameter stands at some place of the prototype; the texts of the two results are the same, the
names are the same, there are as many parameters, and the text of every parameter at another place
is the same. Every declaration is put together from these texts and the name: the text of a result
is its value, the text of a parameter its value and its name. -/
theorem declaration_of_mem_overloads {o : Options} {s : Signature} {v : Overload}
    {references references' : Bool} {f g : Prototype} (hv : v ∈ s.overloads)
    (hf : s.freeze references = .ok f) (hg : v.signature.freeze references' = .ok g) :
    (∀ n form, v.variant = .multiType n form → o.declaration g = o.declaration f) ∧
    (∀ n, v.variant = .singleValue n → ∃ (i : Nat) (p : Parameter), f.params[i]? = some p ∧
      p.name = n ∧ g.resultText o.binding = f.resultText o.binding ∧ g.name = f.name ∧
      (g.paramTexts o.binding).length = (f.paramTexts o.binding).length ∧
      ∀ j, j ≠ i → (g.paramTexts o.binding)[j]? = (f.paramTexts o.binding)[j]?) ∧
    ∀ h : Prototype,
      o.declaration h = h.resultText o.binding ++ " " ++ h.name
        ++ "(" ++ ", ".intercalate (h.paramTexts o.binding) ++ ")" ∧
      h.resultText o.binding = h.result.toValue.render o.binding false ∧
      h.paramTexts o.binding
        = h.params.map fun p => p.toValue.render o.binding false ++ " " ++ p.name := by
  obtain ⟨-, hfs⟩ := Signature.freeze_eq_ok_iff.mp hf
  obtain ⟨-, hgs⟩ := Signature.freeze_eq_ok_iff.mp hg
  refine ⟨fun n form hn => ?_, fun n hn => ?_,
    fun h => ⟨h.declaration_eq_texts o.binding, rfl, rfl⟩⟩
  · obtain ⟨i, p, q, hp, -, -, hq, hsig⟩ := Signature.exists_inForm?_of_mem_overloads hv hn
    have hg' : g.signature = s.withForm i p q form := hgs.trans hsig
    have hresult : g.resultText o.binding = f.resultText o.binding := by
      rw [resultText, ← signature_result, hg', Signature.withForm_eq, resultText, ← signature_result,
        hfs]
      rfl
    have hname : g.name = f.name := by
      rw [← signature_name, hg', Signature.withForm_eq, ← signature_name, hfs]
      rfl
    rw [declaration, declaration, declaration_eq_texts, declaration_eq_texts, hresult, hname,
      paramTexts_of_withForm hfs hp hq hg']
  · obtain ⟨i, p, q, hp, hpn, -, hsig⟩ := Signature.exists_asValue?_of_mem_overloads hv hn
    have hg' : g.signature = s.withValue i p q := hgs.trans hsig
    have htexts := paramTexts_of_withValue hfs hg' o.binding
    refine ⟨i, p, ?_, hpn, ?_, ?_, ?_, fun j hij => ?_⟩
    · rw [← signature_params, hfs]
      exact hp
    · rw [resultText, ← signature_result, hg', resultText, ← signature_result, hfs]
      rfl
    · rw [← signature_name, hg', ← signature_name, hfs]
      rfl
    · rw [htexts, List.length_set]
    · rw [htexts, List.getElem?_set_ne (Ne.symm hij)]

/-- The functions of an upload under a binding: the one for floats is declared like the generic one,
the one for a single value takes the size alike. -/
theorem declaration_of_mem_overloads_upload :
    ∃ (o : Options) (f : Prototype), o.binding = some { name := "gl" } ∧
      Signature.upload.freeze true = .ok f ∧
      o.declaration f = "void upload(intptr_t size, intptr_t data)" ∧
      (∃ v ∈ Signature.upload.overloads, v.variant = .multiType "data" .float ∧
        ∃ g, v.signature.freeze true = .ok g ∧ o.declaration g = o.declaration f) ∧
      ∃ v ∈ Signature.upload.overloads, v.variant = .singleValue "data" ∧
        ∃ g, v.signature.freeze true = .ok g ∧
          o.declaration g = "void upload(intptr_t size, float datum)" ∧
          ∃ (i : Nat) (p : Parameter), f.params[i]? = some p ∧ p.name = "data" ∧
            ∀ j, j ≠ i → (g.paramTexts o.binding)[j]? = (f.paramTexts o.binding)[j]? := by
  let o : Options := { binding := some { name := "gl" } }
  have hgeneric : ∃ f ∈ (Signature.upload.freeze true).toOption,
      o.declaration f = "void upload(intptr_t size, intptr_t data)" := by
    decide +kernel
  have hfloats : ∃ v ∈ Signature.upload.overloads, v.variant = .multiType "data" .float ∧
      (v.signature.freeze true).toOption.isSome = true := by
    decide +kernel
  have hdatum : ∃ v ∈ Signature.upload.overloads, v.variant = .singleValue "data" ∧
      ∃ g ∈ (v.signature.freeze true).toOption,
        o.declaration g = "void upload(intptr_t size, float datum)" := by
    decide +kernel
  obtain ⟨f, hf, hftext⟩ := hgeneric
  have hf := Generation.eq_ok_of_mem_toOption hf
  refine ⟨o, f, rfl, hf, hftext, ?_, ?_⟩
  · obtain ⟨v, hv, hvariant, hsome⟩ := hfloats
    obtain ⟨g, hg⟩ := Generation.exists_ok_of_isSome hsome
    exact ⟨v, hv, hvariant, g, hg, (declaration_of_mem_overloads hv hf hg).1 _ _ hvariant⟩
  · obtain ⟨v, hv, hvariant, g, hg, hgtext⟩ := hdatum
    have hg := Generation.eq_ok_of_mem_toOption hg
    obtain ⟨i, p, hp, hpn, -, -, -, htexts⟩ :=
      (declaration_of_mem_overloads hv hf hg).2.1 _ hvariant
    exact ⟨v, hv, hvariant, g, hg, hgtext, i, p, hp, hpn, htexts⟩

end Options

end Interop
