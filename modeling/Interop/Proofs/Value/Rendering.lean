import Interop.Proofs.CType.Derivation
import Interop.Proofs.Signature.Bindings

/-!
# Interop.Proofs.Value.Rendering — the text of a value against the texts of its type.

A type has two texts of its own, its declaration and the name of what carries it. The text of a
value is written apart from both: from the left, a possible `const`, then a name, and last a pointer
marker behind all that stands there. So the marker is set by looking at a text that may start with
`const `. Since `const ` ends in no marker, it comes out as if the type had been written by itself;
and the text of a value is one of the two texts of its type, with or without `const ` in front.

## Main statements

* **`Value.render_eq_write`** — writing a value from the left gives its text.
* **`Value.render_agrees`** — which of the texts of its type a value is written as, with and without
  a binding, and when `const ` stands in front of it.
-/

namespace Interop

/-! ## §1 Markers behind a longer text -/

namespace CType

/-- **A marker looks back only at what it follows.** Behind a text that does not itself end in a
marker, a name is marked as it would be alone. -/
theorem addMarker_append {start : String} (h : start.toList.getLast? ≠ some '*') (text : String) :
    addMarker (start ++ text) = start ++ addMarker text := by
  have hlast : (start ++ text).toList.getLast? = some '*' ↔ text.toList.getLast? = some '*' := by
    rw [String.toList_append, List.getLast?_append]
    cases text.toList.getLast? with
    | none => simpa using h
    | some c => simp
  unfold addMarker
  by_cases htext : text.toList.getLast? = some '*'
  · rw [if_pos (hlast.mpr htext), if_pos htext, String.append_assoc]
  · rw [if_neg (mt hlast.mp htext), if_neg htext, String.append_assoc]

/-- A marker is written behind the name, a struct taking one where it is asked for as a pointer. -/
def marked (t : CType) (structAsPointer : Bool) : Bool :=
  t.takesMarker || (structAsPointer && t.isStruct)

theorem takesMarker_of_isStruct {t : CType} (h : t.isStruct = true) : t.takesMarker = false := by
  cases t with
  | struct n => rfl
  | _ => cases h

theorem declarationAs_eq (t : CType) (structAsPointer : Bool) :
    t.declarationAs structAsPointer
      = if t.marked structAsPointer = true then addMarker t.name else t.name := by
  rw [declarationAs, marked, declaration_eq]
  cases structAsPointer && t.isStruct with
  | true => rw [Bool.or_true, if_pos rfl, if_pos rfl]
  | false => rw [Bool.or_false, if_neg Bool.false_ne_true]

/-- A struct asked for as a pointer is declared as the pointer to it is. -/
theorem declarationAs_of_isStruct {t : CType} (h : t.isStruct = true) :
    t.declarationAs true = t.pointerTo.declaration := by
  rw [declarationAs, h, Bool.and_self, if_pos rfl, declaration_pointerTo, declaration_eq,
    takesMarker_of_isStruct h, if_neg Bool.false_ne_true]

/-- The type written behind a text: its name, and then the marker behind both. -/
def writeAfter (t : CType) (start : String) (structAsPointer : Bool) : String :=
  let text := start ++ t.name
  if t.marked structAsPointer then addMarker text else text

theorem writeAfter_eq {start : String} (h : start.toList.getLast? ≠ some '*') (t : CType)
    (structAsPointer : Bool) :
    t.writeAfter start structAsPointer = start ++ t.declarationAs structAsPointer := by
  rw [declarationAs_eq]
  show (if t.marked structAsPointer = true then addMarker (start ++ t.name) else start ++ t.name)
    = _
  split
  · exact addMarker_append h t.name
  · rfl

end CType

/-! ## §2 Writing from the left -/

namespace Value

/-- What stands in front of a value that is const. -/
def constWord (isConst : Bool) : String := if isConst then "const " else ""

theorem getLast?_constWord (isConst : Bool) :
    (constWord isConst).toList.getLast? ≠ some '*' := by
  cases isConst <;> decide +kernel

/-- The value written from the left, every piece behind all that stands there already. -/
def write (v : Value) (binding : Option Binding) (structAsPointer : Bool) : String :=
  let start := constWord (v.writesConst binding)
  match binding with
  | some b =>
    if v.keepsType then v.type.writeAfter start structAsPointer else start ++ b.carrier v.type
  | none => v.type.writeAfter start structAsPointer

variable (v : Value) (b : Binding) (asPointer : Bool)

/-- **Writing from the left gives the text of the value.** -/
theorem render_eq_write (binding : Option Binding) :
    v.render binding asPointer = v.write binding asPointer := by
  have hafter (isConst : Bool) :
      v.type.writeAfter (constWord isConst) asPointer
        = constWord isConst ++ v.type.declarationAs asPointer :=
    CType.writeAfter_eq (getLast?_constWord isConst) v.type asPointer
  cases binding with
  | none => exact (hafter (v.writesConst none)).symm
  | some b =>
    show constWord (v.writesConst (some b))
        ++ (if v.keepsType = true then v.type.declarationAs asPointer else b.carrier v.type)
      = if v.keepsType = true then v.type.writeAfter (constWord (v.writesConst (some b))) asPointer
        else constWord (v.writesConst (some b)) ++ b.carrier v.type
    rw [hafter]
    split
    · rfl
    · rfl

/-! ## §3 The cases -/

/-- Without a binding a value is written in full, and every const value as such. -/
theorem render_none :
    v.render none asPointer = constWord v.isConst ++ v.type.declarationAs asPointer := by
  show constWord (v.isConst && true) ++ _ = _
  rw [Bool.and_true]
  rfl

/-- Under a binding only parameters are written as const. -/
theorem render_some :
    v.render (some b) asPointer
      = constWord (v.isConst && v.role.isParameter)
        ++ if v.keepsType = true then v.type.declarationAs asPointer else b.carrier v.type := rfl

variable {v b}

theorem keepsType_of_isStruct (h : v.isStruct = true) : v.keepsType = true := by
  rw [keepsType, h, Bool.or_true]

/-- A parameter that keeps its type is written alike with a binding and without. -/
theorem render_eq_of_keepsType (hkeeps : v.keepsType = true) (hrole : v.role.isParameter = true) :
    v.render (some b) asPointer = v.render none asPointer := by
  rw [render_some, render_none, if_pos hkeeps, hrole, Bool.and_true]

/-- Whether structs are asked for as pointers matters only for structs. -/
theorem render_asPointer (h : v.isStruct = false) (binding : Option Binding) :
    v.render binding asPointer = v.render binding false := by
  have hdecl : v.type.declarationAs asPointer = v.type.declarationAs false :=
    CType.declarationAs_of_not_isStruct h asPointer
  cases binding with
  | none => rw [render_none, render_none, hdecl]
  | some b => rw [render_some, render_some, hdecl]

end Value

/-- With the usual integer type for addresses, what carries a value depends on its type alone. -/
theorem Binding.carrier_eq {b : Binding} (h : b.addressType = "intptr_t") {t : CType}
    (hstruct : t.isStruct = false) : b.carrier t = t.carrier := by
  rw [carrier, h]
  cases t with
  | scalar n s => cases s <;> rfl
  | struct n => cases hstruct
  | _ => rfl

/-! ## §4 One of the texts of the type -/

/-- **The text of a value is a text of its type.** Take any value, and structs asked for as
pointers or not.

* The value can be written from the left.
* Without a binding it is written by the declaration of its type, with `const ` in front of it
  exactly when it is const. That structs are asked for as pointers matters for structs only, whether
  or not there is a binding; without one, a struct is then written by the declaration of the pointer
  to it.
* Under every binding the environment of the host, and every parameter that is a struct, is written
  as without a binding. A result that is a struct is written so too, but without `const `.
* All other values are written, under a binding whose addresses are `intptr_t`, by the name of what
  carries their type, with `const ` in front of it exactly when the value is a const parameter. -/
theorem Value.render_agrees (v : Value) (asPointer : Bool) :
    (∀ binding, v.render binding asPointer = v.write binding asPointer) ∧
    v.render none false = constWord v.isConst ++ v.type.declaration ∧
    (v.isStruct = false → ∀ binding, v.render binding asPointer = v.render binding false) ∧
    (v.isStruct = true →
      v.render none true = constWord v.isConst ++ v.type.pointerTo.declaration) ∧
    ∀ b : Binding,
      (v.role = .environment ∨ v.role = .parameter ∧ v.isStruct = true →
        v.render (some b) asPointer = v.render none asPointer) ∧
      (v.role = .result → v.isStruct = true →
        v.render none asPointer = constWord v.isConst ++ v.render (some b) asPointer) ∧
      (v.role ≠ .environment → v.isStruct = false → b.addressType = "intptr_t" →
        v.render (some b) asPointer
          = constWord (v.isConst && v.role.isParameter) ++ v.type.carrier) := by
  refine ⟨v.render_eq_write asPointer, v.render_none false, render_asPointer asPointer,
    fun hstruct => ?_, fun b => ⟨?_, fun hrole hstruct => ?_, fun hrole hstruct haddress => ?_⟩⟩
  · rw [render_none, CType.declarationAs_of_isStruct hstruct]
  · rintro (hrole | ⟨hrole, hstruct⟩)
    · have hkeeps : v.keepsType = true := by rw [keepsType, hrole]; rfl
      exact render_eq_of_keepsType asPointer hkeeps (by rw [hrole]; rfl)
    · exact render_eq_of_keepsType asPointer (keepsType_of_isStruct hstruct) (by rw [hrole]; rfl)
  · have hparameter : v.role.isParameter = false := by rw [hrole]; rfl
    rw [render_none, render_some, if_pos (keepsType_of_isStruct hstruct), hparameter,
      Bool.and_false]
    rfl
  · have hkeeps : v.keepsType = false := keepsType_eq_false_iff.mpr ⟨hrole, hstruct⟩
    rw [render_some, if_neg (by rw [hkeeps]; exact Bool.false_ne_true),
      Binding.carrier_eq haddress hstruct]

/-- A const struct, handed in or returned. -/
def Value.extent (role : Role) : Value := ⟨.struct "VkExtent2D", role, true, ∅⟩

/-- A const number, handed in. -/
def Value.number (name : String) (s : Scalar) : Value := ⟨.scalar name s, .parameter, true, ∅⟩

/-- A binding writes the struct that is handed in by its name and as const, the one that is returned
by its name only, and a const length or number by what carries it. -/
theorem Value.render_agrees_extent :
    (extent .parameter).render (some { name := "VK" }) true = "const VkExtent2D *" ∧
    (extent .result).render none false
      = "const " ++ (extent .result).render (some { name := "VK" }) false ∧
    (number "size_t" .address).render (some { name := "VK" }) true = "const intptr_t" ∧
    (number "jint" .int).render (some { name := "VK" }) true = "const int32_t" ∧
    (number "jlong" .long).render (some { name := "VK" }) true = "const int64_t" := by
  have hnumber (name : String) (s : Scalar) :
      (number name s).render (some { name := "VK" }) true = "const " ++ s.carrier := by
    obtain ⟨-, -, -, -, hbinding⟩ := (number name s).render_agrees true
    exact (hbinding { name := "VK" }).2.2 nofun rfl rfl
  refine ⟨?_, ?_, hnumber _ _, hnumber _ _, hnumber _ _⟩
  · obtain ⟨-, -, -, hpointer, hbinding⟩ := (extent .parameter).render_agrees true
    calc (extent .parameter).render (some { name := "VK" }) true
        = (extent .parameter).render none true := (hbinding _).1 (.inr ⟨rfl, rfl⟩)
      _ = constWord true ++ (CType.struct "VkExtent2D").pointerTo.declaration := hpointer rfl
      _ = "const VkExtent2D *" := by decide +kernel
  · obtain ⟨-, -, -, -, hbinding⟩ := (extent .result).render_agrees false
    exact (hbinding _).2.1 rfl rfl

end Interop
