import Interop.Proofs.Value.Rendering

/-!
# Interop.Proofs.Signature.Headers — what a binding declares without the headers of the library.

Most values give up their type under a binding. Two kinds keep it, the environment of the host and a
struct passed by value, and a declaration that names them can only be read beside the headers of the
library. Whether a value is *special* is decided elsewhere and for another purpose: it says that the
value cannot be passed straight through. Here the two are put side by side. A struct is special
wherever it stands, so of the values that are not special only the environment keeps its type, and a
function without special values and without an environment is declared in words of C and of the
binding alone.

## Main statements

* **`Prototype.reduces_of_not_isSpecial`** — of a function that has no special value and takes no
  environment, every value gives up its type.
* **`Options.declaration_of_not_isSpecial`** — the texts of the values of a function that has no
  special value and takes no environment are free of all names that the library declares.
-/

namespace Interop

/-! ## §1 Words that need no header -/

/-- The types that carry a value that is not as wide as an address. -/
def plainCarriers : List String :=
  ["void", "uint8_t", "int8_t", "int16_t", "int32_t", "int64_t", "long", "float", "double"]

/-- What can be read without the headers of the library: perhaps `const `, and then the integer type
of the binding or a plain carrier. -/
def Binding.IsPlain (b : Binding) (text : String) : Prop :=
  ∃ isConst : Bool, ∃ carrier ∈ b.addressType :: plainCarriers,
    text = Value.constWord isConst ++ carrier

/-- A number is carried by a plain carrier, unless it is as wide as an address. -/
theorem Scalar.carrier_mem {s : Scalar} (h : s ≠ .address) : s.carrier ∈ plainCarriers := by
  cases s with
  | address => exact absurd rfl h
  | _ => decide

/-- **Only structs are carried under a name of the library.** -/
theorem Binding.carrier_mem (b : Binding) {t : CType} (h : t.isStruct = false) :
    b.carrier t ∈ b.addressType :: plainCarriers := by
  rw [carrier]
  split
  · exact List.mem_cons_self
  · rename_i hsize
    refine List.mem_cons_of_mem _ ?_
    cases t with
    | void n => exact List.mem_cons_self
    | scalar n s => exact Scalar.carrier_mem fun hs => hsize (by rw [hs]; rfl)
    | struct n => cases h
    | _ => exact absurd rfl hsize

/-! ## §2 One value -/

namespace Value

variable {v : Value}

/-- A struct is reached into wherever it stands, and no struct is an array. -/
theorem isSpecial_of_isStruct (h : v.isStruct = true) : v.isSpecial = true := by
  have hunsafe : v.isUnsafe = true := by
    rw [isUnsafe, show v.type.isStruct = true from h, Bool.or_true]
  have harray : v.type.isArray = false := by
    cases htype : v.type with
    | struct n => rfl
    | _ => rw [isStruct, htype] at h; cases h
  rw [isSpecial, hunsafe, harray]
  rfl

theorem isStruct_eq_false (h : v.isSpecial = false) : v.isStruct = false := by
  cases hstruct : v.isStruct with
  | false => rfl
  | true =>
    rw [isSpecial_of_isStruct hstruct] at h
    cases h

/-- A value that gives up its type under a binding is written in plain words. -/
theorem isPlain_render (b : Binding) (h : v.keepsType = false) (asPointer : Bool) :
    b.IsPlain (v.render (some b) asPointer) := by
  have hstruct : v.type.isStruct = false := (keepsType_eq_false_iff.mp h).2
  refine ⟨v.isConst && v.role.isParameter, b.carrier v.type, b.carrier_mem hstruct, ?_⟩
  rw [render_some, if_neg (by rw [h]; exact Bool.false_ne_true)]

end Value

/-! ## §3 Functions -/

namespace Prototype

variable {f : Prototype}

/-- A function is not special exactly when neither its result nor any parameter is. -/
theorem isSpecial_eq_false_iff : f.isSpecial = false ↔
    f.result.toValue.isSpecial = false ∧ ∀ p ∈ f.params, p.toValue.isSpecial = false := by
  show (f.result.toValue.isSpecial || f.params.any (·.toValue.isSpecial)) = false ↔ _
  rw [Bool.or_eq_false_iff, List.any_eq_false]
  simp only [Bool.not_eq_true]

/-- The function takes no environment of the host. -/
def TakesNoEnvironment (f : Prototype) : Prop := ∀ p ∈ f.params, p.isEnvironment = false

/-- **Of a function without special values and without an environment no value keeps its type.** -/
theorem reduces_of_not_isSpecial (hspecial : f.isSpecial = false) (henv : f.TakesNoEnvironment) :
    f.Reduces := by
  obtain ⟨hresult, hparams⟩ := isSpecial_eq_false_iff.mp hspecial
  exact ⟨Value.isStruct_eq_false hresult,
    fun p hp => ⟨henv p hp, Value.isStruct_eq_false (hparams p hp)⟩⟩

end Prototype

/-- **A function without special values is declared without the headers of the library.** Take a
function that has no special value and takes no environment, and any binding. Its declaration puts
together the text of its result, its name, and the text and the name of each parameter. Each of
these texts is perhaps `const `, and then the integer type of the binding or one of the plain
carriers. What the types are called and how they are nested does not show: every other such function
with the same face has the same declaration. -/
theorem Options.declaration_of_not_isSpecial {o : Options} {b : Binding} {f : Prototype}
    (ho : o.binding = some b) (hspecial : f.isSpecial = false) (henv : f.TakesNoEnvironment) :
    o.declaration f
      = f.result.toValue.render (some b) false ++ " " ++ f.name
        ++ "(" ++ ", ".intercalate
          (f.params.map fun p => p.toValue.render (some b) false ++ " " ++ p.name) ++ ")" ∧
    b.IsPlain (f.result.toValue.render (some b) false) ∧
    (∀ p ∈ f.params, b.IsPlain (p.toValue.render (some b) false)) ∧
    ∀ g : Prototype, g.isSpecial = false → g.TakesNoEnvironment → g.face = f.face →
      o.declaration g = o.declaration f := by
  have hreduces : f.Reduces := Prototype.reduces_of_not_isSpecial hspecial henv
  refine ⟨?_, ?_, fun p hp => ?_, fun g hgspecial hgenv hface => ?_⟩
  · rw [declaration, ho]
    rfl
  · exact Value.isPlain_render b (Prototype.keepsType_result hreduces) false
  · exact Value.isPlain_render b (Prototype.keepsType_param hreduces hp) false
  · rw [declaration, declaration, ho]
    exact Prototype.declaration_eq_of_face b
      (Prototype.reduces_of_not_isSpecial hgspecial hgenv) hreduces hface

/-- A matrix set for a program, with a fence in return. -/
def Prototype.setMatrix : Prototype :=
  Signature.prototype
    { name := "setMatrix"
      result := { type := .handle "GLsync", isConst := true }
      params :=
        [{ name := "program", type := .handle "GLhandleARB",
           qualifiers := .ofList [⟨.nullable, ⟨false⟩⟩] },
         { name := "offset", type := .scalar "GLsizeiptr" .address },
         { name := "value", type := .arrayOf (.scalar "GLfloat" .float) 16,
           qualifiers := .ofList [⟨.const, ()⟩] }] }
    (by decide)

/-- Nothing of the matrix function is special, so its texts under a binding are plain; written out
they are words of the binding throughout. -/
theorem Options.declaration_of_not_isSpecial_setMatrix :
    Prototype.setMatrix.isSpecial = false ∧ Prototype.setMatrix.TakesNoEnvironment ∧
    (∀ p ∈ Prototype.setMatrix.params,
      Binding.IsPlain { name := "gl" } (p.toValue.render (some { name := "gl" }) false)) ∧
    ({ binding := some { name := "gl" } } : Options).declaration .setMatrix
      = "intptr_t setMatrix(intptr_t program, intptr_t offset, const intptr_t value)" := by
  have hspecial : Prototype.setMatrix.isSpecial = false := by decide +kernel
  have henv : Prototype.setMatrix.TakesNoEnvironment := by
    rw [Prototype.TakesNoEnvironment]
    decide +kernel
  obtain ⟨hdeclaration, -, hparams, -⟩ :=
    declaration_of_not_isSpecial (o := { binding := some { name := "gl" } }) rfl hspecial henv
  refine ⟨hspecial, henv, hparams, hdeclaration.trans ?_⟩
  decide +kernel

end Interop
