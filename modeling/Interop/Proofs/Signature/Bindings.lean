import Interop.Generation
import Interop.Proofs.Overload.Prototypes

/-!
# Interop.Proofs.Signature.Bindings — what a binding shows of a function.

A binding passes values by the types that carry them, so that it can be written without the headers
of the library. Two functions may then look the same although their headers name other types. Here
it is said how much of a function is left under a binding: its name, and for each value how it
crosses, and for each parameter also its name and whether it is `const`. No name of a type is among
these, nor what a pointer leads to, nor whether a typedef stands for the pointer, nor any other
qualifier.

Two kinds of values are left out. The environment of the host and a struct passed by value are
written in full under a binding too, and so by the names of their types.

## Main statements

* **`Value.render_eq_of_crossing`** — values that cross alike are written alike.
* **`Prototype.declaration_eq_of_face`** — functions with the same face are declared alike.
-/

namespace Interop

/-! ## §1 What carries a value -/

/-- The C type that carries everything that crosses in this way. A struct is carried by itself, so
there is no such type for structs. -/
def Crossing.carrier? : Crossing → Option String
  | .void => some "void"
  | .scalar s => some s.carrier
  | .pointer _ => some Scalar.address.carrier
  | .struct => none

/-- **How a value crosses settles what carries it**, save for structs. -/
theorem CType.carrier?_crossing (t : CType) :
    t.crossing.carrier? = if t.isStruct then none else some t.carrier := by
  cases t <;> rfl

/-- So under every binding types that cross alike are carried alike. -/
theorem Binding.carrier_eq_of_crossing (b : Binding) {t u : CType} (ht : t.isStruct = false)
    (h : t.crossing = u.crossing) : b.carrier t = b.carrier u := by
  have hu : u.isStruct = false := by
    rw [← Bool.not_eq_true, ← CType.crossing_eq_struct_iff, ← h, CType.crossing_eq_struct_iff, ht]
    exact Bool.false_ne_true
  have hcarrier : some t.carrier = some u.carrier := by
    calc some t.carrier
        = t.crossing.carrier? := by rw [CType.carrier?_crossing, ht]; rfl
      _ = u.crossing.carrier? := by rw [h]
      _ = some u.carrier := by rw [CType.carrier?_crossing, hu]; rfl
  rw [carrier, carrier, h, Option.some.inj hcarrier]

/-! ## §2 One value -/

namespace Value

variable {v w : Value}

/-- A value gives up its type under a binding exactly when it is neither the environment nor a
struct. -/
theorem keepsType_eq_false_iff :
    v.keepsType = false ↔ v.role ≠ .environment ∧ v.isStruct = false := by
  rw [keepsType, Bool.or_eq_false_iff, beq_eq_false_iff_ne]

/-- **Values that cross alike are written alike.** Under a binding the text of a value that gives up
its type depends on how the value crosses and on whether it is a `const` parameter. -/
theorem render_eq_of_crossing (b : Binding) (hv : v.keepsType = false) (hw : w.keepsType = false)
    (hcrossing : v.type.crossing = w.type.crossing)
    (hrole : v.role.isParameter = w.role.isParameter)
    (hconst : v.role.isParameter = true → v.isConst = w.isConst) (asPointer asPointer' : Bool) :
    v.render (some b) asPointer = w.render (some b) asPointer' := by
  have htype : v.typeText (some b) asPointer = w.typeText (some b) asPointer' := by
    have hstruct : v.type.isStruct = false := (keepsType_eq_false_iff.mp hv).2
    rw [typeText, typeText, hv, hw]
    exact b.carrier_eq_of_crossing hstruct hcrossing
  have hwrites : v.writesConst (some b) = w.writesConst (some b) := by
    show (v.isConst && v.role.isParameter) = (w.isConst && w.role.isParameter)
    rw [← hrole]
    -- no `const` is written for a result, so results need not agree in it
    cases hparameter : v.role.isParameter with
    | false => rw [Bool.and_false, Bool.and_false]
    | true => rw [hconst hparameter]
  rw [render, render, htype, hwrites]

end Value

/-! ## §3 Functions -/

/-- What a parameter shows under a binding. -/
structure Parameter.Face where
  name : String
  crossing : Crossing
  isConst : Bool
  deriving DecidableEq

def Parameter.face (p : Parameter) : Parameter.Face :=
  ⟨p.name, p.type.crossing, p.qualifiers.has .const⟩

theorem Parameter.isParameter_role (p : Parameter) : p.role.isParameter = true := by
  unfold role
  split
  · rfl
  · rfl

/-- What a function shows under a binding. -/
structure Prototype.Face where
  name : String
  result : Crossing
  params : List Parameter.Face
  deriving DecidableEq

namespace Prototype

def face (f : Prototype) : Face := ⟨f.name, f.result.type.crossing, f.params.map Parameter.face⟩

/-- No value of the function is written in full under a binding: it takes no environment, and it
neither takes nor returns a struct by value. -/
structure Reduces (f : Prototype) : Prop where
  result : f.result.type.isStruct = false
  params : ∀ p ∈ f.params, p.isEnvironment = false ∧ p.type.isStruct = false

variable {f g : Prototype} {p q : Parameter}

theorem keepsType_param (h : f.Reduces) (hp : p ∈ f.params) : p.toValue.keepsType = false := by
  obtain ⟨henvironment, hstruct⟩ := h.params p hp
  refine Value.keepsType_eq_false_iff.mpr ⟨?_, hstruct⟩
  show p.role ≠ .environment
  rw [Parameter.role, henvironment]
  exact nofun

theorem keepsType_result (h : f.Reduces) : f.result.toValue.keepsType = false := by
  refine Value.keepsType_eq_false_iff.mpr ⟨?_, h.result⟩
  show Role.result ≠ .environment
  exact nofun

/-- A parameter is written from its face. -/
theorem paramText_eq_of_face (b : Binding) (hp : p.toValue.keepsType = false)
    (hq : q.toValue.keepsType = false) (h : p.face = q.face) :
    paramText (some b) p = paramText (some b) q := by
  obtain ⟨hname, hcrossing, hconst⟩ := Parameter.Face.mk.inj h
  have hrole : p.toValue.role.isParameter = q.toValue.role.isParameter :=
    p.isParameter_role.trans q.isParameter_role.symm
  have hvalue : p.toValue.render (some b) false = q.toValue.render (some b) false :=
    Value.render_eq_of_crossing b hp hq hcrossing hrole (fun _ => hconst) false false
  rw [paramText, paramText, hvalue, hname]

/-- So is a list of parameters. -/
theorem map_paramText_eq_of_face (b : Binding) {ps qs : List Parameter}
    (hps : ∀ p ∈ ps, p.toValue.keepsType = false) (hqs : ∀ q ∈ qs, q.toValue.keepsType = false)
    (h : ps.map Parameter.face = qs.map Parameter.face) :
    ps.map (paramText (some b)) = qs.map (paramText (some b)) := by
  induction ps generalizing qs with
  | nil => rw [List.map_eq_nil_iff.mp h.symm]
  | cons p ps ih =>
    cases qs with
    | nil => cases h
    | cons q qs =>
      rw [List.map_cons, List.map_cons, List.cons.injEq] at h
      obtain ⟨hp, hps⟩ := List.forall_mem_cons.mp hps
      obtain ⟨hq, hqs⟩ := List.forall_mem_cons.mp hqs
      rw [List.map_cons, List.map_cons, paramText_eq_of_face b hp hq h.1, ih hps hqs h.2]

/-- **Functions with the same face are declared alike** under every binding. -/
theorem declaration_eq_of_face (b : Binding) (hf : f.Reduces) (hg : g.Reduces)
    (h : f.face = g.face) : f.declaration (some b) = g.declaration (some b) := by
  obtain ⟨hname, hcrossing, hfaces⟩ := Face.mk.inj h
  have hresult : f.resultText (some b) = g.resultText (some b) :=
    Value.render_eq_of_crossing b (keepsType_result hf) (keepsType_result hg) hcrossing rfl
      (fun h => absurd h Bool.false_ne_true) false false
  have hparams : f.paramTexts (some b) = g.paramTexts (some b) :=
    map_paramText_eq_of_face b (fun _ => keepsType_param hf) (fun _ => keepsType_param hg) hfaces
  rw [declaration_eq_texts, declaration_eq_texts, hresult, hname, hparams]

end Prototype

/-! ## §4 No name of a type is shown -/

/-- **Under a binding the names of types do not matter.** Take two values of which neither is the
environment of the host or a struct. If they cross alike, are both parameters or both results, and
as parameters are both `const` or both not, they are written by the same text, whether structs are
asked for as pointers or not. Take two functions that neither take an environment nor take or return
structs by value. If they have the same name, their results cross alike, and their parameters agree
in order in their names, in how they cross and in being `const`, they are declared by the same
text. -/
theorem Binding.hides_types (b : Binding) :
    (∀ (v w : Value) (asPointer asPointer' : Bool),
      v.role ≠ .environment → w.role ≠ .environment → v.isStruct = false → w.isStruct = false →
      v.type.crossing = w.type.crossing → v.role.isParameter = w.role.isParameter →
      (v.role.isParameter = true → v.isConst = w.isConst) →
      v.render (some b) asPointer = w.render (some b) asPointer') ∧
    ∀ (o : Options) (f g : Prototype), o.binding = some b → f.Reduces → g.Reduces →
      f.name = g.name → f.result.type.crossing = g.result.type.crossing →
      f.params.map Parameter.face = g.params.map Parameter.face →
      o.declaration f = o.declaration g := by
  refine ⟨fun v w asPointer asPointer' hv hw hvstruct hwstruct hcrossing hrole hconst => ?_,
    fun o f g ho hf hg hname hresult hparams => ?_⟩
  · exact Value.render_eq_of_crossing b (Value.keepsType_eq_false_iff.mpr ⟨hv, hvstruct⟩)
      (Value.keepsType_eq_false_iff.mpr ⟨hw, hwstruct⟩) hcrossing hrole hconst asPointer asPointer'
  · have hface : f.face = g.face := by
      rw [Prototype.face, Prototype.face, hname, hresult, hparams]
    rw [Options.declaration, Options.declaration, ho]
    exact Prototype.declaration_eq_of_face b hf hg hface

namespace Prototype

/-- A fence over some numbers: a named number, a pointer to numbers that may be null, and a handle
in return. -/
def fence : Prototype :=
  Signature.prototype
    { name := "fence"
      result := { type := .handle "GLsync" }
      params :=
        [{ name := "count", type := .scalar "GLint" .int },
         { name := "values", type := .pointerTo (.scalar "GLfloat" .float),
           qualifiers := .ofList [⟨.const, ()⟩, ⟨.nullable, ⟨true⟩⟩] }] }
    (by decide)

/-- The same function as another header declares it: with plain numbers, an array and a function
pointer. -/
def fenceProc : Prototype :=
  Signature.prototype
    { name := "fence"
      result := { type := .functionPointer "PFNFENCE", isConst := true }
      params :=
        [{ name := "count", type := .scalar "int32_t" .int },
         { name := "values", type := .arrayOf (.scalar "float" .float) 4,
           qualifiers := .ofList [⟨.const, ()⟩] }] }
    (by decide)

end Prototype

/-- The two fences are declared by different texts, and by the same under a binding. -/
theorem Binding.hides_types_fence :
    ({} : Options).declaration .fence ≠ ({} : Options).declaration .fenceProc ∧
    ∀ o : Options, o.binding = some { name := "gl" } →
      Prototype.fence.result.toValue.render o.binding false
        = Prototype.fenceProc.result.toValue.render o.binding true ∧
      o.declaration .fence = o.declaration .fenceProc := by
  have hfence : Prototype.fence.Reduces := ⟨by decide, by decide +kernel⟩
  have hfenceProc : Prototype.fenceProc.Reduces := ⟨by decide, by decide +kernel⟩
  refine ⟨by decide +kernel, fun o ho => ⟨?_, ?_⟩⟩
  · rw [ho]
    exact (hides_types _).1 _ _ false true nofun nofun (by decide) (by decide) (by decide) rfl
      (by decide)
  · exact (hides_types _).2 o _ _ ho hfence hfenceProc rfl rfl (by decide +kernel)

end Interop
