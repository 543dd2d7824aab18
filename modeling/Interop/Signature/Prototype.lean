import Interop.Signature.Basic
import Interop.Signature.Scope

/-!
# Interop.Signature.Prototype — signatures that have passed their checks.

Freezing a signature looks for a parameter name that repeats and then, unless that check is left
out, for a qualifier that mentions a parameter that is not there. The first fault in this order is
reported. A signature without a fault becomes a prototype: its parameters are frozen one by one, and
they can be told apart by their names.
-/

namespace Interop

open Qualifier (Kind)

/-! ## Mentions -/

/-- One parameter named by a qualifier of another. -/
structure Mention where
  parameter : String
  kind : Kind
  target : String
  deriving DecidableEq, Repr

/-- The parameters that the qualifiers of `p` mention, in the order of the kinds. -/
def Parameter.mentions (p : Parameter) : List Mention :=
  p.qualifiers.references.map fun r => ⟨p.name, r.1, r.2⟩

namespace Signature

/-- All mentions, parameter by parameter. -/
def mentions (s : Signature) : List Mention := s.params.flatMap Parameter.mentions

/-! ## Faults -/

/-- Why a signature cannot be frozen. -/
inductive Fault where
  /-- A parameter has the name of an earlier one. -/
  | duplicate (function name : String)
  /-- A qualifier mentions a parameter that is not there. -/
  | unresolved (function : String) (mention : Mention)
  deriving DecidableEq, Repr

/-- The message of a fault. -/
def Fault.message : Fault → String
  | duplicate function name => function ++ ": duplicate parameter '" ++ name ++ "'"
  | unresolved function m =>
    function ++ ": " ++ m.kind.name ++ " qualifier on '" ++ m.parameter
      ++ "' references unknown parameter '" ++ m.target ++ "'"

/-- The first name that repeats. -/
def repeated? (s : Signature) : Option String := Scope.empty.firstRepeat? s.names

/-- The first mention of a parameter that is not there. -/
def unresolved? (s : Signature) : Option Mention :=
  s.mentions.find? fun m => !s.names.contains m.target

/-- The first fault; mentions are looked at only if `references` says so. -/
def fault? (s : Signature) (references : Bool) : Option Fault :=
  match s.repeated? with
  | some n => some (.duplicate s.name n)
  | none => if references then s.unresolved?.map (.unresolved s.name) else none

/-- Nothing repeats exactly when the names are distinct. -/
theorem repeated?_eq_none_iff {s : Signature} : s.repeated? = none ↔ s.names.Nodup :=
  Scope.firstRepeat?_empty_eq_none_iff

/-- Every mention resolves exactly when each target is the name of a parameter. -/
theorem unresolved?_eq_none_iff {s : Signature} :
    s.unresolved? = none ↔ ∀ m ∈ s.mentions, m.target ∈ s.names := by
  simp [unresolved?]

/-- A signature without a fault has distinct names. -/
theorem nodup_names_of_fault? {s : Signature} {references : Bool}
    (h : s.fault? references = none) : s.names.Nodup := by
  refine repeated?_eq_none_iff.mp ?_
  unfold fault? at h
  split at h
  · cases h
  · assumption

end Signature

/-! ## Prototypes -/

/-- Where the names are distinct, looking for the name of a member finds that member. -/
theorem Parameter.find?_name_of_nodup {ps : List Parameter} {p : Parameter}
    (hd : (ps.map Parameter.name).Nodup) (h : p ∈ ps) :
    ps.find? (fun q => q.name = p.name) = some p := by
  induction ps with
  | nil => simp at h
  | cons q qs ih =>
    rw [List.map_cons, List.nodup_cons] at hd
    rcases List.mem_cons.mp h with rfl | h
    · simp
    · have hne : q.name ≠ p.name := fun e => hd.1 (e ▸ List.mem_map_of_mem h)
      rw [List.find?_cons_of_neg (by simpa using hne)]
      exact ih hd.2 h

/-- A function whose parameters are ready for use and have distinct names. -/
structure Prototype where
  name : String
  result : Result := .nothing
  frozen : List Parameter.Frozen := []
  doc : Option String := none
  nodup : ((frozen.map Parameter.Frozen.thaw).map Parameter.name).Nodup
  deriving DecidableEq

/-- The prototype of a signature whose names are distinct: every parameter is frozen. -/
def Signature.prototype (s : Signature) (h : s.names.Nodup) : Prototype where
  name := s.name
  result := s.result
  frozen := s.params.map Parameter.freeze
  doc := s.doc
  nodup := by rwa [Parameter.map_thaw_map_freeze]

namespace Prototype

/-- The parameters, in order, as they are read. -/
def params (f : Prototype) : List Parameter := f.frozen.map Parameter.Frozen.thaw

/-- The signature that a prototype was made from. -/
def signature (f : Prototype) : Signature := ⟨f.name, f.result, f.params, f.doc⟩

@[simp] theorem signature_name (f : Prototype) : f.signature.name = f.name := rfl

@[simp] theorem signature_result (f : Prototype) : f.signature.result = f.result := rfl

@[simp] theorem signature_params (f : Prototype) : f.signature.params = f.params := rfl

theorem nodup_names (f : Prototype) : f.signature.names.Nodup := f.nodup

/-- **Freezing loses nothing.** The prototype of a signature gives that signature back. -/
@[simp] theorem signature_prototype {s : Signature} (h : s.names.Nodup) :
    (s.prototype h).signature = s := by
  show (⟨s.name, s.result, (s.params.map Parameter.freeze).map Parameter.Frozen.thaw, s.doc⟩
    : Signature) = s
  rw [Parameter.map_thaw_map_freeze]

/-- A prototype is determined by its signature. -/
theorem eq_of_signature {f g : Prototype} (h : f.signature = g.signature) : f = g := by
  obtain ⟨hname, hresult, hparams, hdoc⟩ := Signature.mk.inj h
  have hfrozen : f.frozen = g.frozen :=
    (List.map_inj_right fun _ _ => Parameter.Frozen.thaw_inj.mp).mp hparams
  cases f
  cases g
  cases hname
  cases hresult
  cases hfrozen
  cases hdoc
  rfl

/-- The parameter of a name. -/
def find? (f : Prototype) (name : String) : Option Parameter := f.signature.find? name

/-- **Names identify.** Every parameter of a prototype is the one found under its name. -/
theorem find?_name {f : Prototype} {p : Parameter} (h : p ∈ f.params) :
    f.find? p.name = some p :=
  Parameter.find?_name_of_nodup f.nodup_names h

/-- How many outputs have a length that is worked out for the caller. -/
def sizedResults (f : Prototype) : Nat := f.signature.sizedResults

/-- The caller passes an array for the parameter. -/
def takesArray (f : Prototype) (p : Parameter) : Bool := p.isArray f.sizedResults

/-- The result or some parameter cannot be passed straight through. -/
def isSpecial (f : Prototype) : Bool := f.signature.isSpecial

/-- The text of a parameter: its value and its name. -/
def paramText (binding : Option Binding) (p : Parameter) : String :=
  p.toValue.render binding false ++ " " ++ p.name

/-- The function as it is declared in C. -/
def declaration (f : Prototype) (binding : Option Binding) : String :=
  f.result.toValue.render binding false ++ " " ++ f.name
    ++ "(" ++ ", ".intercalate (f.params.map (paramText binding)) ++ ")"

end Prototype

/-! ## Freezing -/

namespace Signature

/-- The prototype of a signature, or the first fault of the signature. -/
def freeze (s : Signature) (references : Bool) : Except Fault Prototype :=
  match h : s.fault? references with
  | some f => .error f
  | none => .ok (s.prototype (nodup_names_of_fault? h))

/-- A signature is frozen exactly when it has no fault, and then its prototype is made from that
very signature. -/
theorem freeze_eq_ok_iff {s : Signature} {references : Bool} {f : Prototype} :
    s.freeze references = .ok f ↔ s.fault? references = none ∧ f.signature = s := by
  unfold freeze
  split
  · rename_i e h
    simp [h]
  · rename_i h
    simp only [Except.ok.injEq, h, true_and]
    refine ⟨?_, ?_⟩
    · rintro rfl
      exact Prototype.signature_prototype _
    · intro hf
      exact Prototype.eq_of_signature ((Prototype.signature_prototype _).trans hf.symm)

/-- A signature is refused exactly for its first fault. -/
theorem freeze_eq_error_iff {s : Signature} {references : Bool} {e : Fault} :
    s.freeze references = .error e ↔ s.fault? references = some e := by
  unfold freeze
  split <;> simp_all

end Signature

end Interop
