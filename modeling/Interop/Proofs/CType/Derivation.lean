import Interop.CType.Declaration

/-!
# Interop.Proofs.CType.Derivation — the declarations of derived types.

Types are derived from others step by step, each step making a pointer or an array. A pointer takes
its name from the *declaration* of its element, so its own declaration shows one marker more. An
array takes its name from the *name* of its element. Where that name alone is the declaration, an
array is declared like a pointer to its first element; but where the declaration of the element
writes a marker behind the name, the array loses that marker again and is declared like its element.
Every derived type writes a marker, so this happens to every array that is not the first step.

## Main statements

* **`declaration_derive_iff`** — how many markers the declaration of a derived type shows, when
  there is one for each step, and which arrays are declared like the pointer they are passed as.
* **`not_declaration_derive_strings`** — an array of pointers is declared with one marker only.
-/

namespace Interop

namespace CType

/-! ## §1 Texts with markers behind them -/

/-- The text with `n` pointer markers behind it, the first one set off by a space. -/
def starred (text : String) : Nat → String
  | 0 => text
  | n + 1 => text ++ " " ++ String.ofList (List.replicate (n + 1) '*')

/-- **One marker more.** Behind a text that does not itself end in a marker, markers add up. -/
theorem addMarker_starred {text : String} (h : text.toList.getLast? ≠ some '*') (n : Nat) :
    addMarker (starred text n) = starred text (n + 1) := by
  cases n with
  | zero =>
    show addMarker text = text ++ " " ++ "*"
    rw [addMarker, if_neg h, String.append_assoc]
    rfl
  | succ n =>
    -- the text ends in a marker now, so the next one follows without a space
    have hstars (n : Nat) : String.ofList (List.replicate (n + 1) '*')
        = String.ofList (List.replicate n '*') ++ "*" := by
      apply String.toList_inj.mp
      rw [String.toList_append, String.toList_ofList, String.toList_ofList, List.replicate_succ']
      rfl
    have hlast : (starred text (n + 1)).toList.getLast? = some '*' := by
      rw [starred, hstars, ← String.append_assoc, String.toList_append, List.getLast?_append]
      rfl
    rw [addMarker, if_pos hlast, starred, starred, hstars (n + 1), ← String.append_assoc]

theorem length_starred (text : String) (n : Nat) :
    (starred text n).length = text.length + if n = 0 then 0 else n + 1 := by
  cases n with
  | zero => rfl
  | succ n =>
    have hspace : " ".length = 1 := rfl
    simp only [starred, String.length_append, String.length_ofList, List.length_replicate, hspace,
      if_neg (Nat.succ_ne_zero n)]
    omega

/-- The number of markers can be read off the text. -/
theorem starred_inj {text : String} {m n : Nat} : starred text m = starred text n ↔ m = n := by
  refine ⟨fun h => ?_, congrArg (starred text)⟩
  have hlen := congrArg String.length h
  rw [length_starred, length_starred] at hlen
  split at hlen <;> split at hlen <;> omega

/-! ## §2 One step -/

/-- A declaration of the type has to write the pointer marker behind the name. -/
def takesMarker (t : CType) : Bool := t.isPointer && !t.isComplete

theorem declaration_eq (t : CType) :
    t.declaration = if t.takesMarker = true then addMarker t.name else t.name := rfl

/-- A declaration that does not end in a marker is the name alone. -/
theorem takesMarker_eq_false {t : CType} (h : t.declaration.toList.getLast? ≠ some '*') :
    t.takesMarker = false := by
  rw [Bool.eq_false_iff]
  intro htakes
  rw [declaration_eq, if_pos htakes] at h
  exact h (getLast?_addMarker t.name)

theorem addMarker_ne (text : String) : addMarker text ≠ text := by
  intro h
  have hlen := congrArg String.length h
  unfold addMarker at hlen
  split at hlen
  · rw [String.length_append] at hlen
    have hmarker : "*".length = 1 := rfl
    omega
  · rw [String.length_append] at hlen
    have hmarker : " *".length = 2 := rfl
    omega

/-- A pointer shows one marker more than its element. -/
theorem declaration_pointerTo (t : CType) : t.pointerTo.declaration = addMarker t.declaration :=
  declaration_pointerAs t t.buffer

/-- **What an array shows.** An array of elements that take a marker is declared like its element,
every other array like the pointer to its first element. -/
theorem declaration_arrayOf (t : CType) (size : UInt64) :
    (t.arrayOf size).declaration =
      if t.takesMarker = true then t.declaration else t.pointerTo.declaration := by
  show addMarker t.name = _
  rw [declaration_pointerTo, declaration_eq]
  split <;> rfl

/-- An array is declared like the pointer to its first element exactly when the declaration of the
element is its name. -/
theorem declaration_arrayOf_eq_iff (t : CType) (size : UInt64) :
    (t.arrayOf size).declaration = t.pointerTo.declaration ↔ t.takesMarker = false := by
  rw [declaration_arrayOf, declaration_pointerTo]
  cases htakes : t.takesMarker with
  | false => simp
  | true =>
    rw [if_pos rfl]
    exact ⟨fun h => absurd h.symm (addMarker_ne _), nofun⟩

/-- One way to derive a type from another. -/
inductive Step where
  | pointer
  | pointerAs (target : Pointee)
  | array (size : UInt64)
  deriving DecidableEq, Repr

namespace Step

def isArray : Step → Bool
  | array _ => true
  | pointer | pointerAs _ => false

/-- The type derived in this way. -/
def apply : Step → CType → CType
  | pointer, t => t.pointerTo
  | pointerAs target, t => t.pointerAs target
  | array size, t => t.arrayOf size

/-- How many markers a sequence of steps leaves behind a name: the first step always leaves one,
after it only the pointers do. -/
def markers : List Step → Nat
  | [] => 0
  | _ :: ds => ds.countP (!·.isArray) + 1

/-- Whatever the step, the new type takes a marker. -/
theorem takesMarker_apply (d : Step) (t : CType) : (d.apply t).takesMarker = true := by
  cases d <;> rfl

/-- **One step.** A step adds a marker, unless it is an array of elements that take one already. -/
theorem declaration_apply (d : Step) (t : CType) :
    (d.apply t).declaration =
      if d.isArray = true ∧ t.takesMarker = true then t.declaration
      else addMarker t.declaration := by
  cases d with
  | pointer =>
    rw [if_neg (by simp [isArray])]
    exact declaration_pointerTo t
  | pointerAs target =>
    rw [if_neg (by simp [isArray])]
    exact declaration_pointerAs t target
  | array size =>
    show (t.arrayOf size).declaration = _
    rw [declaration_arrayOf, declaration_pointerTo]
    simp [isArray]

/-- There is a marker for each step exactly when arrays are made in the first step only. -/
theorem markers_eq_length_iff {ds : List Step} :
    markers ds = ds.length ↔ ∀ d ∈ ds.tail, d.isArray = false := by
  cases ds with
  | nil => simp [markers]
  | cons d ds =>
    rw [markers, List.length_cons, Nat.add_right_cancel_iff, List.countP_eq_length, List.tail_cons]
    simp

end Step

/-! ## §3 Many steps -/

/-- The type derived by the steps of a list, taken in turn. -/
def derive (t : CType) (ds : List Step) : CType := ds.foldl (fun u d => d.apply u) t

/-- From a type that takes a marker on, arrays leave the declaration as it is and every pointer adds
one marker to it. -/
theorem declaration_derive_of_takesMarker {text : String} (h : text.toList.getLast? ≠ some '*')
    (ds : List Step) {t : CType} {n : Nat} (htakes : t.takesMarker = true)
    (ht : t.declaration = starred text n) :
    (t.derive ds).declaration = starred text (n + ds.countP (!·.isArray)) := by
  induction ds generalizing t n with
  | nil => exact ht
  | cons d ds ih =>
    show ((d.apply t).derive ds).declaration = _
    have hstep := d.declaration_apply t
    cases harray : d.isArray with
    | true =>
      rw [if_pos ⟨harray, htakes⟩, ht] at hstep
      rw [ih (d.takesMarker_apply t) hstep, List.countP_cons_of_neg (by simp [harray])]
    | false =>
      rw [if_neg (by simp [harray]), ht, addMarker_starred h] at hstep
      rw [ih (d.takesMarker_apply t) hstep, List.countP_cons_of_pos (by simp [harray])]
      congr 1
      omega

/-- **The declaration of a derived type** is that of the type it starts from, with the markers that
the steps leave. -/
theorem declaration_derive {t : CType} (ht : t.declaration.toList.getLast? ≠ some '*')
    (ds : List Step) :
    (t.derive ds).declaration = starred t.declaration (Step.markers ds) := by
  cases ds with
  | nil => rfl
  | cons d ds =>
    have hstep := d.declaration_apply t
    rw [if_neg (by simp [takesMarker_eq_false ht])] at hstep
    have hone : (d.apply t).declaration = starred t.declaration 1 :=
      hstep.trans (addMarker_starred ht 0)
    show ((d.apply t).derive ds).declaration = _
    rw [declaration_derive_of_takesMarker ht ds (d.takesMarker_apply t) hone, Step.markers,
      Nat.add_comm]

/-- **How many markers a derived type shows.** Take a type whose declaration does not end in a
marker, and derive another from it. The declaration of the derived type is the one of the first
with one marker for the first step and one for each pointer after it; so it has one for every step
exactly when arrays are made in the first step only. Of arrays by themselves, those are declared
like the pointer to their first element whose elements take no marker; all others are declared like
an element. -/
theorem declaration_derive_iff {t : CType} (ht : t.declaration.toList.getLast? ≠ some '*')
    (ds : List Step) :
    (t.derive ds).declaration = starred t.declaration (Step.markers ds) ∧
    ((t.derive ds).declaration = starred t.declaration ds.length ↔
      ∀ d ∈ ds.tail, d.isArray = false) ∧
    ∀ (u : CType) (size : UInt64),
      ((u.arrayOf size).declaration = u.pointerTo.declaration ↔ u.takesMarker = false) ∧
      (u.takesMarker = true → (u.arrayOf size).declaration = u.declaration) := by
  refine ⟨declaration_derive ht ds, ?_, fun u size => ⟨declaration_arrayOf_eq_iff u size, ?_⟩⟩
  · rw [declaration_derive ht ds, starred_inj, Step.markers_eq_length_iff]
  · intro htakes
    rw [declaration_arrayOf, if_pos htakes]

/-- Four steps from a length: the array made first shows, the one made of pointers does not. -/
theorem declaration_derive_iff_lengths :
    (scalar "size_t" .address).declaration.toList.getLast? ≠ some '*' ∧
      ((scalar "size_t" .address).derive
        [.array 4, .pointer, .array 2, .pointerAs .raw]).declaration = "size_t ***" := by
  have hend : (scalar "size_t" .address).declaration.toList.getLast? ≠ some '*' := by
    decide +kernel
  have htext : starred "size_t" 3 = "size_t ***" := by decide +kernel
  obtain ⟨hmarkers, -, -⟩ :=
    declaration_derive_iff hend [.array 4, .pointer, .array 2, .pointerAs .raw]
  exact ⟨hend, hmarkers.trans htext⟩

/-- **An array of pointers loses a marker.** An array of strings shows one marker in place of the
two of the pointer it is passed as, and so does an array of handles whose name does not stand for
the pointer. -/
theorem not_declaration_derive_strings :
    (scalar "char" .byte).declaration.toList.getLast? ≠ some '*' ∧
      ((scalar "char" .byte).derive [.pointer, .array 3]).declaration = "char *" ∧
      starred "char" 2 = "char **" ∧
      ((scalar "char" .byte).pointerTo.arrayOf 3).declaration
        ≠ (scalar "char" .byte).pointerTo.pointerTo.declaration ∧
      ((object "cursor" false).arrayOf 2).declaration
        ≠ (object "cursor" false).pointerTo.declaration := by
  decide +kernel

end CType

end Interop
