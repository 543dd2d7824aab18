/-!
# Interop.Signature.Scope — the names declared so far.

A scope takes each name once. Declaring the names of a list one after the other finds the first
name that was declared before.
-/

namespace Interop

/-- The names declared so far. -/
structure Scope where
  names : List String
  deriving DecidableEq, Repr

namespace Scope

def empty : Scope := ⟨[]⟩

/-- The name is declared. -/
def contains (s : Scope) (name : String) : Bool := s.names.contains name

/-- The number of names. -/
def size (s : Scope) : Nat := s.names.length

/-- The scope with one more name, unless the name is taken. -/
def declare? (s : Scope) (name : String) : Option Scope :=
  if s.contains name then none else some ⟨name :: s.names⟩

/-- The scope after the names of a list, taken in turn, and for each name whether it was new. -/
def declareAll (s : Scope) : List String → List Bool × Scope
  | [] => ([], s)
  | n :: ns =>
    match s.declare? n with
    | some t => let (new, t) := t.declareAll ns; (true :: new, t)
    | none => let (new, t) := s.declareAll ns; (false :: new, t)

/-- The first name of the list that is taken when its turn comes. -/
def firstRepeat? (s : Scope) : List String → Option String
  | [] => none
  | n :: ns =>
    match s.declare? n with
    | some t => t.firstRepeat? ns
    | none => some n

/-- **Nothing repeats.** No name is found exactly when the names are distinct and new to the
scope. -/
theorem firstRepeat?_eq_none_iff {s : Scope} {ns : List String} :
    s.firstRepeat? ns = none ↔ ns.Nodup ∧ ∀ n ∈ ns, n ∉ s.names := by
  induction ns generalizing s with
  | nil => simp [firstRepeat?]
  | cons n ns ih =>
    by_cases hn : n ∈ s.names
    · simp [firstRepeat?, declare?, contains, hn]
    · simp only [firstRepeat?, declare?, contains, List.contains_iff_mem, hn, if_false, ih,
        List.nodup_cons, List.mem_cons, not_or, forall_eq_or_imp, not_false_eq_true, true_and]
      constructor
      · rintro ⟨hd, hs⟩
        exact ⟨⟨fun hm => (hs n hm).1 rfl, hd⟩, fun m hm => (hs m hm).2⟩
      · rintro ⟨⟨hm, hd⟩, hs⟩
        exact ⟨hd, fun m hm' => ⟨fun e => hm (e ▸ hm'), hs m hm'⟩⟩

/-- Seen from the empty scope, no name is found exactly when the names are distinct. -/
theorem firstRepeat?_empty_eq_none_iff {ns : List String} :
    empty.firstRepeat? ns = none ↔ ns.Nodup := by
  simp [firstRepeat?_eq_none_iff, empty]

end Scope

end Interop
