/-!
# Interop.Qualifier.Kind — the kinds of qualifiers and sets of them.

The ten kinds have a fixed order, which is the order in which the qualifiers of a parameter are
read. A set of kinds is a word of ten bits, the bit of a kind standing at its rank; union,
intersection and complement are the bitwise operations, so a complement never leaves the ten.
-/

namespace Interop.Qualifier

/-! ## Kinds -/

/-- What a qualifier says of the value it stands on. -/
inductive Kind where
  | const
  | nullable
  | autoSize
  | autoSizeResult
  | check
  | pointerArray
  | returnCarrier
  | singleValue
  | multiType
  | expression
  deriving DecidableEq, Repr

namespace Kind

/-- The kinds in their order. -/
def all : List Kind :=
  [const, nullable, autoSize, autoSizeResult, check, pointerArray, returnCarrier, singleValue,
    multiType, expression]

/-- The place of a kind in the order. -/
def rank : Kind → Nat
  | const => 0
  | nullable => 1
  | autoSize => 2
  | autoSizeResult => 3
  | check => 4
  | pointerArray => 5
  | returnCarrier => 6
  | singleValue => 7
  | multiType => 8
  | expression => 9

/-- The word for the kind in messages. -/
def name : Kind → String
  | const => "const"
  | nullable => "nullable"
  | autoSize => "auto-size"
  | autoSizeResult => "auto-size-result"
  | check => "check"
  | pointerArray => "pointer-array"
  | returnCarrier => "return"
  | singleValue => "single-value"
  | multiType => "multi-type"
  | expression => "expression"

theorem rank_lt (k : Kind) : k.rank < 10 := by cases k <;> decide

/-- A rank belongs to one kind only. -/
theorem rank_inj {k l : Kind} (h : k.rank = l.rank) : k = l := by
  cases k <;> cases l <;> simp_all [rank]

/-- The list of kinds is complete. -/
theorem mem_all (k : Kind) : k ∈ all := by cases k <;> decide

end Kind

/-! ## Sets of kinds -/

/-- A set of kinds, one bit for each. There are no other bits: a mask in a wider word, with bits that
belong to no kind, has no counterpart here. Such bits would select nothing, and no operation on sets
of kinds puts them in. -/
structure KindSet where
  bits : BitVec 10
  deriving DecidableEq, Repr

namespace KindSet

/-- The set with the one kind in it. -/
def single (k : Kind) : KindSet := ⟨BitVec.twoPow 10 k.rank⟩

/-- The kind is in the set. -/
def contains (s : KindSet) (k : Kind) : Bool := s.bits.getLsbD k.rank

def empty : KindSet := ⟨0#10⟩

/-- The set of all kinds. -/
def full : KindSet := ⟨BitVec.allOnes 10⟩

def union (s t : KindSet) : KindSet := ⟨s.bits ||| t.bits⟩

def inter (s t : KindSet) : KindSet := ⟨s.bits &&& t.bits⟩

def diff (s t : KindSet) : KindSet := ⟨s.bits &&& ~~~t.bits⟩

/-- The kinds that are in one of the two sets and not in both. -/
def symmDiff (s t : KindSet) : KindSet := ⟨s.bits ^^^ t.bits⟩

/-- The kinds that are not in the set. -/
def compl (s : KindSet) : KindSet := ⟨~~~s.bits⟩

/-- Every kind of `s` is in `t`. -/
def isSubset (s t : KindSet) : Bool := s.inter t == s

/-- Some kind is in both sets. -/
def meets (s t : KindSet) : Bool := s.inter t != empty

def isEmpty (s : KindSet) : Bool := s == empty

def isFull (s : KindSet) : Bool := s == full

/-- The union of all the sets of a list. -/
def unions (sets : List KindSet) : KindSet := sets.foldl union empty

/-- The set of the kinds in a list. -/
def ofList (kinds : List Kind) : KindSet := unions (kinds.map single)

/-! ## Membership after each operation -/

@[simp] theorem contains_single {k l : Kind} : (single k).contains l = decide (k = l) := by
  cases k <;> cases l <;> decide

@[simp] theorem contains_empty (k : Kind) : empty.contains k = false := by
  simp [empty, contains]

@[simp] theorem contains_full (k : Kind) : full.contains k = true := by
  cases k <;> decide

@[simp] theorem contains_union (s t : KindSet) (k : Kind) :
    (s.union t).contains k = (s.contains k || t.contains k) := by
  simp [union, contains]

@[simp] theorem contains_inter (s t : KindSet) (k : Kind) :
    (s.inter t).contains k = (s.contains k && t.contains k) := by
  simp [inter, contains]

@[simp] theorem contains_diff (s t : KindSet) (k : Kind) :
    (s.diff t).contains k = (s.contains k && !t.contains k) := by
  simp [diff, contains, k.rank_lt]

@[simp] theorem contains_compl (s : KindSet) (k : Kind) :
    s.compl.contains k = !s.contains k := by
  simp [compl, contains, k.rank_lt]

/-- A kind is in a union exactly when it is in one of the sets. -/
@[simp] theorem contains_unions (sets : List KindSet) (k : Kind) :
    (unions sets).contains k = sets.any (·.contains k) := by
  have h (s : KindSet) : (sets.foldl union s).contains k
      = (s.contains k || sets.any (·.contains k)) := by
    induction sets generalizing s with
    | nil => simp
    | cons t ts ih => simp [ih, Bool.or_assoc]
  simpa [unions] using h empty

/-- The set made of a list has exactly the kinds of the list. -/
@[simp] theorem contains_ofList (kinds : List Kind) (k : Kind) :
    (ofList kinds).contains k = kinds.any (· = k) := by
  simp [ofList, List.any_map, Function.comp_def]

/-- **Extensionality.** Two sets with the same kinds in them are equal. -/
theorem ext_contains {s t : KindSet} (h : ∀ k, s.contains k = t.contains k) : s = t := by
  have hb : s.bits = t.bits := by
    apply BitVec.eq_of_getLsbD_eq
    intro i hi
    have hk : ∃ k : Kind, k.rank = i := by
      match i, hi with
      | 0, _ => exact ⟨.const, rfl⟩
      | 1, _ => exact ⟨.nullable, rfl⟩
      | 2, _ => exact ⟨.autoSize, rfl⟩
      | 3, _ => exact ⟨.autoSizeResult, rfl⟩
      | 4, _ => exact ⟨.check, rfl⟩
      | 5, _ => exact ⟨.pointerArray, rfl⟩
      | 6, _ => exact ⟨.returnCarrier, rfl⟩
      | 7, _ => exact ⟨.singleValue, rfl⟩
      | 8, _ => exact ⟨.multiType, rfl⟩
      | 9, _ => exact ⟨.expression, rfl⟩
    obtain ⟨k, rfl⟩ := hk
    exact h k
  cases s; cases t; simpa using hb

/-! ## Named sets -/

/-- The kinds that describe how a buffer is passed; a parameter that is no buffer any more loses
them all. -/
def arrayKinds : KindSet := ofList [.pointerArray, .returnCarrier, .singleValue, .multiType]

/-- The kinds that a plain call cannot honour. -/
def special : KindSet :=
  ofList [.autoSize, .autoSizeResult, .check, .pointerArray, .returnCarrier, .singleValue,
    .multiType, .expression]

end KindSet

/-- A plain call cannot honour a qualifier of this kind. -/
def Kind.isSpecial (k : Kind) : Bool := KindSet.special.contains k

/-- Only `const` and `nullable` are left to plain calls. -/
theorem Kind.isSpecial_eq_false_iff {k : Kind} :
    k.isSpecial = false ↔ k = .const ∨ k = .nullable := by
  cases k <;> decide

end Interop.Qualifier
