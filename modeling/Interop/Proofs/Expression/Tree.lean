/-!
# Interop.Proofs.Expression.Tree — C expressions and how their operators bind.

The expressions are those that lengths are written in: words (identifiers, numbers and text in
quotes), parentheses, calls, signs, and the binary operators for products, sums, shifts and lists of
arguments. Parentheses are kept in the tree, so a tree spells out its text up to spaces.

Not every tree is what C reads in its own text. The operators have levels; a binary operator takes
on its left what binds at least as tightly as itself, and on its right only what binds more tightly,
so that operators of one level group from the left. Trees in which this holds everywhere are
*canonical*. Where an operand is to be put behind an expression, `extend` finds the place that keeps
the tree canonical: it lets operators that bind less tightly have it as a part of their right
operand.

## Main statements

* **`canonical_extend`** — an extended tree is canonical, and its tokens are those of its parts.
* **`attach_eq_fill`** — operand by operand, a canonical tree is built up as it stands.
* **`join_eq_binary_iff`** — when an operator between two canonical trees comes to the root.
-/

namespace Interop

/-! ## §1 Expressions -/

namespace CExpr

/-- The binary operators. The comma separates the arguments of a call. -/
inductive Operator where
  | comma
  | shiftLeft
  | shiftRight
  | add
  | sub
  | mul
  | div
  deriving DecidableEq, Repr

/-- How tightly an operator binds. -/
def Operator.level : Operator → Nat
  | comma => 0
  | shiftLeft | shiftRight => 1
  | add | sub => 2
  | mul | div => 3

/-- The operators that can stand in front of a single operand. -/
inductive Sign where
  | plus
  | minus
  deriving DecidableEq, Repr

/-- The operator that looks like the sign. -/
def Sign.operator : Sign → Operator
  | plus => .add
  | minus => .sub

/-- The sign that an operator is, if an operand follows it and none stands in front of it. -/
def Operator.sign? : Operator → Option Sign
  | add => some .plus
  | sub => some .minus
  | _ => none

theorem sign?_operator (s : Sign) : s.operator.sign? = some s := by cases s <;> rfl

theorem operator_of_sign? {op : Operator} {s : Sign} (h : op.sign? = some s) : s.operator = op := by
  cases op <;> cases h <;> rfl

theorem Operator.level_lt (op : Operator) : op.level < 4 := by cases op <;> decide

/-- The smallest parts of a text. -/
inductive Token where
  | word (text : String)
  | operator (op : Operator)
  | opening
  | closing
  deriving DecidableEq, Repr

end CExpr

open CExpr (Operator Sign Token)

/-- A C expression. -/
inductive CExpr where
  /-- An identifier, a number, or text in quotes. -/
  | word (text : String)
  /-- An expression in parentheses. -/
  | group (inner : CExpr)
  /-- A call without arguments. -/
  | invoke (callee : CExpr)
  /-- A call with arguments, which are one expression if there are commas between them. -/
  | call (callee arguments : CExpr)
  | signed (sign : Sign) (operand : CExpr)
  | binary (op : Operator) (left right : CExpr)
  deriving DecidableEq, Repr

namespace CExpr

/-- How tightly the outermost operator of an expression binds. -/
def level : CExpr → Nat
  | binary op _ _ => op.level
  | signed _ _ => 4
  | word _ | group _ | invoke _ | call _ _ => 5

/-- The text of an expression, token by token. -/
def tokens : CExpr → List Token
  | word text => [.word text]
  | group e => .opening :: (e.tokens ++ [.closing])
  | invoke f => f.tokens ++ [.opening, .closing]
  | call f args => f.tokens ++ .opening :: (args.tokens ++ [.closing])
  | signed s e => .operator s.operator :: e.tokens
  | binary op l r => l.tokens ++ .operator op :: r.tokens

/-- The operators bind as they do in C: a callee is no operator's result, a sign takes nothing that
is joined by a binary operator, and binary operators of one level group from the left. -/
def Canonical : CExpr → Prop
  | word _ => True
  | group e => e.Canonical
  | invoke f => f.Canonical ∧ f.level = 5
  | call f args => f.Canonical ∧ f.level = 5 ∧ args.Canonical
  | signed _ e => e.Canonical ∧ 4 ≤ e.level
  | binary op l r => l.Canonical ∧ r.Canonical ∧ op.level ≤ l.level ∧ op.level < r.level

/-! ## §2 One operand more -/

/-- The expression with an operator and an operand behind it: the operand belongs to the operator,
and the result to every operator on the way that binds less tightly. -/
def extend : CExpr → Operator → CExpr → CExpr
  | binary o l r, op, e =>
    if o.level < op.level then binary o l (r.extend op e) else binary op (binary o l r) e
  | l, op, e => binary op l e

variable {l e : CExpr} {op o : Operator}

theorem tokens_extend (l : CExpr) (op : Operator) (e : CExpr) :
    (l.extend op e).tokens = l.tokens ++ .operator op :: e.tokens := by
  induction l with
  | binary o l r _ ihr =>
    rw [extend]
    split
    · rw [tokens, tokens, ihr, List.append_assoc, List.cons_append]
    · rfl
  | _ => rfl

/-- An operand that follows does not make an expression bind less tightly than both. -/
theorem le_level_extend {n : Nat} (hl : n ≤ l.level) (hop : n ≤ op.level) :
    n ≤ (l.extend op e).level := by
  cases l with
  | binary o l r =>
    rw [extend]
    split
    · exact hl
    · exact hop
  | _ => exact hop

/-- **The operand finds its place.** Behind a canonical expression, an operand that binds more
tightly than its operator leaves a canonical expression. -/
theorem canonical_extend (hl : l.Canonical) (he : e.Canonical) (h : op.level < e.level) :
    (l.extend op e).Canonical := by
  have hfour := op.level_lt
  induction l with
  | binary o l r _ ihr =>
    obtain ⟨hcl, hcr, hol, hor⟩ := hl
    rw [extend]
    split
    · rename_i hlt
      exact ⟨hcl, ihr hcr, hol, le_level_extend hor hlt⟩
    · rename_i hle
      exact ⟨⟨hcl, hcr, hol, hor⟩, he, Nat.le_of_not_lt hle, h⟩
  | _ => exact ⟨hl, he, by simp only [level]; omega, h⟩

/-- Behind what binds tightly enough, the operand is joined to the whole. -/
theorem extend_of_le (h : op.level ≤ l.level) : l.extend op e = binary op l e := by
  cases l with
  | binary o l r =>
    rw [level] at h
    rw [extend, if_neg (Nat.not_lt.mpr h)]
  | _ => rfl

/-- Two operands one after the other, of which the second is joined to the first. -/
theorem extend_extend {r : CExpr} (hl : o.level ≤ e.level) (h : op.level < o.level) :
    (l.extend op e).extend o r = l.extend op (binary o e r) := by
  have htop (l : CExpr) : (binary op l e).extend o r = binary op l (binary o e r) := by
    rw [extend, if_pos h, extend_of_le hl]
  -- the first operand goes down the right side of `l`, and the second follows it there
  induction l with
  | binary o' l' r' _ ihr =>
    rw [extend, extend]
    split
    · rename_i hlt
      rw [extend, if_pos (Nat.lt_trans hlt h), ihr]
    · exact htop _
  | _ => exact htop _

/-! ## §3 Operand by operand -/

/-- What stands in front of an operand that is still to come. -/
inductive Pending where
  | start
  | after (left : CExpr) (op : Operator)
  | sign (s : Sign) (before : Pending)
  deriving DecidableEq, Repr

namespace Pending

/-- The expression, once the operand has come. -/
def fill : Pending → CExpr → CExpr
  | start, e => e
  | after l op, e => l.extend op e
  | sign s p, e => p.fill (signed s e)

def tokens : Pending → List Token
  | start => []
  | after l op => l.tokens ++ [.operator op]
  | sign s p => p.tokens ++ [.operator s.operator]

def Canonical : Pending → Prop
  | start => True
  | after l _ => l.Canonical
  | sign _ p => p.Canonical

/-- How tightly an operand has to bind that is to be filled in as a whole. -/
def floor : Pending → Nat
  | start => 0
  | after _ op => op.level + 1
  | sign _ _ => 4

variable {p : Pending}

theorem tokens_fill (p : Pending) (e : CExpr) : (p.fill e).tokens = p.tokens ++ e.tokens := by
  induction p generalizing e with
  | start => rfl
  | after l op =>
    rw [fill, tokens_extend, tokens, List.append_assoc]
    rfl
  | sign s p ih =>
    rw [fill, ih, tokens, List.append_assoc]
    rfl

/-- An operand that no binary operator joins leaves a canonical expression. -/
theorem canonical_fill (hp : p.Canonical) (he : e.Canonical) (hlevel : 4 ≤ e.level) :
    (p.fill e).Canonical := by
  induction p generalizing e with
  | start => exact he
  | after l op => exact canonical_extend hp he (Nat.lt_of_lt_of_le op.level_lt hlevel)
  | sign s p ih => exact ih hp ⟨he, hlevel⟩ (Nat.le_refl 4)

end Pending

/-- The expression that comes of it when the operands of another one follow one by one. -/
def attach : CExpr → Pending → CExpr
  | binary op l r, p => r.attach (.after (l.attach p) op)
  | signed s e, p => e.attach (.sign s p)
  | e, p => p.fill e

variable {p : Pending}

theorem tokens_attach (e : CExpr) (p : Pending) : (e.attach p).tokens = p.tokens ++ e.tokens := by
  induction e generalizing p with
  | binary op l r ihl ihr =>
    rw [attach, ihr, Pending.tokens, ihl, tokens, List.append_assoc, List.append_assoc]
    rfl
  | signed s e ih =>
    rw [attach, ih, Pending.tokens, tokens, List.append_assoc]
    rfl
  | _ => exact p.tokens_fill _

/-- One by one, the operands of a canonical expression leave a canonical expression. -/
theorem canonical_attach (he : e.Canonical) (hp : p.Canonical) : (e.attach p).Canonical := by
  induction e generalizing p with
  | binary op l r ihl ihr =>
    obtain ⟨hl, hr, -, -⟩ := he
    exact ihr hr (ihl hl hp)
  | signed s e ih => exact ih he.1 hp
  | _ => exact Pending.canonical_fill hp he (by simp only [level]; omega)

/-- **A canonical expression is filled in as it stands**, where it binds tightly enough. -/
theorem attach_eq_fill (he : e.Canonical) (h : p.floor ≤ e.level) : e.attach p = p.fill e := by
  induction e generalizing p with
  | binary op l r ihl ihr =>
    obtain ⟨hl, hr, hopl, hopr⟩ := he
    rw [level] at h
    rw [attach, ihl hl (Nat.le_trans h hopl), ihr (p := .after (p.fill l) op) hr hopr, Pending.fill]
    -- the left operand has been filled in, and the right one finds it there
    cases p with
    | start => exact extend_of_le hopl
    | after l' op' => exact extend_extend hopl h
    | sign s p => exact absurd op.level_lt (Nat.not_lt.mpr h)
  | signed s e ih => exact ih he.1 he.2
  | _ => rfl

/-- With nothing in front of it, a canonical expression is built up again. -/
theorem attach_start (he : e.Canonical) : e.attach .start = e := attach_eq_fill he (Nat.zero_le _)

/-- The expression that is read when `op` and the text of `r` are written behind the text of `l`. -/
def join (l : CExpr) (op : Operator) (r : CExpr) : CExpr := r.attach (.after l op)

variable {r : CExpr}

theorem tokens_join (l : CExpr) (op : Operator) (r : CExpr) :
    (l.join op r).tokens = l.tokens ++ .operator op :: r.tokens := by
  rw [join, tokens_attach, Pending.tokens, List.append_assoc, List.singleton_append]

theorem canonical_join (hl : l.Canonical) (hr : r.Canonical) : (l.join op r).Canonical :=
  canonical_attach hr hl

/-- **When the operator comes to the root.** Two canonical expressions with an operator between them
are read as its operands exactly when the left one binds at least as tightly as the operator and the
right one more tightly. -/
theorem join_eq_binary_iff (hl : l.Canonical) (hr : r.Canonical) :
    l.join op r = binary op l r ↔ op.level ≤ l.level ∧ op.level < r.level := by
  refine ⟨?_, ?_⟩
  · intro h
    have hjoin : (l.join op r).Canonical := canonical_join hl hr
    rw [h] at hjoin
    exact hjoin.2.2
  · rintro ⟨hopl, hopr⟩
    rw [join, attach_eq_fill (p := .after l op) hr hopr, Pending.fill, extend_of_le hopl]

end CExpr

end Interop
