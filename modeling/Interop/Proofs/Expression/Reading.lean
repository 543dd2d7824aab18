import Interop.Proofs.Expression.Tree

/-!
# Interop.Proofs.Expression.Reading — the text of a C expression.

A text is read in two passes from left to right. The first makes tokens of its characters, the
second an expression of its tokens. Neither looks back: what has been read of a token is kept until
the token is complete, and so is what stands in front of an operand, for every parenthesis that is
still open. What a text is read as is told without the reader: it is the canonical expression that
has these tokens, of which there is one at most.

## Main statements

* **`lexFrom_append_space`** — a space ends a token and begins none.
* **`parse_eq_some_iff`** — the expression that is read is the canonical one of the tokens.
-/

namespace Interop.CExpr

/-! ## §1 From characters to tokens -/

/-- White space of C: the space, and the tabulators and line ends. -/
def isSpace (c : Char) : Bool := c = ' ' || '\t' ≤ c && c ≤ '\r'

/-- The characters of identifiers and numbers. Beyond ASCII, any character may be a letter. -/
def isWordChar (c : Char) : Bool := c.isAlphanum || c = '_' || '\x7f' < c

/-- The quotes of character constants and of strings. -/
def isQuote (c : Char) : Bool := c = '\x27' || c = '\x22'

/-- A number that has the letter of an exponent at its end. C takes a sign right behind it for a
part of the number, which is then no integer. -/
def wantsExponent (read : List Char) : Bool :=
  read.head?.any Char.isDigit && read.getLast?.any fun c => "eEpP".toList.contains c

def Sign.symbol : Sign → Char
  | plus => '+'
  | minus => '-'

/-- The part of a token that has been read. -/
inductive Partial where
  | gap
  | word (read : List Char)
  /-- Text in quotes that have not been closed. A quote behind a backslash does not close them. -/
  | quoted (quote : Char) (read : List Char) (escaped : Bool)
  /-- The first half of the shift to the left. -/
  | less
  /-- The first half of the shift to the right. -/
  | greater
  | sign (s : Sign)
  deriving DecidableEq, Repr

namespace Partial

/-- The token, if nothing more belongs to it. -/
def finish : Partial → Option (List Token)
  | gap => some []
  | word read => some [.word (String.ofList read)]
  | quoted _ _ _ | less | greater => none
  | sign s => some [.operator s.operator]

/-- A token begins: whether it is complete with this character, and what has been read of it. -/
def begin (c : Char) : Option (List Token × Partial) :=
  if isSpace c then some ([], gap)
  else if isWordChar c then some ([], word [c])
  else if isQuote c then some ([], quoted c [c] false)
  else match c with
    | '(' => some ([.opening], gap)
    | ')' => some ([.closing], gap)
    | ',' => some ([.operator .comma], gap)
    | '*' => some ([.operator .mul], gap)
    | '/' => some ([.operator .div], gap)
    | '+' => some ([], sign .plus)
    | '-' => some ([], sign .minus)
    | '<' => some ([], less)
    | '>' => some ([], greater)
    | _ => none

/-- One more character. A sign that is written twice would be another operator of C. -/
def step (p : Partial) (c : Char) : Option (List Token × Partial) :=
  match p with
  | gap => begin c
  | word read =>
    if isWordChar c then some ([], word (read ++ [c]))
    else if (c = '+' || c = '-') && wantsExponent read then none
    else (begin c).map fun (ts, q) => (.word (String.ofList read) :: ts, q)
  | quoted quote read escaped =>
    if c = '\n' then none
    else if c = quote && !escaped then some ([.word (String.ofList (read ++ [c]))], gap)
    else some ([], quoted quote (read ++ [c]) (c = '\x5c' && !escaped))
  | less => if c = '<' then some ([.operator .shiftLeft], gap) else none
  | greater => if c = '>' then some ([.operator .shiftRight], gap) else none
  | sign s =>
    if c = s.symbol then none
    else (begin c).map fun (ts, q) => (.operator s.operator :: ts, q)

end Partial

/-- The tokens of a text, of the first of which something may have been read. -/
def lexFrom : Partial → List Char → Option (List Token)
  | p, [] => p.finish
  | p, c :: cs => (p.step c).bind fun (ts, q) => (lexFrom q cs).map (ts ++ ·)

/-- The tokens of a text. -/
def lex (text : String) : Option (List Token) := lexFrom .gap text.toList

/-- A space behind a token does nothing but end it. -/
theorem Partial.step_space {p : Partial} {ts : List Token} (h : p.finish = some ts) :
    p.step ' ' = some (ts, .gap) := by
  cases p with
  | sign s => cases s <;> cases h <;> rfl
  | quoted quote read escaped => cases h
  | less => cases h
  | greater => cases h
  | _ => cases h; rfl

/-- **Where a space stands** behind complete tokens, these and the tokens behind the space are the
tokens of the whole. -/
theorem lexFrom_append_space {p : Partial} {a : List Char} {ts : List Token}
    (h : lexFrom p a = some ts) (b : List Char) :
    lexFrom p (a ++ ' ' :: b) = (lexFrom .gap b).map (ts ++ ·) := by
  induction a generalizing p ts with
  | nil =>
    rw [List.nil_append, lexFrom, Partial.step_space h]
    rfl
  | cons c a ih =>
    obtain ⟨⟨us, q⟩, hstep, hrest⟩ := Option.bind_eq_some_iff.mp h
    obtain ⟨vs, hvs, rfl⟩ := Option.map_eq_some_iff.mp hrest
    rw [List.cons_append, lexFrom, hstep]
    show (lexFrom q (a ++ ' ' :: b)).map (us ++ ·) = _
    rw [ih hvs, Option.map_map]
    simp only [Function.comp_def, List.append_assoc]

/-! ## §2 From tokens to expressions -/

/-- A parenthesis that is still open: what stands in front of it, and the callee if it holds
arguments. -/
structure Frame where
  before : Pending
  callee : Option CExpr
  deriving DecidableEq, Repr

/-- Inside the innermost parenthesis, an operand has to come, or has come. -/
inductive Cursor where
  | wanting (p : Pending)
  | holding (p : Pending) (e : CExpr)
  deriving DecidableEq, Repr

/-- What has been read of an expression, with the open parentheses from the inside out. -/
structure Reader where
  cursor : Cursor
  frames : List Frame
  deriving DecidableEq, Repr

namespace Reader

/-- Nothing has been read. -/
def start : Reader := ⟨.wanting .start, []⟩

/-- One more token. -/
def step : Reader → Token → Option Reader
  | ⟨.wanting p, fs⟩, .word text => some ⟨.holding p (.word text), fs⟩
  | ⟨.wanting p, fs⟩, .operator op => op.sign?.map fun s => ⟨.wanting (.sign s p), fs⟩
  | ⟨.wanting p, fs⟩, .opening => some ⟨.wanting .start, ⟨p, none⟩ :: fs⟩
  | ⟨.wanting .start, ⟨p, some f⟩ :: fs⟩, .closing => some ⟨.holding p (.invoke f), fs⟩
  | ⟨.holding p e, fs⟩, .operator op => some ⟨.wanting (.after (p.fill e) op), fs⟩
  | ⟨.holding p e, fs⟩, .opening => some ⟨.wanting .start, ⟨p, some e⟩ :: fs⟩
  | ⟨.holding q e, ⟨p, none⟩ :: fs⟩, .closing => some ⟨.holding p (.group (q.fill e)), fs⟩
  | ⟨.holding q e, ⟨p, some f⟩ :: fs⟩, .closing => some ⟨.holding p (.call f (q.fill e)), fs⟩
  | _, _ => none

/-- Many more tokens. -/
def run (r : Reader) : List Token → Option Reader
  | [] => some r
  | t :: ts => (r.step t).bind (·.run ts)

/-- The expression, if no operand is missing and all parentheses are closed. -/
def finish : Reader → Option CExpr
  | ⟨.holding p e, []⟩ => some (p.fill e)
  | _ => none

end Reader

/-- The expression of the tokens. -/
def parse (ts : List Token) : Option CExpr := (Reader.start.run ts).bind Reader.finish

/-- The expression that C reads in the text. -/
def read (text : String) : Option CExpr := (lex text).bind parse

/-! ## §3 What is read -/

/-- Where an expression is read behind an open parenthesis, it is read up to the closing one. -/
theorem Reader.run_closing {p q : Pending} {callee : Option CExpr} {fs : List Frame} {e d : CExpr}
    (hrun : ∀ ts, Reader.run ⟨.wanting .start, ⟨p, callee⟩ :: fs⟩ (e.tokens ++ ts)
      = Reader.run ⟨.holding q d, ⟨p, callee⟩ :: fs⟩ ts)
    (hfill : q.fill d = e) (ts : List Token) :
    Reader.run ⟨.wanting .start, ⟨p, callee⟩ :: fs⟩ (e.tokens ++ .closing :: ts)
      = Reader.run ⟨.holding p (callee.elim (group e) (call · e)), fs⟩ ts := by
  rw [hrun, ← hfill]
  cases callee <;> rfl

/-- **Reading a canonical expression.** Its tokens leave an operand, which is the expression itself
if no operator and no sign stands at its root. Filled in, the operand makes what comes of the
expression operand by operand. -/
theorem exists_run_tokens {e : CExpr} (he : e.Canonical) (p : Pending) (fs : List Frame) :
    ∃ q d, (∀ ts, Reader.run ⟨.wanting p, fs⟩ (e.tokens ++ ts) = Reader.run ⟨.holding q d, fs⟩ ts) ∧
      q.fill d = e.attach p ∧ (e.level = 5 → q = p ∧ d = e) := by
  induction e generalizing p fs with
  | word text => exact ⟨p, word text, fun ts => rfl, rfl, fun _ => ⟨rfl, rfl⟩⟩
  | group e ih =>
    have hinner : e.Canonical := he
    obtain ⟨q, d, hrun, hfill, -⟩ := ih hinner .start (⟨p, none⟩ :: fs)
    rw [attach_start hinner] at hfill
    refine ⟨p, group e, fun ts => ?_, rfl, fun _ => ⟨rfl, rfl⟩⟩
    rw [tokens, List.cons_append, List.append_assoc]
    exact Reader.run_closing hrun hfill ts
  | invoke f ih =>
    obtain ⟨hf, hlevel⟩ := he
    obtain ⟨q, d, hrun, -, hprimary⟩ := ih hf p fs
    obtain ⟨rfl, rfl⟩ := hprimary hlevel
    refine ⟨q, invoke d, fun ts => ?_, rfl, fun _ => ⟨rfl, rfl⟩⟩
    rw [tokens, List.append_assoc, hrun]
    rfl
  | call f args ihf iha =>
    obtain ⟨hf, hlevel, hargs⟩ := he
    obtain ⟨q, d, hrun, -, hprimary⟩ := ihf hf p fs
    obtain ⟨rfl, rfl⟩ := hprimary hlevel
    obtain ⟨q', d', hrun', hfill, -⟩ := iha hargs .start (⟨q, some d⟩ :: fs)
    rw [attach_start hargs] at hfill
    refine ⟨q, call d args, fun ts => ?_, rfl, fun _ => ⟨rfl, rfl⟩⟩
    rw [tokens, List.append_assoc, hrun, List.cons_append, List.append_assoc]
    exact Reader.run_closing hrun' hfill ts
  | signed s e ih =>
    obtain ⟨q, d, hrun, hfill, -⟩ := ih he.1 (.sign s p) fs
    have hlevel : (signed s e).level < 5 := Nat.lt_add_one 4
    refine ⟨q, d, fun ts => ?_, hfill, fun h => absurd h (Nat.ne_of_lt hlevel)⟩
    rw [tokens, List.cons_append, ← hrun, Reader.run, Reader.step, sign?_operator]
    rfl
  | binary op l r ihl ihr =>
    obtain ⟨hl, hr, -, -⟩ := he
    obtain ⟨q, d, hrun, hfill, -⟩ := ihl hl p fs
    obtain ⟨q', d', hrun', hfill', -⟩ := ihr hr (.after (l.attach p) op) fs
    have hlevel : (binary op l r).level < 5 := Nat.lt_succ_of_lt op.level_lt
    refine ⟨q', d', fun ts => ?_, hfill', fun h => absurd h (Nat.ne_of_lt hlevel)⟩
    rw [tokens, List.append_assoc, hrun, List.cons_append, ← hrun', ← hfill]
    rfl

/-- A canonical expression is read in its tokens. -/
theorem parse_tokens {e : CExpr} (he : e.Canonical) : parse e.tokens = some e := by
  obtain ⟨q, d, hrun, hfill, -⟩ := exists_run_tokens he .start []
  have hall := hrun []
  rw [List.append_nil] at hall
  rw [attach_start he] at hfill
  rw [parse, Reader.start, hall]
  exact congrArg some hfill

/-! The other way round, the reader spells out the tokens that it has read, and keeps canonical what
it has made of them. -/

def Frame.tokens (f : Frame) : List Token :=
  f.before.tokens ++ (f.callee.elim [] CExpr.tokens ++ [.opening])

def Frame.Canonical (f : Frame) : Prop :=
  f.before.Canonical ∧ ∀ e ∈ f.callee, e.Canonical ∧ e.level = 5

def Cursor.tokens : Cursor → List Token
  | wanting p => p.tokens
  | holding p e => p.tokens ++ e.tokens

def Cursor.Canonical : Cursor → Prop
  | wanting p => p.Canonical
  | holding p e => p.Canonical ∧ e.Canonical ∧ e.level = 5

namespace Reader

/-- The tokens that have been read. -/
def tokens (r : Reader) : List Token := r.frames.reverse.flatMap Frame.tokens ++ r.cursor.tokens

def Canonical (r : Reader) : Prop := r.cursor.Canonical ∧ ∀ f ∈ r.frames, f.Canonical

variable {r r' : Reader} {t : Token} {ts : List Token}

/-- The operand that has come, filled in. -/
theorem canonical_fill_of_holding {p : Pending} {e : CExpr} (h : (Cursor.holding p e).Canonical) :
    (p.fill e).Canonical := by
  obtain ⟨hp, he, hlevel⟩ := h
  exact Pending.canonical_fill hp he (by omega)

/-- **One step** keeps canonical what has been made of the tokens. -/
theorem canonical_step (hr : r.Canonical) (h : r.step t = some r') : r'.Canonical := by
  obtain ⟨hcursor, hframes⟩ := hr
  unfold step at h
  split at h
  case h_1 p fs text =>
    cases h
    exact ⟨⟨hcursor, trivial, rfl⟩, hframes⟩
  case h_2 p fs op =>
    obtain ⟨s, -, rfl⟩ := Option.map_eq_some_iff.mp h
    exact ⟨hcursor, hframes⟩
  case h_3 p fs =>
    cases h
    exact ⟨trivial, List.forall_mem_cons.mpr ⟨⟨hcursor, nofun⟩, hframes⟩⟩
  case h_4 p f fs =>
    cases h
    obtain ⟨⟨hp, hf⟩, hfs⟩ := List.forall_mem_cons.mp hframes
    exact ⟨⟨hp, hf f rfl, rfl⟩, hfs⟩
  case h_5 p e fs op =>
    cases h
    exact ⟨canonical_fill_of_holding hcursor, hframes⟩
  case h_6 p e fs =>
    cases h
    have hcallee : ∀ f ∈ some e, f.Canonical ∧ f.level = 5 := by
      rintro f ⟨⟩
      exact hcursor.2
    exact ⟨trivial, List.forall_mem_cons.mpr ⟨⟨hcursor.1, hcallee⟩, hframes⟩⟩
  case h_7 q e p fs =>
    cases h
    obtain ⟨⟨hp, -⟩, hfs⟩ := List.forall_mem_cons.mp hframes
    exact ⟨⟨hp, canonical_fill_of_holding hcursor, rfl⟩, hfs⟩
  case h_8 q e p f fs =>
    cases h
    obtain ⟨⟨hp, hf⟩, hfs⟩ := List.forall_mem_cons.mp hframes
    obtain ⟨hcallee, hlevel⟩ := hf f rfl
    exact ⟨⟨hp, ⟨hcallee, hlevel, canonical_fill_of_holding hcursor⟩, rfl⟩, hfs⟩
  case h_9 => cases h

/-- **One step** reads one token. -/
theorem tokens_step (h : r.step t = some r') : r'.tokens = r.tokens ++ [t] := by
  unfold step at h
  split at h
  case h_2 p fs op =>
    obtain ⟨s, hs, rfl⟩ := Option.map_eq_some_iff.mp h
    simp [tokens, Cursor.tokens, Pending.tokens, operator_of_sign? hs]
  case h_9 => cases h
  all_goals
    cases h
    simp [tokens, Cursor.tokens, Frame.tokens, Pending.tokens, Pending.tokens_fill, CExpr.tokens]

/-- **Any run.** All that is made of the tokens is canonical, and spells out the tokens. -/
theorem canonical_run (hr : r.Canonical) (h : r.run ts = some r') :
    r'.Canonical ∧ r'.tokens = r.tokens ++ ts := by
  induction ts generalizing r with
  | nil =>
    cases h
    exact ⟨hr, (List.append_nil _).symm⟩
  | cons t ts ih =>
    obtain ⟨s, hstep, hrun⟩ := Option.bind_eq_some_iff.mp h
    obtain ⟨hr', htokens⟩ := ih (canonical_step hr hstep) hrun
    refine ⟨hr', ?_⟩
    rw [htokens, tokens_step hstep, List.append_assoc, List.singleton_append]

end Reader

/-- **What is read.** The tokens are read as the canonical expression that has them, and as nothing
if there is none. -/
theorem parse_eq_some_iff {ts : List Token} {e : CExpr} :
    parse ts = some e ↔ e.Canonical ∧ e.tokens = ts := by
  refine ⟨?_, ?_⟩
  · intro h
    obtain ⟨⟨cursor, frames⟩, hrun, hfinish⟩ := Option.bind_eq_some_iff.mp h
    have hstart : Reader.start.Canonical := ⟨trivial, nofun⟩
    obtain ⟨⟨hcursor, -⟩, htokens⟩ := Reader.canonical_run hstart hrun
    -- at the end an operand has come, and no parenthesis is open
    cases cursor with
    | wanting p => cases hfinish
    | holding p d =>
      cases frames with
      | cons f fs => cases hfinish
      | nil =>
        cases hfinish
        exact ⟨Reader.canonical_fill_of_holding hcursor, (p.tokens_fill d).trans htokens⟩
  · rintro ⟨he, rfl⟩
    exact parse_tokens he

/-- A text is read as the canonical expression of its tokens. -/
theorem read_eq_some_iff {text : String} {e : CExpr} :
    read text = some e ↔ e.Canonical ∧ lex text = some e.tokens := by
  rw [read, Option.bind_eq_some_iff]
  simp only [parse_eq_some_iff]
  refine ⟨?_, ?_⟩
  · rintro ⟨ts, hlex, he, rfl⟩
    exact ⟨he, hlex⟩
  · rintro ⟨he, hlex⟩
    exact ⟨e.tokens, hlex, he, rfl⟩

example : read "n - -f(a+1, b)/2 - k << 3" =
    some (.binary .shiftLeft
      (.binary .sub
        (.binary .sub (.word "n")
          (.binary .div
            (.signed .minus
              (.call (.word "f")
                (.binary .comma (.binary .add (.word "a") (.word "1")) (.word "b"))))
            (.word "2")))
        (.word "k"))
      (.word "3")) := by decide +kernel

example : read "a--b" = none ∧ read "a (b" = none ∧ read "f(')'" = none ∧ read "0xe+1" = none := by
  decide +kernel

end Interop.CExpr
