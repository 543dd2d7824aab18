/-!
# Interop.Text.Blank — blank characters and the words between them.

A character is blank when Unicode gives it the property White_Space. `words` cuts a text at
its blanks; runs of blanks, and blanks at either end, leave no empty word behind.
-/

namespace Interop.Text

/-! ## The property White_Space -/

/-- The ranges of code points with the property White_Space, both ends included. -/
def blankRanges : List (Nat × Nat) :=
  [(0x09, 0x0D), (0x20, 0x20), (0x85, 0x85), (0xA0, 0xA0), (0x1680, 0x1680), (0x2000, 0x200A),
    (0x2028, 0x2029), (0x202F, 0x202F), (0x205F, 0x205F), (0x3000, 0x3000)]

/-- A blank character: its code point lies in one of the ranges. -/
def isBlank (c : Char) : Bool :=
  blankRanges.any fun r => r.1 ≤ c.toNat && c.toNat ≤ r.2

/-! ## Words -/

/-- The words of a text whose first word has already begun with `word`, kept in reverse. -/
def wordsFrom (word : List Char) : List Char → List (List Char)
  | [] => if word.isEmpty then [] else [word.reverse]
  | c :: cs =>
    if isBlank c then (if word.isEmpty then [] else [word.reverse]) ++ wordsFrom [] cs
    else wordsFrom (c :: word) cs

/-- The maximal runs of characters that are not blank, in order. -/
def words (cs : List Char) : List (List Char) := wordsFrom [] cs

@[simp] theorem words_nil : words [] = [] := rfl

/-- A blank in front is skipped. -/
theorem words_blank_cons {c : Char} (h : isBlank c = true) (cs : List Char) :
    words (c :: cs) = words cs := by
  simp [words, wordsFrom, h]

/-- A blank ends the word in front of it, whatever has been read of that word. -/
theorem wordsFrom_append_blank {c : Char} (h : isBlank c = true) (word a b : List Char) :
    wordsFrom word (a ++ c :: b) = wordsFrom word a ++ words b := by
  induction a generalizing word with
  | nil => simp [wordsFrom, words, h]
  | cons d a ih =>
    by_cases hd : isBlank d = true
    · simp [wordsFrom, hd, ih, List.append_assoc]
    · simp [wordsFrom, hd, ih]

/-- **Splitting at a blank.** The words in front of a blank and the words behind it are the words
of the whole. -/
theorem words_append_blank {c : Char} (h : isBlank c = true) (a b : List Char) :
    words (a ++ c :: b) = words a ++ words b :=
  wordsFrom_append_blank h [] a b

end Interop.Text
