import Interop.Text.Blank

/-!
# Interop.Doc — documentation with links to constants.

The documentation of a parameter or a function is a text. It may end in the list of the constants
that are meant for it, given as words in one string; a word may carry a number sign, which is
dropped.
-/

namespace Interop

/-- How many of the linked constants a value may take. -/
inductive LinkMode where
  /-- Exactly one. -/
  | single
  /-- Several, combined bit by bit. -/
  | bitfield
  deriving DecidableEq, Repr

namespace LinkMode

/-- The words in front of the list of constants. -/
def lead : LinkMode → String
  | single => "One of:"
  | bitfield => "One or more of:"

end LinkMode

namespace Doc

/-! ## Links -/

/-- A linked constant as it is shown: without a leading number sign, in backquotes. -/
def constant (word : List Char) : String :=
  "`" ++ String.ofList (match word with | '#' :: rest => rest | _ => word) ++ "`"

/-- The constants of a string of links, in order. -/
def constants (links : String) : List String := (Text.words links.toList).map constant

/-- The constants one after the other, with commas between them. -/
def constantList (links : String) : String := ", ".intercalate (constants links)

/-- The text with the list of constants behind it, set off by an empty line if there is a text. -/
def appendLinks (mode : LinkMode) (text links : String) : String :=
  (if text.isEmpty then "" else text ++ "\n\n") ++ mode.lead ++ " " ++ constantList links

/-- The documentation made of a text and links: none if both are empty, the text as it is if there
are no links. -/
def withLinks (mode : LinkMode) (text links : String) : Option String :=
  if links.isEmpty then (if text.isEmpty then none else some text)
  else some (appendLinks mode text links)

/-- There is no documentation exactly when both strings are empty. -/
theorem withLinks_eq_none_iff {mode : LinkMode} {text links : String} :
    withLinks mode text links = none ↔ text.isEmpty = true ∧ links.isEmpty = true := by
  unfold withLinks
  split
  · rename_i h; split <;> simp_all
  · rename_i h; simp_all

end Doc

end Interop
