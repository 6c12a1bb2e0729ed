/-
# Paths

A path is kept as it was written, because messages show it so, together with the names that it
leads through from the top of the tree.  A relative path starts at a working directory; `.`
stays where it is and `..` goes back by one name.

* `Path.ofText` reads a path, `Path.join` puts a name below one;
* `Path.parent?` is the written path without its last name, as far as there is one.
-/
import IrrigationLog.Text.Split

namespace IrrigationLog

open Text

/-- A written path and where it leads. -/
structure Path where
  /-- The path as it was written. -/
  text : String
  /-- The names from the top of the tree. -/
  names : List String
  deriving DecidableEq, Inhabited

namespace Path

/-! ## 1. Reading -/

/-- One step of a written path. -/
def step (names : List String) (part : List Char) : List String :=
  if part = [] ∨ part = ['.'] then names
  else if part = ['.', '.'] then names.dropLast
  else names ++ [String.ofList part]

/-- The path with a text, read from a working directory. -/
def ofText (cwd : List String) (text : String) : Path :=
  let start := if text.toList.head? = some '/' then [] else cwd
  ⟨text, (cutAt (· == '/') text.toList).foldl step start⟩

/-- A text with a name put below it. -/
def joinText (text name : String) : String :=
  if text = "" then name
  else if text.toList.getLast? = some '/' then text ++ name
  else text ++ "/" ++ name

/-- The path of a name below this one. -/
def join (p : Path) (name : String) : Path := ⟨joinText p.text name, p.names ++ [name]⟩

/-! ## 2. The parent -/

/-- A reversed text without the slashes, and the single dots between them, that come first. -/
def dropSlashes : List Char → List Char
  | '/' :: cs => dropSlashes cs
  | '.' :: '/' :: cs => dropSlashes ('/' :: cs)
  | cs => cs
termination_by cs => cs.length

/-- The written path without its last name.  There is none of the top and of the empty path. -/
def parent? (cwd : List String) (p : Path) : Option Path :=
  let absolute := p.text.toList.head? = some '/'
  let body := dropSlashes p.text.toList.reverse
  if body = [] then none
  else
    let above := dropSlashes (body.dropWhile (· ≠ '/'))
    let text := if above = [] ∧ absolute then "/" else String.ofList above.reverse
    some (ofText cwd text)

/-- Joining a name leads one name further. -/
@[simp]
theorem names_join (p : Path) (name : String) : (p.join name).names = p.names ++ [name] := rfl

end Path

end IrrigationLog
