import LineCalc.Text.Blank

/-!
# Paths of files

A path is a list of names from a root or from where one is. Empty names and `.` mean nothing and
are left out.
-/

namespace LineCalc

/-- A path. -/
structure Path where
  /-- The slashes that the path begins with: none, one, or exactly two. -/
  root : String
  names : List String
deriving DecidableEq, Repr

namespace Path

/-- The slashes that a path begins with; three or more count as one. -/
def rootOf : List Char → String
  | '/' :: '/' :: '/' :: _ => "/"
  | '/' :: '/' :: _ => "//"
  | '/' :: _ => "/"
  | _ => ""

/-- The path that a text states. -/
def ofText (text : String) : Path where
  root := rootOf text.toList
  names := (Text.pieces '/' text).filter fun name => name != "" && name != "."

/-- A name below a path. -/
def below (p : Path) (name : String) : Path := { p with names := p.names ++ [name] }

/-- The text of a path; the path without names is `.`. -/
def toText (p : Path) : String :=
  let text := p.root ++ "/".intercalate p.names
  if text.isEmpty then "." else text

end Path

end LineCalc
