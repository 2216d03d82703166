import LineCalc.Entries
import LineCalc.Files.Path
import LineCalc.Text.Quoted

/-!
# Folders

Text files by their paths below a folder. Names above a file are folders; a file is found, or there
is a reason why it is not.
-/

namespace LineCalc

/-- Why a file cannot be read. -/
inductive FileProblem
  | missing
  | isFolder
  /-- What stands where a folder is needed is a file. -/
  | noFolder
  | nameTooLong
deriving DecidableEq, Repr

/-- The number and the words of a problem with a file. -/
def FileProblem.words : FileProblem → String
  | .missing => "[Errno 2] No such file or directory"
  | .isFolder => "[Errno 21] Is a directory"
  | .noFolder => "[Errno 20] Not a directory"
  | .nameTooLong => "[Errno 36] File name too long"

/-- The wording of a problem with the file at a path. -/
def FileProblem.message (p : FileProblem) (path : String) : String :=
  p.words ++ ": " ++ Text.quoted path

/-- Text files by their paths. -/
abbrev Folder := Entries (List String) String

namespace Folder

/-- A file stands at a proper beginning of the path. -/
def isBlocked (f : Folder) (names : List String) : Bool :=
  f.any fun (file, _) => file.isPrefixOf names && file.length < names.length

/-- Files stand below the path. -/
def holdsBelow (f : Folder) (names : List String) : Bool :=
  f.any fun (file, _) => names.isPrefixOf file && names.length < file.length

/-- Where a path has led so far. -/
inductive Spot
  /-- To a file or a folder, by the names from the outermost folder on. -/
  | inside (names : List String)
  /-- Out of the outermost folder. Nothing but folders is known of what is there. -/
  | outside
deriving DecidableEq, Repr

/-- The longest name, in bytes. -/
def longestName : Nat := 255

/-- The longest path, in bytes. -/
def longestPath : Nat := 4095

/-- Follows the names of a path one by one. Each of them is looked up in a folder that has to be
there; an empty name and `.` stay in it, and `..` leads to the folder around it. -/
def follow (f : Folder) : Spot → List String → Except FileProblem Spot
  | spot, [] => .ok spot
  | .outside, name :: rest =>
    if ["", ".", ".."].contains name then follow f .outside rest
    else .error (if name.utf8ByteSize > longestName then .nameTooLong else .missing)
  | .inside names, name :: rest =>
    if (f.lookup names).isSome then .error .noFolder
    else if name == "" || name == "." then follow f (.inside names) rest
    else if name == ".." then
      follow f (if names.isEmpty then .outside else .inside names.dropLast) rest
    else if name.utf8ByteSize > longestName then .error .nameTooLong
    else
      let names := names ++ [name]
      if (f.lookup names).isSome || f.holdsBelow names then follow f (.inside names) rest
      else .error .missing

/-- The text of the file at a path. -/
def read (f : Folder) (path : String) : Except FileProblem String :=
  if path.isEmpty then .error .missing
  else if path.utf8ByteSize > longestPath then .error .nameTooLong
  else do
    let start := if path.startsWith "/" then Spot.outside else .inside []
    match ← f.follow start (Text.pieces '/' path) with
    | .outside => .error .isFolder
    | .inside names => (f.lookup names).elim (.error .isFolder) .ok

/-- Writes a file, making the folders above it; nothing if a file is in the way of these. -/
def write? (f : Folder) (path : Path) (text : String) : Option Folder :=
  if f.isBlocked path.names || f.holdsBelow path.names then none
  else some (f.set path.names text)

end Folder

end LineCalc
