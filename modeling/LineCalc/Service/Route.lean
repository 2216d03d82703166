import LineCalc.Text.Blank
import LineCalc.Text.Utf8

/-!
# Routes

What the paths of requests stand for, and the methods that each of them takes.
-/

namespace LineCalc

/-- What a path stands for. -/
inductive Route
  | calculate
  | sessions
  | session (name : String)
  | settings (name : String)
  | calculateIn (name : String)
  | rate (source target : String)
  /-- A file among those that never change; there are none. -/
  | fixedFile
deriving DecidableEq, Repr

namespace Route

/-- The route of a path in pieces. A name in a path is not empty. -/
def ofPieces? : List String → Option Route
  | ["", "calculate"] => some .calculate
  | ["", "sessions"] => some .sessions
  | ["", "sessions", name] => if name.isEmpty then none else some (.session name)
  | ["", "sessions", name, "settings"] => if name.isEmpty then none else some (.settings name)
  | ["", "sessions", name, "calculate"] => if name.isEmpty then none else some (.calculateIn name)
  | ["", "rates", source, target] =>
    if source.isEmpty || target.isEmpty then none else some (.rate source target)
  | "" :: "static" :: name :: _ => if name.isEmpty then none else some .fixedFile
  | _ => none

/-- The route of a path. -/
def ofPath? (path : String) : Option Route := ofPieces? (Text.pieces '/' path)

/-- The methods that a route takes, apart from `OPTIONS` and, along with `GET`, `HEAD`. -/
def methods : Route → List String
  | .calculate | .calculateIn _ => ["POST"]
  | .sessions => ["POST", "GET"]
  | .session _ => ["GET", "DELETE"]
  | .settings _ => ["PUT"]
  | .rate .. | .fixedFile => ["GET"]

/-- The route takes a method. -/
def takes (r : Route) (method : String) : Bool :=
  method == "OPTIONS" || r.methods.contains method || method == "HEAD" && r.methods.contains "GET"

end Route

/-- A path in which of each two slashes side by side only one is left. -/
def mergeSlashes : List Char → List Char
  | '/' :: '/' :: rest => '/' :: mergeSlashes rest
  | c :: rest => c :: mergeSlashes rest
  | [] => []

/-- A target without the host that it begins with, if it names one after two slashes. -/
def withoutHost : List Char → List Char
  | '/' :: '/' :: rest => rest.dropWhile (· != '/')
  | cs => cs

/-- A path that begins with exactly one slash, unless it is empty. -/
def withOneSlash (path : String) : String :=
  if path.isEmpty then path else String.ofList ('/' :: path.toList.dropWhile (· == '/'))

/-- The path in the target of a request: without what follows a question mark or a number sign, and
with its escapes resolved. -/
def pathOfTarget (target : String) : String :=
  let cs := withoutHost (target.toList.takeWhile fun c => c != '?' && c != '#')
  withOneSlash (Text.percentDecoded (String.ofList cs))

end LineCalc
