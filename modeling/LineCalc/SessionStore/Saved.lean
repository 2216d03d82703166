import LineCalc.Json.Writer
import LineCalc.SessionStore

/-!
# Saved sessions

All stored sessions as one JSON object, with a member for each of them.
-/

namespace LineCalc

/-- Lines as a JSON value; those that are no JSON become a text that is no list. -/
def StoredLines.toJson : StoredLines → Json
  | .texts lines => .array (lines.map .string)
  | .value j => j
  | .malformed | .tooLong _ => .null

/-- A stored session as a JSON value. -/
def StoredSession.toJson (s : StoredSession) : Json :=
  .object [("lines", s.lines.toJson), ("precision", .integer s.precision), ("strict", .bool s.strict)]

/-- A stored session from a JSON value. What is missing is as in a new session. -/
def StoredSession.ofJson (j : Json) : StoredSession where
  lines := ((j.get? "lines").map .ofJson).getD (.texts [])
  precision := match j.get? "precision" with
    | some (.integer n) => n
    | _ => defaultPrecision
  strict := ((j.get? "strict").map (·.truthy)).getD false

/-- The text of all stored sessions. -/
def SessionStore.savedText (s : SessionStore) : String :=
  (Json.object (s.sessions.map fun (name, session) => (name, session.toJson))).indented

/-- The sessions in a text; none if it is no JSON object. -/
def SessionStore.ofText (text : String) : SessionStore :=
  match Json.read text with
  | .ok (.object members) =>
    { sessions := members.map fun (name, j) => (name, .ofJson j) }
  | _ => {}

end LineCalc
