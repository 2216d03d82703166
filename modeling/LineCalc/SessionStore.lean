import LineCalc.Entries
import LineCalc.Json.Reader
import LineCalc.Session.Eval

/-!
# Stored sessions

A session is stored as its lines and its settings. It comes back by evaluating the lines anew. What
is stored under a name may have been tampered with, so the stored lines may be any JSON value or no
JSON at all.
-/

namespace LineCalc

/-- Lines as they are stored. -/
inductive StoredLines
  | texts (lines : List String)
  /-- A JSON value that is no list of strings. -/
  | value (j : Json)
  /-- A text that is no JSON. -/
  | malformed
  /-- A JSON text with an integer of too many digits. -/
  | tooLong (digits : Nat)
deriving Inhabited

namespace StoredLines

/-- The strings in a list of strings. -/
def stringsOf? : List Json → Option (List String)
  | [] => some []
  | .string s :: rest => (stringsOf? rest).map (s :: ·)
  | _ :: _ => none

/-- Lines from a JSON value. -/
def ofJson (j : Json) : StoredLines :=
  match j with
  | .array items => ((stringsOf? items).map texts).getD (value j)
  | _ => value j

/-- Lines from a stored text. -/
def ofText (text : String) : StoredLines :=
  match Json.read text with
  | .ok j => ofJson j
  | .error .malformed => malformed
  | .error (.integerTooLong digits) => tooLong digits

/-- The lines to be evaluated: those of a text are its characters, those of an object its keys. -/
def replayed : StoredLines → Except Fault (List String)
  | texts lines => .ok lines
  | value (.string s) => .ok (s.toList.map String.singleton)
  | value (.object ms) => .ok (ms.map (·.1))
  | value _ => .error .wrongType
  | malformed => .ok []
  | tooLong digits => .error (.integerTooLong digits)

/-- How many lines there are. -/
def count : StoredLines → Except Fault Nat
  | texts lines => .ok lines.length
  | value (.array items) => .ok items.length
  | value j => (value j).replayed.map List.length
  | malformed => .ok 0
  | tooLong digits => .error (.integerTooLong digits)

/-- The lines with one more; only a list can have one more. -/
def push (line : String) : StoredLines → Except Fault StoredLines
  | texts lines => .ok (texts (lines ++ [line]))
  | value (.array items) => .ok (value (.array (items ++ [.string line])))
  | _ => .error .wrongType

/-- The stored text is no JSON. -/
def isMalformed : StoredLines → Bool
  | malformed => true
  | _ => false

end StoredLines

/-- A stored session. -/
structure StoredSession where
  lines : StoredLines := .texts []
  precision : Int := defaultPrecision
  strict : Bool := false
deriving Inhabited

/-- The sessions stored under their names. -/
structure SessionStore where
  sessions : Entries String StoredSession := []
  /-- How many new sessions have been asked for. -/
  created : Nat := 0
  /-- There is no place to store sessions in. -/
  missing : Bool := false

namespace SessionStore

/-- The stored session of a name. Malformed lines give a new session in its place. -/
def load (s : SessionStore) (name : String) : Except Fault (Option StoredSession) :=
  if s.missing then .ok none
  else match s.sessions.lookup name with
    | none => .ok none
    | some stored => match stored.lines with
      | .malformed => .ok (some {})
      | .tooLong digits => .error (.integerTooLong digits)
      | _ => .ok (some stored)

/-- Stores a session under a name. -/
def save (s : SessionStore) (name : String) (session : StoredSession) : Option SessionStore :=
  if s.missing then none else some { s with sessions := s.sessions.set name session }

/-- The name of the next new session. -/
def nextName (s : SessionStore) : String := s!"s{s.created + 1}"

/-- Stores a new session, unless its name is taken. -/
def create (s : SessionStore) : Option String × SessionStore :=
  let name := s.nextName
  let s := { s with created := s.created + 1 }
  if s.missing || (s.sessions.lookup name).isSome then (none, s)
  else (some name, { s with sessions := s.sessions.set name {} })

/-- Removes a session, if it is stored. -/
def delete (s : SessionStore) (name : String) : Option SessionStore :=
  if s.missing || (s.sessions.lookup name).isNone then none
  else some { s with sessions := s.sessions.filter (·.1 != name) }

/-- The names of all sessions with their counts of lines. If the lines of any are malformed then
nothing is told. -/
def list (s : SessionStore) : Except Fault (List (String × Nat)) :=
  if s.missing then .ok []
  else
    let rec go : List (String × StoredSession) → Except Fault (Option (List (String × Nat)))
      | [] => .ok (some [])
      | (name, stored) :: rest =>
        if stored.lines.isMalformed then .ok none
        else do
          let n ← stored.lines.count
          return (← go rest).map ((name, n) :: ·)
    (go s.sessions).map (·.getD [])

end SessionStore

/-- The precision that a stored session is to have. -/
def StoredSession.precision? (stored : StoredSession) : Except Fault Precision :=
  Precision.ofJson (.integer stored.precision)

/-- Evaluates the stored lines in a new session with the stored settings. -/
def StoredSession.rebuild (stored : StoredSession) (rates : RateTable) : Except Fault Session := do
  let precision ← stored.precision?
  let lines ← stored.lines.replayed
  let (values, s) := ({ precision, strict := stored.strict } : Session).evalAll rates lines
  let _ ← values
  return s

end LineCalc
