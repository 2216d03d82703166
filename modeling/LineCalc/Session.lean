import LineCalc.Entries
import LineCalc.Evaluation
import LineCalc.Value.Precision

/-!
# Sessions

What successive lines share: the variables, the previous result, the lines so far with their
values, and the settings. Rates are not part of a session.

A line that goes on from the previous result consumes the line that had it: the total counts only
lines that are not consumed, so a chain of continuations counts once, by its last value.
-/

namespace LineCalc

/-- A line and what came of it. -/
structure LineRecord where
  raw : String
  value : Value
  /-- A later continuation has taken the value up. -/
  consumed : Bool := false
  continuation : Bool := false
  /-- The variable that the line set. -/
  assigned : Option String := none
deriving DecidableEq, Repr

/-- A session. -/
structure Session where
  /-- The variables in the order in which they were first set. -/
  bindings : Entries String Value := []
  previous : Value := .empty
  /-- The lines, the oldest first. -/
  history : List LineRecord := []
  precision : Precision := .default
  strict : Bool := false

/-! ## Names -/

/-- The names of the previous result. -/
def previousNames : List String := ["_", "ans"]

/-- The name of the total. -/
def totalName : String := "total"

/-- A name that cannot be assigned to. -/
def isReservedName (name : String) : Bool :=
  (previousNames ++ [totalName]).contains (Text.lower name)

/-! ## History -/

/-- The line has an amount that no later line has taken up. -/
def LineRecord.counts (r : LineRecord) : Bool := !r.consumed && r.value.isValid

/-- Marks the latest line with an amount as consumed, if there is one. -/
def consumeLatest? : List LineRecord → Option (List LineRecord)
  | [] => none
  | r :: rest =>
    match consumeLatest? rest with
    | some rest => some (r :: rest)
    | none => if r.value.isValid then some ({ r with consumed := true } :: rest) else none

namespace Session

/-- The amounts of the lines that count, added up in order. -/
def total (s : Session) : Value :=
  .number ((s.history.filter (·.counts)).foldl (fun sum r => sum + r.value.magnitude) 0)

/-- A line comes to the history. -/
def record (s : Session) (r : LineRecord) : Session := { s with history := s.history ++ [r] }

/-- The latest line with an amount is consumed. -/
def consume (s : Session) : Session :=
  { s with history := (consumeLatest? s.history).getD s.history }

/-- A value becomes the previous result, if it is an amount. -/
def setPrevious (s : Session) (v : Value) : Session :=
  if v.isValid then { s with previous := v } else s

/-- The last line. -/
def lastLine? (s : Session) : Option LineRecord := s.history.getLast?

/-! ## Variables -/

/-- The value of a name. Some names are reserved for the previous result and the total; of the
variables, one of exactly this name comes before the first whose name differs in case only. -/
def find? (s : Session) (name : String) : Option Value :=
  let key := Text.lower name
  if previousNames.contains key then if s.previous.isEmpty then none else some s.previous
  else if key == totalName then some s.total
  else s.bindings.lookup name
    <|> (s.bindings.find? fun (n, _) => Text.lower n == key).map (·.2)

/-- Sets a variable. Reserved names and problems are refused. -/
def setVariable? (s : Session) (name : String) (v : Value) : Option Session :=
  if isReservedName name || v.isError then none
  else some { s with bindings := s.bindings.set name v }

/-- Removes the variable of exactly this name, if there is one. -/
def deleteVariable? (s : Session) (name : String) : Option Session :=
  if (s.bindings.lookup name).isSome then
    some { s with bindings := s.bindings.filter (·.1 != name) }
  else none

/-- The names of the variables in order. -/
def variableNames (s : Session) : List String :=
  (s.bindings.map (·.1)).mergeSort (fun a b => a ≤ b)

/-! ## Lifecycle -/

/-- Sets the precision to what a client gives. -/
def setPrecision (s : Session) (given : Json) : Except Fault Session :=
  (Precision.ofJson given).map fun precision => { s with precision }

/-- Forgets everything but the settings. -/
def clear (s : Session) : Session := { precision := s.precision, strict := s.strict }

/-- Forgets the variables. -/
def clearVariables (s : Session) : Session := { s with bindings := [] }

/-- Forgets the lines and the previous result. -/
def clearLines (s : Session) : Session := { s with history := [], previous := .empty }

/-- A value as the session shows it. -/
def format (s : Session) (v : Value) : Except Fault String := v.formatAt s.precision

end Session

end LineCalc
