import LineCalc.Expr.Parser
import LineCalc.Session

/-!
# Lines in a session

A line is evaluated in a session and recorded there. A line with an amount becomes the previous
result; a valid continuation consumes the line that it goes on from; an assignment sets its
variable. A line that comes to a problem is recorded and changes nothing else, and a line that
meets a fault leaves the session as it was.
-/

namespace LineCalc.Session

/-- What expressions are evaluated in. -/
def scope (s : Session) (rates : RateTable) : Scope where
  find := s.find?
  previous := s.previous
  strict := s.strict
  rates := rates

/-- The value of a statement, with the session in which its record is to be made. -/
def runStatement (s : Session) (rates : RateTable) (raw : String) :
    Statement → Except Fault (LineRecord × Session)
  | .empty | .comment _ => .ok ({ raw, value := .empty }, s)
  | .assign name e =>
    if isReservedName name then .ok ({ raw, value := .error (.reservedName name) }, s)
    else do
      let value ← e.eval (s.scope rates)
      if value.isValid then
        return ({ raw, value, assigned := some name }, (s.setVariable? name value).getD s)
      else return ({ raw, value }, s)
  | .expr e => do
    let value ← e.eval (s.scope rates)
    let continuation := e.isContinuation
    return ({ raw, value, continuation },
      if continuation && value.isValid then s.consume else s)

/-- Evaluates a statement and records it. -/
def evalStatement (s : Session) (rates : RateTable) (raw : String) (st : Statement) :
    Except Fault (Value × Session) :=
  (s.runStatement rates raw st).map fun (r, s) => (r.value, (s.record r).setPrevious r.value)

/-- Evaluates a line. Of a malformed line only its first problem is recorded. -/
def eval (s : Session) (rates : RateTable) (text : String) : Except Fault (Value × Session) := do
  let (line, problems) ← Line.parse text
  match problems with
  | d :: _ => return (.error d.problem, s.record { raw := text, value := .error d.problem })
  | [] => s.evalStatement rates text line.statement

/-- Evaluates lines one after another, up to the first fault. -/
def evalAll (s : Session) (rates : RateTable) : List String → Except Fault (List Value) × Session
  | [] => (.ok [], s)
  | text :: rest =>
    match s.eval rates text with
    | .error f => (.error f, s)
    | .ok (v, s) =>
      let (vs, s) := s.evalAll rates rest
      (vs.map (v :: ·), s)

/-- The value that a line would have. -/
def preview (s : Session) (rates : RateTable) (text : String) : Except Fault Value :=
  (s.eval rates text).map (·.1)

section

variable {s : Session} {rates : RateTable} {text : String} {line : Line} {e : Expr} {v : Value}

/-- A line without problems is evaluated as its statement. -/
theorem eval_of_parse (parsed : Line.parse text = .ok (line, [])) :
    s.eval rates text = s.evalStatement rates text line.statement := by
  rw [eval, parsed]
  rfl

/-- What a line with an expression comes to, and what it leaves. -/
theorem eval_of_expr (parsed : Line.parse text = .ok (line, []))
    (statement : line.statement = .expr e) (value : e.eval (s.scope rates) = .ok v) :
    s.eval rates text = .ok (v, ((if e.isContinuation && v.isValid then s.consume else s).record
      { raw := text, value := v, continuation := e.isContinuation }).setPrevious v) := by
  rw [eval_of_parse parsed, statement, evalStatement, runStatement, value]
  rfl

/-- A line has the value of its expression. -/
theorem preview_of_expr (parsed : Line.parse text = .ok (line, []))
    (statement : line.statement = .expr e) : s.preview rates text = e.eval (s.scope rates) := by
  rw [preview, eval_of_parse parsed, statement, evalStatement, runStatement]
  cases e.eval (s.scope rates) <;> rfl

end

end LineCalc.Session

namespace LineCalc

/-- A line evaluated by itself and shown. -/
def evalOnce (rates : RateTable) (text : String) (precision : Json) : Except Fault String := do
  let s ← ({} : Session).setPrecision precision
  let (v, s) ← s.eval rates text
  s.format v

/-- The text of a file has one kind of line end, however it was written. -/
def unifyLineEnds : List Char → List Char
  | '\r' :: '\n' :: rest => '\n' :: unifyLineEnds rest
  | '\r' :: rest => '\n' :: unifyLineEnds rest
  | c :: rest => c :: unifyLineEnds rest
  | [] => []

/-- The lines of a file. -/
def fileLines (text : String) : List String :=
  Text.lines (String.ofList (unifyLineEnds text.toList))

end LineCalc
