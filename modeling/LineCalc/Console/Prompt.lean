import LineCalc.Console.Command
import LineCalc.SessionStore

/-!
# The prompt

Lines are read one by one: commands are run, all others are evaluated and shown. A session may be
kept: then the lines that came to an amount are stored after each of them, with the settings of
that moment.
-/

namespace LineCalc

/-- What is typed at the prompt. -/
inductive Typed
  | line (text : String)
  | interrupt

/-- The prompt between two lines. -/
structure Prompt where
  session : Session := {}
  rates : RateTable
  store : SessionStore
  /-- The name that the session is kept under, and the lines stored so far. -/
  kept : Option (String × List String) := none

namespace Prompt

/-- What is printed on leaving. -/
def farewell : List String := ["Bye!"]

/-- What is printed on leaving by an interrupt. -/
def interrupted : List String := ["\nKeyboard interrupt received. Exiting..."] ++ farewell

/-- Stores the lines of a session that is kept, with one more. -/
def keep (p : Prompt) (line : String) : Prompt :=
  match p.kept with
  | none => p
  | some (name, lines) =>
    let lines := lines ++ [line]
    let stored : StoredSession :=
      ⟨.texts lines, p.session.precision.count, p.session.strict⟩
    { p with kept := some (name, lines), store := (p.store.save name stored).getD p.store }

/-- Evaluates a line: what is printed, and the prompt after it. -/
def evaluate (p : Prompt) (line : String) : Except Fault (List String × Prompt) := do
  let (v, session) ← p.session.eval p.rates line
  let p := { p with session }
  match v with
  | .error problem => return (["Error: " ++ problem.message], p)
  | .empty => return ([], p)
  | v =>
    let shown ← session.format v
    let name := ((session.lastLine?.bind (·.assigned)).map (· ++ " ")).getD ""
    return ([name ++ "= " ++ shown], p.keep line)

/-- Takes one line: what is printed, and the prompt after it unless the line leaves it. -/
def take (p : Prompt) (line : String) : Except Fault (List String × Option Prompt) :=
  if (Text.trim line).isEmpty then .ok ([], some p)
  else match Command.ofLine? line with
    | some .exit => .ok ([], none)
    | some c => (c.run p.session p.rates).map fun (out, session) => (out, some { p with session })
    | none => (p.evaluate line).map fun (out, p) => (out, some p)

/-- Takes lines until one leaves the prompt or there is none left: all that is printed, and the
prompt at the end. -/
def takeAll (p : Prompt) : List Typed → Except Fault (List String × Prompt)
  | [] => .ok (farewell, p)
  | .interrupt :: _ => .ok (interrupted, p)
  | .line text :: rest => do
    match ← p.take text with
    | (out, none) => return (out ++ farewell, p)
    | (out, some p) =>
      let (others, p) ← p.takeAll rest
      return (out ++ others, p)

end Prompt

end LineCalc
