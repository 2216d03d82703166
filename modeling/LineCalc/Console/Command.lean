import LineCalc.Session.Totals

/-!
# Commands

Lines at the prompt that are not calculations: they show or change the session, or leave it.
-/

namespace LineCalc

/-- A command. -/
inductive Command
  | exit
  | help
  | showVariables
  | total
  | clear
  /-- The precision as it was typed. -/
  | precision (text : String)
  | strict (on : Bool)
deriving DecidableEq, Repr

/-- The help on lines and commands. -/
def helpLines : List String := [
  "",
  "Usage examples:",
  "  2 + 3 * 4           - Arithmetic with precedence",
  "  $100 + 15%          - Add a percentage to a base",
  "  20% of 150          - Percentage of a value",
  "  5 km in miles       - Convert units",
  "  $10 in EUR          - Convert currencies",
  "  0.5 btc in usd      - Convert crypto",
  "  x = 10              - Assign a variable",
  "  + 5                 - Continue from the previous result",
  "  in GBP              - Convert the previous result",
  "  sum(1, 2, 3)        - Built-in functions",
  "",
  "Commands:",
  "  vars                - Show all variables",
  "  total               - Show the running total and totals per type",
  "  clear               - Forget variables and history",
  "  precision N         - Set display precision (0-15)",
  "  strict on|off       - Toggle errors for undefined variables",
  "  help                - Show this help message",
  "  exit/quit           - Exit the calculator",
  ""]

/-- The help as one text. -/
def helpText : String := "\n".intercalate helpLines

namespace Command

/-- The words that commands begin with, for completion. -/
def keywords : List String :=
  ["vars", "total", "clear", "help", "exit", "quit", "precision", "strict"]

/-- The command that a line is. The first word may be in any case. -/
def ofLine? (line : String) : Option Command :=
  match Text.words line with
  | [word] =>
    match Text.lower word with
    | "exit" | "quit" | "bye" => some .exit
    | "help" => some .help
    | "vars" => some .showVariables
    | "total" => some .total
    | "clear" => some .clear
    | _ => none
  | [word, argument] =>
    match Text.lower word, Text.lower argument with
    | "precision", _ => some (.precision argument)
    | "strict", "on" => some (.strict true)
    | "strict", "off" => some (.strict false)
    | _, _ => none
  | _ => none

/-- The variables in the order of their names, one a line. -/
def listVariables (s : Session) : Except Fault (List String) :=
  let sorted := s.bindings.mergeSort fun a b => a.1 ≤ b.1
  if sorted.isEmpty then .ok ["No variables defined."]
  else sorted.mapM fun (name, v) => (s.format v).map fun shown => s!"  {name} = {shown}"

/-- The total, and the totals by kind, one a line. -/
def showTotals (s : Session) (rates : RateTable) : Except Fault (List String) := do
  let total ← s.format s.total
  let others ← (s.groupedTotals rates).mapM s.format
  return s!"Total: {total}" :: others.map ("  " ++ ·)

/-- Sets the precision to what was typed, or says why it cannot be. -/
def setPrecision (s : Session) (text : String) : List String × Session :=
  match Precision.ofText text with
  | .ok p => ([s!"Precision set to {p.count}."], { s with precision := p })
  | .error f => (["Error: " ++ f.message], s)

/-- What a command prints and leaves of the session. -/
def run (c : Command) (s : Session) (rates : RateTable) :
    Except Fault (List String × Session) :=
  match c with
  | .exit => .ok ([], s)
  | .help => .ok ([helpText], s)
  | .showVariables => (listVariables s).map (·, s)
  | .total => (showTotals s rates).map (·, s)
  | .clear => .ok (["Session cleared."], s.clear)
  | .precision text => .ok (setPrecision s text)
  | .strict on =>
    .ok ([if on then "Strict mode on." else "Strict mode off."], { s with strict := on })

end Command

end LineCalc
