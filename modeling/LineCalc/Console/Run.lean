import LineCalc.Console.Options
import LineCalc.Console.Prompt
import LineCalc.Files.Folder
import LineCalc.Rates.Provider
import LineCalc.Rates.Saved

/-!
# A run of the program

The program evaluates an expression, or the lines of a file, or else what is typed at a prompt. It
first sees to the rates: saved ones are taken back while they are fresh; otherwise new ones are
asked for, unless it is to stay offline, and saved.
-/

namespace LineCalc

/-- Where a run has its rates from. -/
structure RatesSource where
  /-- The text of the saved rates, if there are any. -/
  saved : Option String
  /-- The rates to start from. -/
  initial : RateCache
  /-- What the providers would answer. -/
  replies : List (Provider × Reply)
  now : Float

/-- The rates of a run. -/
structure ReadyRates where
  cache : RateCache
  /-- How many requests were made. -/
  requests : Nat := 0
  /-- A text to be saved. -/
  toSave : Option String := none

namespace RatesSource

/-- Takes back the saved rates if there are any. -/
def load (r : RatesSource) : Except Fault (Option RateCache) :=
  match r.saved with
  | none => .ok none
  | some text => r.initial.load text r.now

/-- Sees to the rates. -/
def ready (r : RatesSource) (offline : Bool) : Except Fault ReadyRates := do
  match ← r.load with
  | some cache => return { cache }
  | none =>
    if offline then return { cache := r.initial }
    else
      let requests := r.replies.length
      match ← r.initial.refresh r.replies r.now with
      | none => return { cache := r.initial, requests }
      | some cache => return { cache, requests, toSave := some (← cache.savedText) }

end RatesSource

/-- How a run begins: it may be over at once, or lead to the prompt. -/
inductive Beginning
  | over (printed : List String) (exitCode : Option Nat)
  | prompt (printed : List String) (p : Prompt)

namespace Options

/-- A text with blanks behind it, up to a width. -/
def padRight (width : Nat) (text : String) : String :=
  text ++ String.ofList (List.replicate (width - text.length) ' ')

/-- The width of lines before their values. -/
def lineWidth : Nat := 40

/-- A line of a file with its value, if that shows. -/
def showLine (line shown : String) : String :=
  if shown.isEmpty then line else padRight lineWidth line ++ " " ++ shown

/-- Evaluates lines, each shown with its value. -/
def showLines (s : Session) (rates : RateTable) : List String → Except Fault (List String × Session)
  | [] => .ok ([], s)
  | line :: rest => do
    let (v, s) ← s.eval rates line
    let shown ← s.format v
    let (others, s) ← showLines s rates rest
    return (showLine line shown :: others, s)

/-- Evaluates the lines of a file, with the total at the end. -/
def runFile (s : Session) (rates : RateTable) (text : String) : Except Fault (List String) := do
  let (out, s) ← showLines s rates (fileLines text)
  let total ← s.format s.total
  return out ++ [padRight lineWidth "Total" ++ " " ++ total]

/-- What is printed when the prompt opens. -/
def greeting : String := "numcalc - type 'help' for examples, 'exit' to quit."

/-- Opens the prompt, in a stored session if one is named. -/
def openPrompt (o : Options) (s : Session) (rates : RateTable) (store : SessionStore) :
    Except Fault Beginning := do
  if o.session.isEmpty then
    return .prompt [greeting] { session := s, rates, store }
  match ← store.load o.session with
  | none =>
    return .prompt [s!"Session {o.session} not found. Starting empty.", greeting]
      { session := s, rates, store, kept := some (o.session, []) }
  | some stored =>
    let lines ← stored.lines.replayed
    let (values, s) := s.evalAll rates lines
    let _ ← values
    return .prompt [s!"Loaded session {o.session} ({lines.length} lines).", greeting]
      { session := s, rates, store, kept := some (o.session, lines) }

/-- Evaluates the lines of the file that is named. -/
def openFile (o : Options) (s : Session) (rates : RateTable)
    (fileText : String → Except FileProblem String) : Except Fault Beginning :=
  if o.file.contains '\x00' then .error .nullInPath
  else match fileText o.file with
    | .error p => .ok (.over ["Error: " ++ p.message o.file] (some 1))
    | .ok text => (runFile s rates text).map fun out => .over out none

/-- A new session with the settings of the options, if there is a precision and it can be set. -/
def newSession? (o : Options) : Option Session :=
  o.precision.bind fun n =>
    (({ strict := o.strict } : Session).setPrecision (.integer n)).toOption

/-- Begins a run in which the rates are ready. -/
def begin (o : Options) (rates : RateTable) (fileText : String → Except FileProblem String)
    (store : SessionStore) : Except Fault Beginning :=
  match o.newSession? with
  | none => .ok (.over [] (some 2))
  | some s =>
    if !o.expression.isEmpty then do
      let (v, s) ← s.eval rates (" ".intercalate o.expression)
      return .over [← s.format v] none
    else if !o.file.isEmpty then o.openFile s rates fileText
    else o.openPrompt s rates store

end Options

/-- What a run finds around it. -/
structure Surroundings where
  folder : Folder
  /-- The place of the saved rates in the folder. -/
  ratesPlace : Path
  store : SessionStore
  /-- The rates to start from. -/
  rates : RateCache
  /-- What the providers would answer. -/
  replies : List (Provider × Reply)
  now : Float

/-- What a run did. -/
structure RunReport where
  printed : List String
  exitCode : Option Nat := none
  requests : Nat := 0
  folder : Folder
  store : SessionStore

/-- The exit code of a run that was refused. -/
def Refusal.exitCode : Refusal → Nat
  | .help => 0
  | .misuse => 2

namespace Surroundings

/-- Where the rates come from. -/
def ratesSource (env : Surroundings) : RatesSource where
  saved := (env.folder.read env.ratesPlace.toText).toOption
  initial := env.rates
  replies := env.replies
  now := env.now

/-- The folder with the rates saved, unless something is in the way of their file. -/
def folderAfter (env : Surroundings) (ready : ReadyRates) : Folder :=
  (ready.toSave.bind (env.folder.write? env.ratesPlace ·)).getD env.folder

/-- A whole run, all that is typed being known. -/
def run (env : Surroundings) (args : List String) (typed : List Typed) :
    Except Fault RunReport :=
  match Options.ofArguments args with
  | .error r =>
    .ok { printed := [], exitCode := some r.exitCode, folder := env.folder, store := env.store }
  | .ok o => do
    let ready ← env.ratesSource.ready o.offline
    let folder := env.folderAfter ready
    let report (printed : List String) (exitCode : Option Nat) (store : SessionStore) : RunReport :=
      { printed, exitCode, requests := ready.requests, folder, store }
    match ← o.begin ready.cache.table folder.read env.store with
    | .over printed exitCode => return report printed exitCode env.store
    | .prompt printed p =>
      let (out, p) ← p.takeAll typed
      return report (printed ++ out) none p.store

end Surroundings

end LineCalc
