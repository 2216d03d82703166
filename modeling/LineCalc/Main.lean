import LineCalc.Console.Run
import LineCalc.Rates.Location
import LineCalc.SessionStore.Saved
import Std.Time.DateTime.Timestamp

/-!
# The program

Reads what a run needs, prints what it prints, and writes what it leaves. No provider is asked for
rates: every request counts as failed.
-/

namespace LineCalc.Program

/-- The file of stored sessions. -/
def sessionsFile : String := "sessions.json"

/-- The text of a file, or why it cannot be read. -/
def readText (path : String) : IO (Except FileProblem String) := do
  try
    return .ok (← IO.FS.readFile path)
  catch
    | .inappropriateType _ code _ => return .error (if code == 20 then .noFolder else .isFolder)
    | _ => return .error .missing

/-- Writes a file; a failure does not matter. -/
def writeText (path text : String) : IO Unit := do
  try
    IO.FS.writeFile path text
  catch _ => return

/-- The folder of saved rates. -/
def ratesFolder : IO Path := do
  let own ← IO.getEnv "NUMCALC_CACHE_DIR"
  let shared ← IO.getEnv "XDG_CACHE_HOME"
  let home ← IO.getEnv "HOME"
  return PlaceSettings.folder { own, shared, home, accountHome := "/" }

/-- The seconds since 1970. -/
def clock : IO Float := do
  let now ← Std.Time.Timestamp.now
  return Float.ofInt now.toNanosecondsSinceUnixEpoch.val / 1000000000

/-- Where the run has its rates from. -/
def ratesSource : IO RatesSource := do
  let folder ← ratesFolder
  let saved ← readText (savedRatesIn folder).toText
  return {
    saved := saved.toOption
    initial := .withFallback defaultLifetime
    replies := Provider.all.map (·, .failed)
    now := ← clock }

/-- The sessions that are stored. -/
def storedSessions : IO SessionStore := do
  let sessions ← readText sessionsFile
  return (sessions.toOption.map SessionStore.ofText).getD {}

/-- Saves rates, making the folder for them. -/
def saveRates (text : String) : IO Unit := do
  let folder ← ratesFolder
  try
    IO.FS.createDirAll folder.toText
  catch _ => return
  writeText (savedRatesIn folder).toText text

/-- Prints lines. -/
def print (lines : List String) : IO Unit := lines.forM IO.println

/-- Tells a fault. The exit code says that the run failed. -/
def fail (f : Fault) : IO UInt32 := do
  IO.eprintln f.message
  return 1

/-- Reads lines at the prompt until one leaves it or the input ends. -/
partial def converse (p : Prompt) : IO UInt32 := do
  IO.print "calc> "
  (← IO.getStdout).flush
  let line ← (← IO.getStdin).getLine
  if line.isEmpty then
    print Prompt.farewell
    return 0
  match p.take (line.dropEndWhile (· == '\n')).toString with
  | .error f => fail f
  | .ok (out, none) =>
    print (out ++ Prompt.farewell)
    return 0
  | .ok (out, some p) =>
    print out
    if p.kept.isSome then writeText sessionsFile p.store.savedText
    converse p

/-- A run with its options known. -/
def run (o : Options) : IO UInt32 := do
  let source ← ratesSource
  match source.ready o.offline with
  | .error f => fail f
  | .ok ready =>
    if let some text := ready.toSave then saveRates text
    let text ← readText o.file
    match o.begin ready.cache.table (fun _ => text) (← storedSessions) with
    | .error f => fail f
    | .ok (.over out code) =>
      print out
      return (code.getD 0).toUInt32
    | .ok (.prompt out p) =>
      print out
      converse p

end LineCalc.Program

/-- Runs the program. -/
def main (args : List String) : IO UInt32 :=
  match LineCalc.Options.ofArguments args with
  | .error .help => do
    LineCalc.Program.print LineCalc.helpLines
    return 0
  | .error .misuse => do
    IO.eprintln "usage: numcalc [-h] [-f FILE] [-s SESSION] [-p PRECISION] [--strict] [--offline] [expression ...]"
    return 2
  | .ok o => LineCalc.Program.run o
