import LineCalc.Rates.Saved
import LineCalc.Session.Eval

/-!
# Workspaces

Sessions that share one cache of rates. One session is active; a copy of it becomes a session of
its own. What is done to one session never shows in another, but a change of the rates shows in all.
-/

namespace LineCalc

/-- Sessions that share rates. -/
structure Workspace where
  sessions : List Session
  active : Nat := 0
  rates : RateCache

namespace Workspace

/-- A workspace with one new session. -/
def ofRates (rates : RateCache) : Workspace := { sessions := [{}], rates }

/-- The active session. -/
def session (w : Workspace) : Session := w.sessions.getD w.active {}

/-- Replaces the active session. -/
def setSession (w : Workspace) (s : Session) : Workspace :=
  { w with sessions := w.sessions.set w.active s }

/-- Evaluates a line in the active session. -/
def eval (w : Workspace) (text : String) : Except Fault (Value × Workspace) :=
  (w.session.eval w.rates.table text).map fun (v, s) => (v, w.setSession s)

/-- Evaluates lines in the active session, up to the first fault. -/
def evalAll (w : Workspace) (texts : List String) : Except Fault (List Value) × Workspace :=
  let (vs, s) := w.session.evalAll w.rates.table texts
  (vs, w.setSession s)

/-- Copies the active session. The copy comes last; it is not made active. -/
def clone (w : Workspace) : Workspace := { w with sessions := w.sessions ++ [w.session] }

/-- Makes a session active. -/
def activate (w : Workspace) (i : Nat) : Workspace := { w with active := i }

/-- The quotes of a workspace saved and loaded into new rates, if they are taken back. -/
def reloadedRates (w : Workspace) (now : Float) : Except Fault (Option RateCache) := do
  (RateCache.empty defaultLifetime).load (← w.rates.savedText) now

end Workspace

end LineCalc
