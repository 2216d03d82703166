import LineCalc.Proofs.Result
import LineCalc.Workspace

/-!
# Reachable sessions

A client evaluates lines, sets and deletes variables, changes the settings, forgets what was said,
copies sessions and turns from one to another; meanwhile the rates may change to anything. This
module says what a session can come to in that way, and what the evaluation of one line can do.

Results:
1. `Workspace.Reachable.invariant`: what holds of a new session and is kept by every step holds of
   every session of a reachable workspace.
2. `Session.Step.preserves`: to be kept by every step, it has to be kept by the evaluation of a line
   and by the requests that are no evaluation.
3. `Session.outcome_of_eval`: the three things that the evaluation of a line can do.
-/

namespace LineCalc

/-! ## Steps -/

/-- The requests of a client that evaluate nothing. -/
inductive Session.Edit (s : Session) : Session → Prop
  | setVariable {name : String} {v : Value} {t : Session} :
      s.setVariable? name v = some t → Edit s t
  | deleteVariable {name : String} {t : Session} : s.deleteVariable? name = some t → Edit s t
  | setPrecision {given : Json} {t : Session} : s.setPrecision given = .ok t → Edit s t
  | setStrict (strict : Bool) : Edit s { s with strict }
  | clear : Edit s s.clear
  | clearVariables : Edit s s.clearVariables
  | clearLines : Edit s s.clearLines

/-- What a client can do to a session at some rates. Of a list of lines those before the first fault
are evaluated. -/
inductive Session.Step (rates : RateTable) (s : Session) : Session → Prop
  | eval {text : String} {v : Value} {t : Session} :
      s.eval rates text = .ok (v, t) → Step rates s t
  | evalAll (texts : List String) : Step rates s (s.evalAll rates texts).2
  | edit {t : Session} : s.Edit t → Step rates s t

/-- What a workspace with one new session can come to. -/
inductive Workspace.Reachable : Workspace → Prop
  | ofRates (rates : RateCache) : Reachable (.ofRates rates)
  | step {w : Workspace} {t : Session} :
      Reachable w → w.session.Step w.rates.table t → Reachable (w.setSession t)
  | clone {w : Workspace} : Reachable w → Reachable w.clone
  | activate {w : Workspace} {i : Nat} :
      Reachable w → i < w.sessions.length → Reachable (w.activate i)
  | setRates {w : Workspace} (rates : RateCache) : Reachable w → Reachable { w with rates }

/-! ## Invariants -/

namespace Workspace

theorem Reachable.active_lt {w : Workspace} (h : w.Reachable) : w.active < w.sessions.length := by
  induction h with
  | ofRates => exact Nat.zero_lt_one
  | step _ _ ih => simpa [setSession] using ih
  | clone _ ih => simpa [Workspace.clone] using Nat.lt_succ_of_lt ih
  | activate _ lt => exact lt
  | setRates _ _ ih => exact ih

theorem Reachable.session_mem {w : Workspace} (h : w.Reachable) : w.session ∈ w.sessions := by
  rw [session, List.getD_eq_getElem?_getD, List.getElem?_eq_getElem h.active_lt]
  exact List.getElem_mem _

theorem Reachable.session_setSession {w : Workspace} (h : w.Reachable) (t : Session) :
    (w.setSession t).session = t := by
  simp [session, setSession, h.active_lt]

/-- What holds of a new session and is kept by every step holds of every session. -/
theorem Reachable.invariant {P : Session → Prop} {w : Workspace} (h : w.Reachable) (new : P {})
    (step : ∀ {rates : RateTable} {s t : Session}, s.Step rates t → P s → P t) :
    ∀ s ∈ w.sessions, P s := by
  induction h with
  | ofRates => exact List.forall_mem_singleton.mpr new
  | @step w t reachable act ih =>
    intro s mem
    rcases List.mem_or_eq_of_mem_set mem with mem | rfl
    · exact ih s mem
    · exact step act (ih _ reachable.session_mem)
  | @clone w reachable ih =>
    intro s mem
    rcases List.mem_append.mp mem with mem | mem
    · exact ih s mem
    · rw [List.mem_singleton.mp mem]
      exact ih _ reachable.session_mem
  | activate _ _ ih => exact ih
  | setRates _ _ ih => exact ih

end Workspace

/-- The statement goes on from the previous result. -/
def Statement.isContinuation : Statement → Bool
  | .expr e => e.isContinuation
  | .empty | .comment _ | .assign .. => false

namespace Session

variable {rates : RateTable} {s t : Session} {text : String} {v : Value}

theorem evalAll_preserves {P : Session → Prop}
    (line : ∀ {s t : Session} {text : String} {v : Value}, s.eval rates text = .ok (v, t) →
      P s → P t) (texts : List String) (h : P s) : P (s.evalAll rates texts).2 := by
  induction texts generalizing s with
  | nil => exact h
  | cons text rest ih =>
    rw [evalAll]
    cases done : s.eval rates text with
    | error fault => exact h
    | ok result => exact ih (line done h)

theorem Step.preserves {P : Session → Prop}
    (line : ∀ {s t : Session} {text : String} {v : Value}, s.eval rates text = .ok (v, t) →
      P s → P t) (edit : ∀ {s t : Session}, s.Edit t → P s → P t) (act : s.Step rates t)
    (h : P s) : P t := by
  cases act with
  | eval done => exact line done h
  | evalAll texts => exact evalAll_preserves line texts h
  | edit act => exact edit act h

/-! ## The evaluation of a line -/

/-- What the evaluation of a line can do: a line without an amount is only recorded; an expression
becomes the previous result and, as a continuation, consumes the line that it goes on from; an
assignment becomes the previous result and sets its variable. -/
inductive Outcome (s : Session) (rates : RateTable) (text : String) : Value → Session → Prop
  | noted {r : LineRecord} :
      r.raw = text → r.value.isValid = false → r.consumed = false → r.assigned = none →
      Outcome s rates text r.value (s.record r)
  | result {e : Expr} {line : Line} {v : Value} :
      Line.parse text = .ok (line, []) → line.statement = .expr e →
      e.eval (s.scope rates) = .ok v → v.isValid = true →
      Outcome s rates text v
        { (if e.isContinuation then s.consume else s).record
            { raw := text, value := v, continuation := e.isContinuation } with previous := v }
  | assigned {name : String} {e : Expr} {line : Line} {v : Value} :
      Line.parse text = .ok (line, []) → line.statement = .assign name e →
      isReservedName name = false → e.eval (s.scope rates) = .ok v → v.isValid = true →
      Outcome s rates text v
        { { s with bindings := s.bindings.set name v }.record
            { raw := text, value := v, assigned := some name } with previous := v }

theorem setPrevious_of_valid (valid : v.isValid = true) (s : Session) :
    s.setPrevious v = { s with previous := v } := if_pos valid

theorem setPrevious_of_invalid (invalid : v.isValid = false) (s : Session) :
    s.setPrevious v = s := if_neg (by simp [invalid])

theorem setVariable?_of_valid {name : String} (free : isReservedName name = false)
    (valid : v.isValid = true) (s : Session) :
    s.setVariable? name v = some { s with bindings := s.bindings.set name v } := by
  have amount : v.isError = false := by
    cases v with
    | amount => rfl
    | empty | error => cases valid
  simp [setVariable?, free, amount]

theorem outcome_of_evalStatement {line : Line} (parsed : Line.parse text = .ok (line, []))
    (h : s.evalStatement rates text line.statement = .ok (v, t)) : s.Outcome rates text v t := by
  obtain ⟨⟨r, mid⟩, run, made⟩ := map_ok_iff.mp h
  obtain ⟨rfl, rfl⟩ := Prod.mk.inj made
  cases statement : line.statement with
  | empty | comment =>
    rw [statement] at run
    cases run
    rw [setPrevious_of_invalid rfl]
    exact .noted rfl rfl rfl rfl
  | assign name e =>
    rw [statement, runStatement] at run
    split at run
    · cases run
      rw [setPrevious_of_invalid rfl]
      exact .noted rfl rfl rfl rfl
    · next free =>
      have free : isReservedName name = false := by simpa using free
      obtain ⟨v, value, run⟩ := bind_ok_iff.mp run
      split at run
      · next valid =>
        cases run
        rw [setPrevious_of_valid valid, setVariable?_of_valid free valid]
        exact .assigned parsed statement free value valid
      · next invalid =>
        have invalid : v.isValid = false := by simpa using invalid
        cases run
        rw [setPrevious_of_invalid invalid]
        exact .noted rfl invalid rfl rfl
  | expr e =>
    rw [statement, runStatement] at run
    obtain ⟨v, value, run⟩ := bind_ok_iff.mp run
    cases run
    cases valid : v.isValid with
    | true =>
      simp only [Bool.and_true]
      rw [setPrevious_of_valid valid]
      exact .result parsed statement value valid
    | false =>
      simp only [Bool.and_false, Bool.false_eq_true, if_false]
      rw [setPrevious_of_invalid valid]
      exact .noted (r := { raw := text, value := v, continuation := _ }) rfl valid rfl rfl

theorem outcome_of_eval (h : s.eval rates text = .ok (v, t)) : s.Outcome rates text v t := by
  obtain ⟨⟨line, problems⟩, parsed, h⟩ := bind_ok_iff.mp h
  cases problems with
  | nil => exact outcome_of_evalStatement parsed h
  | cons d rest =>
    -- Of a malformed line only the first problem is recorded.
    cases h
    exact .noted (r := { raw := text, value := .error d.problem }) rfl rfl rfl rfl

end Session

end LineCalc
