import LineCalc.Proofs.Entries
import LineCalc.Proofs.Session.Consumption

/-!
# What a line changes

The evaluation of a line is one step: it adds one record, and beside that it changes nothing unless
the line has an amount. An amount becomes the previous result; an assignment sets its variable and
no other; a continuation marks the line that it goes on from, which was not marked before.

Results:
1. `Session.Outcome.onlyNotes`, `Session.Outcome.takesIn`: this for one session.
2. `eval_effect`: this for a reachable workspace, whose rates and other sessions stay as they are.
-/

namespace LineCalc

/-- The name that a statement assigns to. -/
def Statement.assigned? : Statement → Option String
  | .assign name _ => some name
  | .empty | .comment _ | .expr _ => none

/-! ## Changes of a session -/

/-- The latest line with an amount, not consumed before, becomes consumed, if there is one. -/
inductive TakesUp (old : List LineRecord) : List LineRecord → Prop
  | nothing : (∀ r ∈ old, r.value.isValid = false) → TakesUp old old
  | latest {before after : List LineRecord} {r : LineRecord} :
      old = before ++ r :: after → r.value.isValid = true → r.consumed = false →
      (∀ a ∈ after, a.value.isValid = false) →
      TakesUp old (before ++ { r with consumed := true } :: after)

/-- The settings of two sessions are the same. -/
structure Session.SameSettings (s t : Session) : Prop where
  precision : t.precision = s.precision
  strict : t.strict = s.strict

/-- A line is recorded and changes nothing else. -/
structure Session.OnlyNotes (s t : Session) (r : LineRecord) : Prop where
  history : t.history = s.history ++ [r]
  previous : t.previous = s.previous
  bindings : t.bindings = s.bindings
  assigned : r.assigned = none

/-- A line with the statement `st` and an amount is recorded and taken in. -/
structure Session.TakesIn (s t : Session) (r : LineRecord) (st : Statement) : Prop where
  history : ∃ earlier, t.history = earlier ++ [r] ∧
    if st.isContinuation then TakesUp s.history earlier else earlier = s.history
  previous : t.previous = r.value
  assigned : r.assigned = st.assigned?
  /-- Reserved names are not assigned to. -/
  free : ∀ name, st.assigned? = some name → isReservedName name = false
  bindings : t.bindings = match st.assigned? with
    | some name => s.bindings.set name r.value
    | none => s.bindings
  bound : ∀ name, st.assigned? = some name → t.bindings.lookup name = some r.value
  unbound : ∀ name, st.assigned? ≠ some name → t.bindings.lookup name = s.bindings.lookup name

namespace Session

variable {rates : RateTable} {s t : Session} {text : String} {v : Value}

theorem takesUp_consume (h : RightlyMarked s.history) : TakesUp s.history s.consume.history := by
  show TakesUp s.history ((consumeLatest? s.history).getD s.history)
  cases latest : consumeLatest? s.history with
  | none => exact .nothing (consumeLatest?_eq_none_iff.mp latest)
  | some history =>
    obtain ⟨before, r, after, split, valid, invalid, rfl⟩ := eq_of_consumeLatest? latest
    -- No amount comes later, so none has taken this one up before.
    have mark := rightlyMarked_iff.mp h before r after split
    rw [takenUp_of_invalid invalid, Bool.and_false] at mark
    exact .latest split valid mark invalid

theorem Outcome.sameSettings (done : s.Outcome rates text v t) : s.SameSettings t := by
  cases done with
  | noted | assigned => exact ⟨rfl, rfl⟩
  | @result e => cases continuation : e.isContinuation <;> exact ⟨rfl, rfl⟩

theorem Outcome.onlyNotes (done : s.Outcome rates text v t) (invalid : v.isValid = false) :
    ∃ r, r.raw = text ∧ r.value = v ∧ r.consumed = false ∧ s.OnlyNotes t r := by
  cases done with
  | @noted r raw _ fresh assigned => exact ⟨r, raw, rfl, fresh, rfl, rfl, rfl, assigned⟩
  | result _ _ _ valid | assigned _ _ _ _ valid => simp [valid] at invalid

theorem Outcome.takesIn (done : s.Outcome rates text v t) (consistent : s.Consistent)
    (valid : v.isValid = true) :
    ∃ r line, r.raw = text ∧ r.value = v ∧ r.consumed = false ∧
      Line.parse text = .ok (line, []) ∧ s.TakesIn t r line.statement := by
  cases done with
  | noted _ invalid => simp [valid] at invalid
  | @assigned name e line v parsed statement free =>
    refine ⟨{ raw := text, value := v, assigned := some name }, line, rfl, rfl, rfl, parsed, ?_⟩
    rw [statement]
    exact {
      history := ⟨s.history, rfl, rfl⟩
      previous := rfl
      assigned := rfl
      free := fun _ same => Option.some.inj same ▸ free
      bindings := rfl
      bound := fun _ same => Option.some.inj same ▸ Entries.lookup_set_self s.bindings name v
      unbound := fun _ other =>
        Entries.lookup_set_of_ne s.bindings (fun eq => other (congrArg some eq.symm)) v }
  | @result e line v parsed statement =>
    refine ⟨{ raw := text, value := v, continuation := e.isContinuation }, line, rfl, rfl, rfl,
      parsed, ?_⟩
    rw [statement]
    have bindings : (if e.isContinuation then s.consume else s).bindings = s.bindings := by
      split <;> rfl
    refine {
      history := ⟨(if e.isContinuation then s.consume else s).history, rfl, ?_⟩
      previous := rfl
      assigned := rfl
      free := nofun
      bindings := bindings
      bound := nofun
      unbound := fun name _ => congrArg (List.lookup name) bindings }
    cases continuation : e.isContinuation with
    | false => simp [Statement.isContinuation, continuation]
    | true =>
      simpa [Statement.isContinuation, continuation] using takesUp_consume consistent.marks

end Session

/-! ## Changes of a workspace -/

/-- The evaluation of a line adds exactly one record to the active session, of its text and its
value. A line without an amount changes nothing else. An amount becomes the previous result, is
bound to the name that the line assigns to, and is the only change of the variables; of the earlier
records only that of the latest amount can change, and it becomes consumed exactly if the line is a
continuation. Settings, rates and all other sessions stay as they are. -/
theorem eval_effect {w w' : Workspace} {text : String} {v : Value} (reachable : w.Reachable)
    (h : w.eval text = .ok (v, w')) :
    (w'.rates = w.rates ∧ w'.active = w.active ∧ w'.sessions.length = w.sessions.length ∧
      ∀ i, i ≠ w.active → w'.sessions[i]? = w.sessions[i]?) ∧
    w.session.SameSettings w'.session ∧
    ∃ r, r.raw = text ∧ r.value = v ∧ r.consumed = false ∧
      (v.isValid = false → w.session.OnlyNotes w'.session r) ∧
      (v.isValid = true → ∃ line, Line.parse text = .ok (line, []) ∧
        w.session.TakesIn w'.session r line.statement) := by
  obtain ⟨⟨v, t⟩, done, made⟩ := map_ok_iff.mp h
  obtain ⟨rfl, rfl⟩ := Prod.mk.inj made
  have outcome := Session.outcome_of_eval done
  have consistent := reachable.consistent w.session reachable.session_mem
  rw [reachable.session_setSession t]
  refine ⟨⟨rfl, rfl, List.length_set, fun i other => ?_⟩, outcome.sameSettings, ?_⟩
  · exact List.getElem?_set_ne (Ne.symm other)
  · cases valid : v.isValid with
    | false =>
      obtain ⟨r, raw, value, fresh, notes⟩ := outcome.onlyNotes valid
      exact ⟨r, raw, value, fresh, fun _ => notes, nofun⟩
    | true =>
      obtain ⟨r, line, raw, value, fresh, parsed, takes⟩ := outcome.takesIn consistent valid
      exact ⟨r, raw, value, fresh, nofun, fun _ => ⟨line, parsed, takes⟩⟩

/-- A continuation after a comment takes up the number before it. -/
theorem eval_effect_resumed :
    let w : Workspace := { sessions := [exNoted], rates := .empty 60 }
    let w' : Workspace := { sessions := [exResumed], rates := .empty 60 }
    (w.Reachable ∧ w.eval "+ 3" = .ok (.number 5, w')) ∧
    w.session.SameSettings w'.session ∧
    ∃ r, r.raw = "+ 3" ∧ r.value = .number 5 ∧ r.consumed = false ∧
      ∃ line, Line.parse "+ 3" = .ok (line, []) ∧
        w.session.TakesIn w'.session r line.statement := by
  intro w w'
  have done : w.eval "+ 3" = .ok (.number 5, w') :=
    map_ok_iff.mpr ⟨(.number 5, exResumed), eval_exContinuation, rfl⟩
  obtain ⟨-, settings, r, raw, value, fresh, -, takes⟩ := eval_effect exNoted_reachable done
  exact ⟨⟨exNoted_reachable, done⟩, settings, r, raw, value, fresh, takes rfl⟩

end LineCalc
