import LineCalc.Proofs.Evaluation.Strict
import LineCalc.Proofs.Session.Clean
import LineCalc.Proofs.Session.Effect

/-!
# Sessions that agree

What a session has come to is in its variables, its previous result and its lines with an amount.
Sessions that agree on these may differ in other lines and in their settings. Of the settings only
strict mode counts for what a line comes to, and only for a line that uses a name without a value.

Results:
1. `Session.Agrees.ofEval`: a line that comes to the same in sessions that agree leaves them so.
2. `Session.Agrees.preview`: what a line comes to without a problem, it also comes to in a session
   that agrees and is no stricter.
3. `Session.Agrees.eval`: so does a line in any session that agrees, if it would come to no problem
   in strict mode or that session is not strict.
-/

namespace LineCalc

/-! ## Values of lines -/

/-- The value of a statement. -/
def Statement.valueIn (scope : Scope) : Statement → Except Fault Value
  | .empty | .comment _ => .ok .empty
  | .assign name e =>
    if isReservedName name then .ok (.error (.reservedName name)) else e.eval scope
  | .expr e => e.eval scope

/-- The value of a line as it was parsed: that of its statement, or its first problem. -/
def Line.valueIn (scope : Scope) : Line × List Diagnostic → Except Fault Value
  | (_, d :: _) => .ok (.error d.problem)
  | (line, []) => line.statement.valueIn scope

theorem Statement.valueIn_lax {scope : Scope} {st : Statement} {v : Value}
    (value : st.valueIn scope = .ok v) (clean : v.isError = false) :
    st.valueIn scope.lax = .ok v := by
  cases st with
  | empty | comment => exact value
  | expr e => exact (Expr.Yields.lax ⟨value, clean⟩).1
  | assign name e =>
    rw [valueIn] at value ⊢
    split at value
    · cases value
      cases clean
    · next free =>
      rw [if_neg free]
      exact (Expr.Yields.lax ⟨value, clean⟩).1

theorem Line.valueIn_lax {scope : Scope} {parsed : Line × List Diagnostic} {v : Value}
    (value : Line.valueIn scope parsed = .ok v) (clean : v.isError = false) :
    Line.valueIn scope.lax parsed = .ok v := by
  obtain ⟨line, _ | ⟨d, problems⟩⟩ := parsed
  · exact Statement.valueIn_lax value clean
  · exact value

namespace Session

variable {rates : RateTable} {s t u s' t' : Session} {text : String} {v : Value}

theorem value_runStatement (s : Session) (rates : RateTable) (raw : String) (st : Statement) :
    (s.runStatement rates raw st).map (·.1.value) = st.valueIn (s.scope rates) := by
  cases st with
  | empty | comment => rfl
  | expr e =>
    rw [runStatement, Statement.valueIn]
    cases e.eval (s.scope rates) <;> rfl
  | assign name e =>
    rw [runStatement, Statement.valueIn]
    split
    · rfl
    · cases e.eval (s.scope rates) with
      | error f => rfl
      | ok v =>
        simp only [bind, Except.bind]
        split <;> rfl

/-- What a line would come to is told by the scope alone. -/
theorem preview_eq (s : Session) (rates : RateTable) (text : String) :
    s.preview rates text = Line.parse text >>= Line.valueIn (s.scope rates) := by
  rw [preview, eval]
  cases Line.parse text with
  | error f => rfl
  | ok parsed =>
    obtain ⟨line, _ | ⟨d, problems⟩⟩ := parsed
    · show (s.evalStatement rates text line.statement).map (·.1) =
        line.statement.valueIn (s.scope rates)
      rw [evalStatement, ← value_runStatement s rates text]
      cases s.runStatement rates text line.statement <;> rfl
    · rfl

theorem preview_of_eval (done : s.eval rates text = .ok (v, t)) : s.preview rates text = .ok v :=
  map_ok_iff.mpr ⟨(v, t), done, rfl⟩

theorem scope_lax (s : Session) (rates : RateTable) :
    ({ s with strict := false } : Session).scope rates = (s.scope rates).lax := rfl

theorem preview_lax (value : s.preview rates text = .ok v) (clean : v.isError = false) :
    ({ s with strict := false } : Session).preview rates text = .ok v := by
  rw [preview_eq] at value ⊢
  rw [scope_lax]
  obtain ⟨parsed, eq, value⟩ := bind_ok_iff.mp value
  exact bind_ok_iff.mpr ⟨parsed, eq, Line.valueIn_lax value clean⟩

/-- The line would come to no problem in strict mode. -/
def passesStrictly (s : Session) (rates : RateTable) (text : String) : Bool :=
  match ({ s with strict := true } : Session).preview rates text with
  | .ok v => !v.isError
  | .error _ => false

theorem preview_of_passesStrictly (passes : s.passesStrictly rates text = true) :
    ∃ v, ({ s with strict := true } : Session).preview rates text = .ok v ∧ v.isError = false := by
  unfold passesStrictly at passes
  split at passes
  · next v value => exact ⟨v, value, by simpa using passes⟩
  · cases passes

/-! ## Agreement -/

/-- The lines with an amount. -/
def amountLines (rs : List LineRecord) : List LineRecord := rs.filter (·.value.isValid)

/-- The sessions have come to the same. -/
structure Agrees (s t : Session) : Prop where
  bindings : s.bindings = t.bindings
  previous : s.previous = t.previous
  amounts : amountLines s.history = amountLines t.history

theorem Agrees.symm (agrees : s.Agrees t) : t.Agrees s :=
  ⟨agrees.bindings.symm, agrees.previous.symm, agrees.amounts.symm⟩

theorem Agrees.trans (agrees : s.Agrees t) (agrees' : t.Agrees u) : s.Agrees u :=
  ⟨agrees.bindings.trans agrees'.bindings, agrees.previous.trans agrees'.previous,
    agrees.amounts.trans agrees'.amounts⟩

/-- Settings are no part of what a session has come to. -/
theorem agrees_withStrict (s : Session) (strict : Bool) : s.Agrees { s with strict } :=
  ⟨rfl, rfl, rfl⟩

theorem Agrees.total (agrees : s.Agrees t) : s.total = t.total := by
  have counted (s : Session) :
      s.history.filter (·.counts) = (amountLines s.history).filter (·.counts) :=
    (filter_counts_filter (fun _ valid => valid) s.history).symm
  rw [Session.total, Session.total, counted s, counted t, agrees.amounts]

theorem Agrees.scope (agrees : s.Agrees t) (strict : s.strict = t.strict) :
    s.scope rates = t.scope rates := by
  have find : s.find? = t.find? := by
    funext name
    simp only [find?, agrees.bindings, agrees.previous, agrees.total]
  rw [Session.scope, Session.scope, find, agrees.previous, strict]

/-- What a line comes to without a problem, it also comes to in a session that agrees and is no
stricter. -/
theorem Agrees.preview (agrees : s.Agrees t) (laxer : t.strict = true → s.strict = true)
    (value : s.preview rates text = .ok v) (clean : v.isError = false) :
    t.preview rates text = .ok v := by
  cases strict : t.strict with
  | true =>
    rw [preview_eq] at value ⊢
    rw [← agrees.scope ((laxer strict).trans strict.symm)]
    exact value
  | false =>
    have lax : ({ s with strict := false } : Session).Agrees t :=
      (agrees_withStrict s false).symm.trans agrees
    have value := preview_lax value clean
    rw [preview_eq] at value ⊢
    rw [← lax.scope strict.symm]
    exact value

/-! ## Changes in step -/

theorem Agrees.record (agrees : s.Agrees t) (r : LineRecord) :
    (s.record r).Agrees (t.record r) := by
  refine ⟨agrees.bindings, agrees.previous, ?_⟩
  show amountLines (s.history ++ [r]) = amountLines (t.history ++ [r])
  rw [amountLines, amountLines, List.filter_append, List.filter_append]
  exact congrArg (· ++ _) agrees.amounts

theorem amountLines_consume (s : Session) : amountLines s.consume.history =
    (consumeLatest? (amountLines s.history)).getD (amountLines s.history) := by
  have same : consumeLatest? (amountLines s.history) =
      (consumeLatest? s.history).map amountLines :=
    consumeLatest?_filter (fun _ valid => valid) s.history
  rw [same, consume]
  cases consumeLatest? s.history <;> rfl

theorem Agrees.consume (agrees : s.Agrees t) : s.consume.Agrees t.consume := by
  refine ⟨agrees.bindings, agrees.previous, ?_⟩
  rw [amountLines_consume, amountLines_consume, agrees.amounts]

theorem agrees_of_invalid (done : s.eval rates text = .ok (v, t)) (invalid : v.isValid = false) :
    s.Agrees t := by
  obtain ⟨r, -, rfl, -, notes⟩ := (outcome_of_eval done).onlyNotes invalid
  refine ⟨notes.bindings.symm, notes.previous.symm, ?_⟩
  rw [notes.history, amountLines, amountLines, List.filter_append,
    List.filter_cons_of_neg (by simp [invalid]), List.filter_nil, List.append_nil]

/-- A line that comes to the same in sessions that agree leaves them so. -/
theorem Agrees.ofEval (agrees : s.Agrees t) (done : s.eval rates text = .ok (v, s'))
    (done' : t.eval rates text = .ok (v, t')) : s'.Agrees t' := by
  cases valid : v.isValid with
  | false =>
    exact (agrees_of_invalid done valid).symm.trans
      (agrees.trans (agrees_of_invalid done' valid))
  | true =>
    -- The line is the same, so both take it in in the same way.
    cases outcome_of_eval done with
    | noted _ invalid => rw [invalid] at valid; cases valid
    | @result e line _ parsed statement =>
      cases outcome_of_eval done' with
      | noted _ invalid => rw [invalid] at valid; cases valid
      | result parsed' statement' =>
        cases parsed.symm.trans parsed'
        cases statement.symm.trans statement'
        have settled : (if e.isContinuation then s.consume else s).Agrees
            (if e.isContinuation then t.consume else t) := by
          split
          · exact agrees.consume
          · exact agrees
        exact ⟨settled.bindings, rfl, (settled.record _).amounts⟩
      | assigned parsed' statement' =>
        cases parsed.symm.trans parsed'
        cases statement.symm.trans statement'
    | @assigned name _ _ _ parsed statement =>
      cases outcome_of_eval done' with
      | noted _ invalid => rw [invalid] at valid; cases valid
      | result parsed' statement' =>
        cases parsed.symm.trans parsed'
        cases statement.symm.trans statement'
      | assigned parsed' statement' =>
        cases parsed.symm.trans parsed'
        cases statement.symm.trans statement'
        exact ⟨congrArg (Entries.set name v) agrees.bindings, rfl, (agrees.record _).amounts⟩

/-- A line that comes to no problem comes to the same in any session that agrees, unless that
session is strict and the line would come to a problem in strict mode. -/
theorem Agrees.eval (agrees : s.Agrees t) (done : s.eval rates text = .ok (v, s'))
    (clean : v.isError = false)
    (passes : t.strict = true → s.passesStrictly rates text = true) :
    ∃ t', t.eval rates text = .ok (v, t') ∧ s'.Agrees t' := by
  have value : t.preview rates text = .ok v := by
    cases strict : t.strict with
    | false => exact agrees.preview (by simp [strict]) (preview_of_eval done) clean
    | true =>
      obtain ⟨w, value, cleanStrictly⟩ := preview_of_passesStrictly (passes strict)
      -- The strict value is the value that the line has anyway.
      have same : s.preview rates text = .ok w :=
        (agrees_withStrict s true).symm.preview (fun _ => rfl) value cleanStrictly
      cases same.symm.trans (preview_of_eval done)
      exact ((agrees_withStrict s true).symm.trans agrees).preview (fun _ => rfl) value clean
  obtain ⟨⟨_, t'⟩, done', rfl⟩ := map_ok_iff.mp value
  exact ⟨t', done', agrees.ofEval done done'⟩

end Session

end LineCalc
