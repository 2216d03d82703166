import LineCalc.Proofs.Evaluation.Names
import LineCalc.Proofs.Service.Replay
import LineCalc.Proofs.Session.Agreement
import LineCalc.Proofs.Session.Finite

/-!
# Lines under other settings

What a line does in a session does not depend on the precision, and on strict mode only if the line
uses a name that has no value there. So lines that use no such names make of a session what they make
of it under any other settings.

Results:
1. `Session.evalAll_withSettings`: lines whose names all have values, under any settings.
2. `Session.evalAll_lax`: lines that come to no problem, evaluated without strict mode.
3. `Session.knowsAll_of_clean`: the names in lines that come to no problem in strict mode.
-/

namespace LineCalc.Session

variable {rates : RateTable} {s t : Session} {text : String} {lines : List String} {v : Value}
variable {values : List Value}

/-- The session with other settings. -/
def withSettings (s : Session) (precision : Precision) (strict : Bool) : Session :=
  { s with precision, strict }

theorem scope_withSettings (s : Session) (rates : RateTable) (precision : Precision)
    (strict : Bool) :
    (s.withSettings precision strict).scope rates = (s.scope rates).withStrict strict := rfl

/-! ## Single lines -/

section

variable {precision : Precision} {strict : Bool}

/-- A statement whose expression has the same value in either mode does the same under other
settings. -/
theorem runStatement_withSettings {st : Statement} (same : ∀ e, st.expr? = some e →
      e.eval ((s.scope rates).withStrict strict) = e.eval (s.scope rates)) (raw : String) :
    (s.withSettings precision strict).runStatement rates raw st =
      (s.runStatement rates raw st).map fun (r, t) => (r, t.withSettings precision strict) := by
  cases st with
  | empty | comment => rfl
  | assign name e =>
    rw [runStatement, runStatement, scope_withSettings, same e rfl]
    split
    · rfl
    · cases e.eval (s.scope rates) with
      | error f => rfl
      | ok v =>
        simp only [bind, Except.bind]
        split
        · have set : ((s.withSettings precision strict).setVariable? name v).getD
              (s.withSettings precision strict) =
              ((s.setVariable? name v).getD s).withSettings precision strict := by
            unfold setVariable?
            split <;> rfl
          rw [set]
          rfl
        · rfl
  | expr e =>
    rw [runStatement, runStatement, scope_withSettings, same e rfl]
    cases e.eval (s.scope rates) with
    | error f => rfl
    | ok v =>
      have settled : (if e.isContinuation && v.isValid then
            (s.withSettings precision strict).consume else s.withSettings precision strict) =
          (if e.isContinuation && v.isValid then s.consume else s).withSettings precision strict := by
        split <;> rfl
      simp only [bind, Except.bind, settled]
      rfl

theorem eval_withSettings (same : ∀ line e, Line.parse text = .ok (line, []) →
      line.statement.expr? = some e →
      e.eval ((s.scope rates).withStrict strict) = e.eval (s.scope rates)) :
    (s.withSettings precision strict).eval rates text =
      (s.eval rates text).map fun (v, t) => (v, t.withSettings precision strict) := by
  rw [eval, eval]
  cases parsed : Line.parse text with
  | error f => rfl
  | ok result =>
    obtain ⟨line, _ | ⟨d, problems⟩⟩ := result
    · show (Except.map _ ((s.withSettings precision strict).runStatement rates text
        line.statement)) = Except.map _ (Except.map _ (s.runStatement rates text line.statement))
      rw [runStatement_withSettings fun e => same line e parsed]
      cases s.runStatement rates text line.statement with
      | error f => rfl
      | ok done =>
        obtain ⟨r, t⟩ := done
        have previous : ((t.withSettings precision strict).record r).setPrevious r.value =
            ((t.record r).setPrevious r.value).withSettings precision strict := by
          unfold setPrevious
          split <;> rfl
        exact congrArg (fun t => Except.ok (r.value, t)) previous
    · rfl

end

/-- All names in a line have values. -/
def Knows (s : Session) (text : String) : Prop :=
  ∀ line e, Line.parse text = .ok (line, []) → line.statement.expr? = some e →
    ∀ n ∈ e.mentions, (s.find? n).isSome = true

/-- A line whose names all have values does the same under other settings. -/
theorem Knows.eval (knows : s.Knows text) (precision : Precision) (strict : Bool) :
    (s.withSettings precision strict).eval rates text =
      (s.eval rates text).map fun (v, t) => (v, t.withSettings precision strict) :=
  eval_withSettings fun line e parsed expr => e.eval_withStrict (knows line e parsed expr) strict

/-- The expression of a line that comes to no problem has its value. -/
theorem yields_of_clean {line : Line} {e : Expr} (done : s.eval rates text = .ok (v, t))
    (clean : v.isError = false) (parsed : Line.parse text = .ok (line, []))
    (expr : line.statement.expr? = some e) : e.Yields (s.scope rates) v := by
  refine ⟨?_, clean⟩
  have value := preview_of_eval done
  rw [preview_eq, parsed] at value
  have value : line.statement.valueIn (s.scope rates) = .ok v := value
  cases statement : line.statement with
  | empty | comment =>
    rw [statement] at expr
    cases expr
  | expr e' =>
    rw [statement] at expr value
    cases expr
    exact value
  | assign name e' =>
    rw [statement] at expr value
    cases expr
    rw [Statement.valueIn] at value
    split at value
    · cases value
      cases clean
    · exact value

/-- A line that comes to no problem does the same without strict mode. -/
theorem eval_lax (done : s.eval rates text = .ok (v, t)) (clean : v.isError = false)
    (precision : Precision) :
    (s.withSettings precision false).eval rates text = .ok (v, t.withSettings precision false) := by
  have same : (s.withSettings precision false).eval rates text =
      (s.eval rates text).map fun (v, t) => (v, t.withSettings precision false) := by
    refine eval_withSettings ?_
    intro line e parsed expr
    have yields := yields_of_clean done clean parsed expr
    rw [yields.1]
    exact yields.lax.1
  rw [same, done]
  rfl

/-- All names in a line that comes to no problem in strict mode have values. -/
theorem knows_of_clean (strict : s.strict = true) (done : s.eval rates text = .ok (v, t))
    (clean : v.isError = false) : s.Knows text := by
  intro line e parsed expr
  have inStrict : (s.scope rates).strict = true := strict
  exact (yields_of_clean done clean parsed expr).known inStrict

/-! ## Lines one after another -/

/-- All names in lines have values, each where its line is evaluated. -/
def KnowsAll (s : Session) (rates : RateTable) : List String → Prop
  | [] => True
  | text :: rest => s.Knows text ∧ ∀ v t, s.eval rates text = .ok (v, t) → t.KnowsAll rates rest

/-- Lines whose names all have values make the same of a session under other settings. -/
theorem evalAll_withSettings (knows : s.KnowsAll rates lines) (precision : Precision)
    (strict : Bool) : (s.withSettings precision strict).evalAll rates lines =
      ((s.evalAll rates lines).1, (s.evalAll rates lines).2.withSettings precision strict) := by
  induction lines generalizing s with
  | nil => rfl
  | cons text rest ih =>
    rw [evalAll, evalAll, knows.1.eval]
    cases done : s.eval rates text with
    | error f => rfl
    | ok result =>
      obtain ⟨v, t⟩ := result
      simp only [Except.map, ih (knows.2 v t done)]

theorem knowsAll_withSettings (knows : s.KnowsAll rates lines) (precision : Precision)
    (strict : Bool) : (s.withSettings precision strict).KnowsAll rates lines := by
  induction lines generalizing s with
  | nil => trivial
  | cons text rest ih =>
    refine ⟨knows.1, ?_⟩
    intro v t done
    rw [knows.1.eval] at done
    obtain ⟨⟨v', t'⟩, first, eq⟩ := map_ok_iff.mp done
    cases eq
    exact ih (knows.2 _ t' first)

/-- Lines that come to no problem make the same of a session without strict mode. -/
theorem evalAll_lax (done : s.evalAll rates lines = (.ok values, t))
    (clean : ∀ v ∈ values, v.isError = false) (precision : Precision) :
    (s.withSettings precision false).evalAll rates lines =
      (.ok values, t.withSettings precision false) := by
  induction lines generalizing s values with
  | nil =>
    cases done
    rfl
  | cons text rest ih =>
    obtain ⟨v, mid, others, first, later, rfl⟩ := evalAll_cons_ok_iff.mp done
    obtain ⟨cleanFirst, clean⟩ := List.forall_mem_cons.mp clean
    exact evalAll_cons_ok_iff.mpr
      ⟨v, _, others, eval_lax first cleanFirst precision, ih later clean, rfl⟩

/-- All names in lines that come to no problem in strict mode have values. -/
theorem knowsAll_of_clean (strict : s.strict = true)
    (done : s.evalAll rates lines = (.ok values, t)) (clean : ∀ v ∈ values, v.isError = false) :
    s.KnowsAll rates lines := by
  induction lines generalizing s values with
  | nil => trivial
  | cons text rest ih =>
    obtain ⟨v, mid, others, first, later, rfl⟩ := evalAll_cons_ok_iff.mp done
    obtain ⟨cleanFirst, clean⟩ := List.forall_mem_cons.mp clean
    refine ⟨knows_of_clean strict first cleanFirst, ?_⟩
    intro w next again
    cases first.symm.trans again
    exact ih ((outcome_of_eval first).sameSettings.strict.trans strict) later clean

/-- Lines add their values to the history. -/
theorem values_evalAll (done : s.evalAll rates lines = (.ok values, t)) :
    t.history.map (·.value) = s.history.map (·.value) ++ values := by
  induction lines generalizing s values with
  | nil =>
    cases done
    exact (List.append_nil _).symm
  | cons text rest ih =>
    obtain ⟨v, mid, others, first, later, rfl⟩ := evalAll_cons_ok_iff.mp done
    rw [ih later, (outcome_of_eval first).values, List.append_assoc]
    rfl

end LineCalc.Session
