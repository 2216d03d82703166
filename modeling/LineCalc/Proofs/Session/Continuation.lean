import LineCalc.Proofs.Session.Effect

/-!
# Continuations spelled out

A continuation leaves its left operand out. It reads the previous result directly, while a name is
looked up; and the line that it consumes is found by going through the history from its end. Where
there is a previous result, the three are about the same amount: a continuation has the value of the
expression that names the previous result, and it consumes the line that this amount is the value
of.

Results:
1. `Expr.eval_spelledOut`: a continuation has the value of the expression that names its left
   operand.
2. `Session.Consistent.resumes`: a valid continuation marks the line of its left operand.
3. `continuation_spelled_out`: both for the sessions of a reachable workspace.
-/

namespace LineCalc

/-- A continuation with its left operand named; any other expression as it is. -/
def Expr.spelledOut : Expr → Expr
  | .resume op e => .binary (.name "_") op (.group e)
  | .resumeConversion target => .conversion (.name "_") target
  | e => e

section

variable {s t : Session} {rates : RateTable} {text : String} {v : Value}

/-- The name of the previous result has its value, whatever variables there are. -/
theorem Session.resolve_previous (rates : RateTable) (present : s.previous.isEmpty = false) :
    (s.scope rates).resolve "_" = s.previous := by
  have key : previousNames.contains (Text.lower "_") = true := by decide +kernel
  have found : s.find? "_" = some s.previous := by
    simp only [find?, key, present, if_true, Bool.false_eq_true, if_false]
  simp only [Scope.resolve, scope, found]

/-- Naming the left operand of a continuation changes neither its value nor a fault. -/
theorem Expr.eval_spelledOut {n : Float} {d : Denomination} (amount : s.previous = .amount n d)
    (e : Expr) : e.spelledOut.eval (s.scope rates) = e.eval (s.scope rates) := by
  have present : s.previous.isEmpty = false := by
    rw [amount]
    rfl
  have named := Session.resolve_previous rates present
  have previous : (s.scope rates).previous = .amount n d := amount
  rw [amount] at named
  cases e with
  | resume op e =>
    rw [spelledOut, Expr.eval, Expr.eval, named, Expr.eval, Expr.eval]
    simp only [Scope.resume, previous]
    rfl
  | resumeConversion target =>
    rw [spelledOut, Expr.eval, Expr.eval, named, Expr.eval, previous]
    rfl
  | _ => rfl

/-! ## The line that is taken up -/

theorem latestAmount_of_split {before after : List LineRecord} {r : LineRecord}
    (valid : r.value.isValid = true) (last : ∀ a ∈ after, a.value.isValid = false) :
    latestAmount (before ++ r :: after) = r.value := by
  have none : after.reverse.find? (·.value.isValid) = none := by simpa using last
  simp [latestAmount, List.findRev?_eq_find?_reverse, List.find?_append, none, valid]

theorem latestAmount_eq_empty {rs : List LineRecord}
    (invalid : ∀ r ∈ rs, r.value.isValid = false) : latestAmount rs = .empty := by
  have none : rs.reverse.find? (·.value.isValid) = none := by simpa using invalid
  simp [latestAmount, List.findRev?_eq_find?_reverse, none]

/-- An amount of the history is an amount. -/
theorem exists_amount_of_latestAmount {rs : List LineRecord}
    (present : (latestAmount rs).isEmpty = false) : ∃ n d, latestAmount rs = .amount n d := by
  rw [latestAmount] at present ⊢
  cases found : rs.findRev? (·.value.isValid) with
  | none =>
    rw [found] at present
    cases present
  | some r =>
    rw [List.findRev?_eq_find?_reverse] at found
    have valid := List.find?_some found
    show ∃ n d, r.value = .amount n d
    cases value : r.value with
    | amount n d => exact ⟨n, d, rfl⟩
    | empty | error => simp [value, Value.isValid] at valid

/-- A line of the history becomes consumed, which it was not before, and a record is added. The
line is the one that the previous result is the value of: no amount comes after it. -/
inductive Session.Resumes (s t : Session) (r : LineRecord) : Prop
  | mk (before : List LineRecord) (left : LineRecord) (after : List LineRecord) :
      s.history = before ++ left :: after → left.value = s.previous → left.consumed = false →
      (∀ a ∈ after, a.value.isValid = false) →
      t.history = before ++ { left with consumed := true } :: after ++ [r] → Resumes s t r

/-- A valid continuation marks the line of its left operand, and no other. -/
theorem Session.Consistent.resumes {line : Line} (consistent : s.Consistent)
    (present : s.previous.isEmpty = false) (parsed : Line.parse text = .ok (line, []))
    (continues : line.statement.isContinuation = true) (done : s.eval rates text = .ok (v, t))
    (valid : v.isValid = true) :
    ∃ r, r.raw = text ∧ r.value = v ∧ r.consumed = false ∧ s.Resumes t r := by
  obtain ⟨r, line', raw, value, fresh, parsed', takes⟩ :=
    (outcome_of_eval done).takesIn consistent valid
  obtain rfl : line = line' := by
    rw [parsed] at parsed'
    cases parsed'
    rfl
  obtain ⟨earlier, history, marked⟩ := takes.history
  rw [if_pos continues] at marked
  refine ⟨r, raw, value, fresh, ?_⟩
  cases marked with
  | nothing none =>
    rw [consistent.previous, latestAmount_eq_empty none] at present
    cases present
  | @latest before after left split validLeft freshLeft last =>
    refine .mk before left after split ?_ freshLeft last history
    rw [consistent.previous, split, latestAmount_of_split validLeft last]

end

/-! ## Reachable sessions -/

/-- In a reachable session with a previous result, a continuation has the value, or the error, of
the expression that names the previous result as its left operand; so has a line that says the one
that of a line that says the other. A valid continuation marks as consumed the line whose value was
that operand, and leaves all other lines as they are. -/
theorem continuation_spelled_out {w : Workspace} (reachable : w.Reachable) {s : Session}
    (mem : s ∈ w.sessions) (present : s.previous.isEmpty = false) (rates : RateTable) :
    (∀ op e, (Expr.resume op e).eval (s.scope rates) =
        (Expr.binary (.name "_") op (.group e)).eval (s.scope rates)) ∧
      (∀ target, (Expr.resumeConversion target).eval (s.scope rates) =
        (Expr.conversion (.name "_") target).eval (s.scope rates)) ∧
      (∀ text other line line' e, Line.parse text = .ok (line, []) → line.statement = .expr e →
        Line.parse other = .ok (line', []) → line'.statement = .expr e.spelledOut →
          s.preview rates text = s.preview rates other) ∧
      ∀ text line v t, Line.parse text = .ok (line, []) → line.statement.isContinuation = true →
        s.eval rates text = .ok (v, t) → v.isValid = true →
          ∃ r, r.raw = text ∧ r.value = v ∧ r.consumed = false ∧ s.Resumes t r := by
  have consistent := reachable.consistent s mem
  obtain ⟨n, d, amount⟩ : ∃ n d, s.previous = .amount n d := by
    rw [consistent.previous] at present ⊢
    exact exists_amount_of_latestAmount present
  have same (e : Expr) : e.spelledOut.eval (s.scope rates) = e.eval (s.scope rates) :=
    Expr.eval_spelledOut amount e
  refine ⟨fun op e => (same (.resume op e)).symm,
    fun target => (same (.resumeConversion target)).symm, ?_, ?_⟩
  · intro text other line line' e parsed statement parsed' statement'
    rw [Session.preview_of_expr parsed statement, Session.preview_of_expr parsed' statement', same]
  · intro text line v t parsed continues done valid
    exact consistent.resumes present parsed continues done valid

/-- A continuation of a number takes up its line, though a comment stands between. -/
theorem continuation_spelled_out_exNoted :
    let w : Workspace := { sessions := [exNoted], rates := .empty 60 }
    (w.Reachable ∧ exNoted ∈ w.sessions ∧ exNoted.previous.isEmpty = false) ∧
      (Expr.resume .add (.literal 3 .plain "3")).eval (exNoted.scope []) =
        (Expr.binary (.name "_") .add (.group (.literal 3 .plain "3"))).eval (exNoted.scope []) ∧
      ∃ r, r.raw = "+ 3" ∧ r.value = .number 5 ∧ r.consumed = false ∧
        exNoted.Resumes exResumed r := by
  intro w
  have mem : exNoted ∈ w.sessions := List.mem_singleton_self _
  obtain ⟨operators, -, -, lines⟩ := continuation_spelled_out exNoted_reachable mem rfl []
  exact ⟨⟨exNoted_reachable, mem, rfl⟩, operators _ _,
    lines _ _ _ _ parse_exContinuation rfl eval_exContinuation rfl⟩

end LineCalc
