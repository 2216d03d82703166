import LineCalc.Proofs.Evaluation.Stop
import LineCalc.Proofs.Expr.Parts
import LineCalc.Proofs.Session.Consumption
import LineCalc.Proofs.Session.Continuation

/-!
# The first problem

Arguments of a function are looked at from left to right, up to the first problem. All other
expressions look at what they are made of in the same way, and each hands on the problem it meets as
it is. So the problem of an expression is that of the first of its parts that has one; a part comes
before the expressions around it, so that is where the problem arose.

Results:
1. `Expr.handsOn_children`: an expression looks at its children as if they were arguments.
2. `Expr.findSome?_parts`: the first problem among the parts.
3. `first_problem_wins`: this in a session that clients can come to.
-/

namespace LineCalc

/-- The problem that an expression comes to. -/
def Expr.problem? (s : Scope) (e : Expr) : Option Problem :=
  match e.eval s with
  | .ok (.error p) => some p
  | _ => none

section

variable {s : Scope} {e : Expr} {es : List Expr} {v : Value} {p : Problem}

theorem Expr.problem?_eq_some : e.problem? s = some p ↔ e.eval s = .ok (.error p) := by
  unfold problem?
  split
  · next h => simp [h]
  · next other => exact ⟨nofun, fun h => (other p h).elim⟩

theorem Expr.problem?_of_yields (h : e.Yields s v) : e.problem? s = none := by
  obtain ⟨value, clean⟩ := h
  refine Option.eq_none_iff_forall_ne_some.mpr fun p problem => ?_
  rw [problem?_eq_some, value] at problem
  cases problem
  cases clean

/-! ## Arguments -/

theorem evalArgs_cons_of_problem (h : e.eval s = .ok (.error p)) :
    evalArgs s (e :: es) = .ok (.error p) := by
  rw [evalArgs, h]
  rfl

/-- The first argument has a value, and if that is no problem, so have those after it together. -/
theorem eval_of_evalArgs_cons {r : Except Problem (List Value)}
    (h : evalArgs s (e :: es) = .ok r) :
    (∃ p, e.eval s = .ok (.error p)) ∨
      (∃ v, e.Yields s v) ∧ ∃ r', evalArgs s es = .ok r' := by
  rw [evalArgs] at h
  obtain ⟨v, value, rest⟩ := bind_ok_iff.mp h
  split at rest
  · exact .inl ⟨_, value⟩
  · next clean =>
    obtain ⟨r', others, -⟩ := bind_ok_iff.mp rest
    exact .inr ⟨⟨v, value, Value.isError_eq_false clean⟩, r', others⟩

/-- The arguments come to the first problem among them. -/
theorem findSome?_of_evalArgs {r : Except Problem (List Value)} (h : evalArgs s es = .ok r) :
    es.findSome? (Expr.problem? s) = some p ↔ r = .error p := by
  induction es generalizing r with
  | nil =>
    cases h
    exact ⟨nofun, nofun⟩
  | cons e es ih =>
    rcases eval_of_evalArgs_cons h with ⟨q, problem⟩ | ⟨⟨v, value⟩, r', others⟩
    · rw [evalArgs_cons_of_problem problem] at h
      cases h
      rw [List.findSome?_cons, Expr.problem?_eq_some.mpr problem]
      simp
    · rw [evalArgs_cons_of_yields value, others] at h
      cases h
      rw [List.findSome?_cons, Expr.problem?_of_yields value]
      cases r' with
      | error q => exact ih others
      | ok vs => exact (ih others).trans ⟨nofun, nofun⟩

/-! ## Children -/

/-- Some expressions are looked at from left to right up to the first problem, and a value is that
problem if there is one. -/
def HandsOn (s : Scope) (es : List Expr) (v : Value) : Prop :=
  ∃ r, evalArgs s es = .ok r ∧ ∀ p, r = .error p → v = .error p

namespace HandsOn

theorem nil (s : Scope) (v : Value) : HandsOn s [] v := ⟨.ok [], rfl, nofun⟩

theorem of_problem (h : e.eval s = .ok (.error p)) (es : List Expr) :
    HandsOn s (e :: es) (.error p) := by
  refine ⟨.error p, evalArgs_cons_of_problem h, fun q eq => ?_⟩
  cases eq
  rfl

theorem cons {u : Value} (first : e.Yields s u) (others : HandsOn s es v) :
    HandsOn s (e :: es) v := by
  obtain ⟨r, values, handed⟩ := others
  refine ⟨r.map (u.asOperand :: ·), ?_, fun p eq => ?_⟩
  · rw [evalArgs_cons_of_yields first, values]
    rfl
  · cases r with
    | error q => exact handed p eq
    | ok vs => cases eq

theorem single {u : Value} (value : e.eval s = .ok u) (handed : ∀ p, u = .error p → v = .error p) :
    HandsOn s [e] v := by
  cases u with
  | error p =>
    rw [handed p rfl]
    exact of_problem value []
  | empty | amount => exact cons ⟨value, rfl⟩ (nil s v)

end HandsOn

theorem Value.apply_error {rates : RateTable} {op : BinaryOp} {u : Value}
    (clean : u.isError = false) (p : Problem) :
    u.apply rates op (.error p) = .ok (.error p) := by
  cases u with
  | error q => cases clean
  | empty | amount => rfl

theorem Scope.resume_error {op : BinaryOp} (previous : s.previous.isError = false) (p : Problem) :
    s.resume op (.error p) = .ok (.error p) := by
  unfold resume
  split
  · split <;> rfl
  · exact Value.apply_error previous p

/-- An expression looks at its children as if they were arguments: from left to right up to the
first problem, which it hands on. -/
theorem Expr.handsOn_children (previous : s.previous.isError = false) (done : e.eval s = .ok v) :
    HandsOn s e.children v := by
  cases e with
  | literal | name | resumeConversion => exact .nil s v
  | binary left op right =>
    rw [Expr.eval] at done
    obtain ⟨u, first, rest⟩ := bind_ok_iff.mp done
    split at rest
    · -- The right operand is not looked at, and may not even have a value.
      cases rest
      exact .of_problem first [right]
    · next clean =>
      have clean := Value.isError_eq_false clean
      obtain ⟨w, second, applied⟩ := bind_ok_iff.mp rest
      refine .cons ⟨first, clean⟩ (.single second fun p eq => ?_)
      rw [eq, Value.apply_error clean] at applied
      exact (Except.ok.inj applied).symm
  | signed sign e =>
    rw [children]
    cases sign with
    | minus =>
      rw [Expr.eval] at done
      obtain ⟨u, value, rfl⟩ := map_ok_iff.mp done
      exact .single value fun p eq => by rw [eq]; rfl
    | plus =>
      rw [Expr.eval] at done
      exact .single done fun _ eq => eq
  | percentOf fraction raw e =>
    rw [Expr.eval] at done
    obtain ⟨u, value, rfl⟩ := map_ok_iff.mp done
    exact .single value fun p eq => by rw [eq]; rfl
  | conversion e target =>
    rw [Expr.eval] at done
    obtain ⟨u, value, rfl⟩ := map_ok_iff.mp done
    exact .single value fun p eq => by rw [eq]; rfl
  | call function args =>
    rw [Expr.eval] at done
    obtain ⟨r, values, rest⟩ := bind_ok_iff.mp done
    refine ⟨r, values, fun p eq => ?_⟩
    rw [eq] at rest
    exact (Except.ok.inj rest).symm
  | group e =>
    rw [Expr.eval] at done
    exact .single done fun _ eq => eq
  | resume op e =>
    rw [Expr.eval] at done
    obtain ⟨u, value, resumed⟩ := bind_ok_iff.mp done
    refine .single value fun p eq => ?_
    rw [eq, Scope.resume_error previous] at resumed
    exact (Except.ok.inj resumed).symm

/-- The first problem among the children is that of the whole. -/
theorem Expr.eq_error_of_findSome?_children (previous : s.previous.isError = false)
    (done : e.eval s = .ok v) (first : e.children.findSome? (problem? s) = some p) :
    v = .error p := by
  obtain ⟨r, values, handed⟩ := handsOn_children previous done
  exact handed p ((findSome?_of_evalArgs values).mp first)

/-! ## Parts -/

theorem findSome?_flatMap_parts {r : Except Problem (List Value)}
    (each : ∀ e ∈ es, ∀ v, e.eval s = .ok v →
      e.parts.findSome? (Expr.problem? s) = e.problem? s)
    (h : evalArgs s es = .ok r) :
    (es.flatMap Expr.parts).findSome? (Expr.problem? s) = es.findSome? (Expr.problem? s) := by
  induction es generalizing r with
  | nil => rfl
  | cons e es ih =>
    obtain ⟨first, later⟩ := List.forall_mem_cons.mp each
    rw [List.flatMap_cons, List.findSome?_append, List.findSome?_cons]
    rcases eval_of_evalArgs_cons h with ⟨q, problem⟩ | ⟨⟨v, value⟩, r', others⟩
    · rw [first _ problem, Expr.problem?_eq_some.mpr problem]
      rfl
    · rw [first _ value.1, Expr.problem?_of_yields value, ih later others]
      rfl

/-- The first problem among the parts, from left to right and from the inside out, is that of the
whole. -/
theorem Expr.findSome?_parts (previous : s.previous.isError = false) (done : e.eval s = .ok v) :
    e.parts.findSome? (problem? s) = e.problem? s := by
  induction e using childrenInduction generalizing v with
  | step e ih =>
    obtain ⟨r, values, -⟩ := handsOn_children previous done
    rw [parts_eq, List.findSome?_append,
      findSome?_flatMap_parts (fun c mem u value => ih c mem value) values]
    -- What is left of the parts is the whole, which has the problem of its first child, if any.
    cases first : e.children.findSome? (problem? s) with
    | none => simp
    | some p =>
      have whole := eq_error_of_findSome?_children previous done first
      rw [whole] at done
      rw [problem?_eq_some.mpr done]
      rfl

end

/-- The previous result is no problem. -/
theorem Session.Consistent.isError_previous {s : Session} (h : s.Consistent) :
    s.previous.isError = false := by
  rw [h.previous]
  cases present : (latestAmount s.history).isEmpty with
  | true =>
    cases latest : latestAmount s.history with
    | empty => rfl
    | error | amount =>
      rw [latest] at present
      cases present
  | false =>
    obtain ⟨n, d, latest⟩ := exists_amount_of_latestAmount present
    rw [latest]
    rfl

/-- In every session that clients can come to, an expression that evaluation returns a value for has
the problem of the first of its children that comes to one, whatever the expression would make of
other values. So it comes to a problem exactly if one of its parts does, and then to that of the
first, where the parts are in the order of the text and each comes before those around it. -/
theorem first_problem_wins {w : Workspace} (reachable : w.Reachable) {s : Session}
    (mem : s ∈ w.sessions) (rates : RateTable) {e : Expr} {v : Value}
    (done : e.eval (s.scope rates) = .ok v) (p : Problem) :
    (e.children.findSome? (Expr.problem? (s.scope rates)) = some p → v = .error p) ∧
      (v = .error p ↔ e.parts.findSome? (Expr.problem? (s.scope rates)) = some p) := by
  have previous : (s.scope rates).previous.isError = false :=
    (reachable.consistent s mem).isError_previous
  refine ⟨Expr.eq_error_of_findSome?_children previous done, ?_⟩
  rw [Expr.findSome?_parts previous done, Expr.problem?_eq_some, done, Except.ok.injEq]

/-! ## A quotient and a conversion -/

/-- The absolute value of a quotient by zero, added to a conversion into something unknown. -/
def exTwoProblems : Expr :=
  .binary (.call "abs" [.group (.binary (.literal 1 .plain "1") .div (.literal 0 .plain "0"))]) .add
    (.conversion (.literal 5 .plain "5") "nowhere")

/-- Both operands come to a problem, and the sum to that of the left one, which arose in the
quotient. -/
theorem first_problem_wins_exTwoProblems :
    (Workspace.Reachable { sessions := [exNoted], rates := .empty 60 } ∧ exNoted ∈ [exNoted] ∧
      exTwoProblems.eval (exNoted.scope []) = .ok (.error .divisionByZero) ∧
      exTwoProblems.children.map (Expr.problem? (exNoted.scope [])) =
        [some .divisionByZero, some (.unknownTarget "nowhere")]) ∧
    exTwoProblems.parts.findSome? (Expr.problem? (exNoted.scope [])) = some .divisionByZero := by
  have sum : exTwoProblems.eval (exNoted.scope []) = .ok (.error .divisionByZero) :=
    eq_ok_of_toOption (by decide +kernel)
  have wins := first_problem_wins exNoted_reachable (List.mem_singleton_self _) [] sum
  exact ⟨⟨exNoted_reachable, List.mem_singleton_self _, sum, by decide +kernel⟩,
    (wins .divisionByZero).2.mp rfl⟩

end LineCalc
