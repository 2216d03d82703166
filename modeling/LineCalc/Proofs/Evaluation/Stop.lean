import LineCalc.Proofs.Decimal.Double
import LineCalc.Proofs.Expr.Computed
import LineCalc.Proofs.Result
import LineCalc.Session.Eval

/-!
# Where evaluation stops

Evaluation turns what goes wrong into a problem, which is a value, except in four places: the
remainder of an infinite number, a sum that leaves the range of the doubles on the way or meets both
infinities, and a count of places to round to that is no finite number or that is too far away.
There it ends in a fault. `Expr.Stops` lists the positions from which such a fault gets out.

Results:
1. `eval_stops_iff`: an expression ends in a fault exactly where `Expr.Stops` has it.
2. `statement_recorded_unless_stopped`: all other statements have a value and add one record to the
   history.
-/

namespace LineCalc

/-! ## Operations without a result -/

/-- An operator has no result for two amounts. -/
inductive BinaryOp.Stops : BinaryOp → Float → Float → Fault → Prop
  /-- An infinite number has no remainder, unless by zero, which is a problem, or by no number. -/
  | remainder {x y : Float} :
      x.isInf = true → (y == 0) = false → y.isNaN = false → Stops .mod x y .infiniteRemainder

/-- A function has no result for some values. -/
inductive Builtin.Stops : Builtin → List Value → Fault → Prop
  | sum {first : Value} {rest : List Value} {f : Fault} :
      sumOf ((first :: rest).map (·.magnitude)) = .error f →
      Stops (.aggregate .sum) (first :: rest) f
  | average {first : Value} {rest : List Value} {f : Fault} :
      sumOf ((first :: rest).map (·.magnitude)) = .error f →
      Stops (.aggregate .average) (first :: rest) f
  | undefinedPlaces {x places : Value} :
      places.magnitude.isNaN = true → Stops .round [x, places] .undefinedInteger
  | infinitePlaces {x places : Value} :
      places.magnitude.isInf = true → Stops .round [x, places] .infiniteInteger
  /-- The power of ten to round to is beyond the greatest one, but not so far that the shift to it
  would be refused first. -/
  | farPlaces {x places : Value} {k : Int} :
      Decimal.truncate? places.magnitude = some k → -2000054 ≤ k → k < -999999 →
      Stops .round [x, places] .roundingUnitTooGreat

/-- An expression has a value that is no problem. -/
def Expr.Yields (s : Scope) (e : Expr) (v : Value) : Prop := e.eval s = .ok v ∧ v.isError = false

/-- Evaluation of an expression comes to an operation without a result. The parts are evaluated from
left to right, and a part that is a problem ends the evaluation before what follows it. -/
inductive Expr.Stops (s : Scope) : Expr → Fault → Prop
  | left {left right : Expr} {op : BinaryOp} {f : Fault} :
      Stops s left f → Stops s (.binary left op right) f
  | right {left right : Expr} {op : BinaryOp} {v : Value} {f : Fault} :
      left.Yields s v → Stops s right f → Stops s (.binary left op right) f
  | operator {left right : Expr} {op : BinaryOp} {v w : Value} {f : Fault} :
      left.Yields s v → right.Yields s w → op.Stops v.magnitude w.magnitude f →
      Stops s (.binary left op right) f
  | signed {sign : SignOp} {e : Expr} {f : Fault} : Stops s e f → Stops s (.signed sign e) f
  | percentOf {fraction : Float} {raw : String} {base : Expr} {f : Fault} :
      Stops s base f → Stops s (.percentOf fraction raw base) f
  | conversion {e : Expr} {target : String} {f : Fault} :
      Stops s e f → Stops s (.conversion e target) f
  | group {e : Expr} {f : Fault} : Stops s e f → Stops s (.group e) f
  | argument {function : String} {before after : List Expr} {e : Expr} {f : Fault} :
      (∀ a ∈ before, ∃ v, a.Yields s v) → Stops s e f →
      Stops s (.call function (before ++ e :: after)) f
  | call {function : String} {args : List Expr} {vs : List Value} {g : Builtin} {f : Fault} :
      evalArgs s args = .ok (.ok vs) → Builtin.ofName? (Text.lower function) = some g →
      g.Stops vs f → Stops s (.call function args) f
  | operand {op : BinaryOp} {e : Expr} {f : Fault} : Stops s e f → Stops s (.resume op e) f
  | resumed {op : BinaryOp} {e : Expr} {w : Value} {f : Fault} :
      s.previous.isValid = true → e.Yields s w → op.Stops s.previous.magnitude w.magnitude f →
      Stops s (.resume op e) f

/-- Evaluation of a statement comes to an operation without a result. An assignment to a reserved
name is refused before its expression is looked at. -/
inductive Statement.Stops (s : Scope) : Statement → Fault → Prop
  | expr {e : Expr} {f : Fault} : e.Stops s f → Stops s (.expr e) f
  | assign {name : String} {e : Expr} {f : Fault} :
      isReservedName name = false → e.Stops s f → Stops s (.assign name e) f

/-! ## Operators -/

theorem Value.magnitude_asOperand (v : Value) : v.asOperand.magnitude = v.magnitude := by
  cases v <;> rfl

theorem Value.applyAmounts_error_iff (rates : RateTable) {op : BinaryOp} {v w : Value} {f : Fault} :
    applyAmounts rates op v w = .error f ↔ op.Stops v.magnitude w.magnitude f := by
  constructor
  · intro h
    cases op with
    | add | sub | mul | div | pow => cases h
    | mod =>
      simp only [applyAmounts] at h
      split at h
      · cases h
      · next nonzero =>
        have nonzero : (w.magnitude == 0) = false := by simpa using nonzero
        split at h
        · cases h
        · next none =>
          cases h
          obtain ⟨infinite, number⟩ := (Decimal.remainder?_eq_none_iff nonzero).mp none
          exact .remainder infinite nonzero number
  · rintro ⟨infinite, nonzero, number⟩
    simp [applyAmounts, nonzero, (Decimal.remainder?_eq_none_iff nonzero).mpr ⟨infinite, number⟩]

theorem Value.apply_error_iff {rates : RateTable} {op : BinaryOp} {v w : Value} {f : Fault} :
    v.apply rates op w = .error f ↔
      v.isError = false ∧ w.isError = false ∧ op.Stops v.magnitude w.magnitude f := by
  -- Operands that are problems stop the operator before their amounts are looked at.
  rw [← magnitude_asOperand v, ← magnitude_asOperand w, ← applyAmounts_error_iff rates]
  cases v <;> cases w <;> simp [apply, isError]

/-! ## Functions -/

theorem integerPart_error_iff {x : Float} {f : Fault} :
    integerPart x = .error f ↔
      x.isNaN = true ∧ f = .undefinedInteger ∨ x.isInf = true ∧ f = .infiniteInteger := by
  unfold integerPart Decimal.truncate?
  cases exact : Decimal.binary? x with
  | some b =>
    rw [Decimal.not_isInf_of_binary? exact, Decimal.not_isNaN_of_binary? exact]
    simp
  | none =>
    cases nan : x.isNaN with
    | true => simp [Decimal.isInf_of_isNaN nan, eq_comm]
    | false => simp [Decimal.isInf_of_binary? exact nan, eq_comm]

theorem integerPart_ok_iff {x : Float} {k : Int} :
    integerPart x = .ok k ↔ Decimal.truncate? x = some k := by
  unfold integerPart
  cases Decimal.truncate? x <;> simp

theorem roundTo_error_iff {x places : Float} {f : Fault} :
    roundTo x places = .error f ↔
      integerPart places = .error f ∨ ∃ k, Decimal.truncate? places = some k ∧
        -2000054 ≤ k ∧ k < -999999 ∧ f = .roundingUnitTooGreat := by
  rw [roundTo, bind_error_iff]
  -- The first step is the integral part, the second the shift by it.
  refine or_congr_right (exists_congr fun k => ?_)
  rw [integerPart_ok_iff, ← and_assoc (a := -2000054 ≤ k), ← Decimal.unitIsTooGreat_iff,
    Decimal.roundHalfAway?]
  cases Decimal.unitIsTooGreat k with
  | true => simp [throw, throwThe, MonadExceptOf.throw, eq_comm]
  | false => simp [pure, Except.pure]

/-- No places are neither infinitely many nor too far away. -/
theorem roundTo_zero_ne_error {x : Float} {f : Fault} : roundTo x 0 ≠ .error f := by
  intro h
  have zero : Decimal.truncate? 0 = some 0 := rfl
  rcases roundTo_error_iff.mp h with h | ⟨k, hk, _, least, _⟩
  · rw [integerPart_ok_iff.mpr zero] at h
    cases h
  · cases zero.symm.trans hk
    omega

theorem Aggregate.apply_error_iff {a : Aggregate} {name : String} {vs : List Value} {f : Fault} :
    a.apply name vs = .error f ↔ (Builtin.aggregate a).Stops vs f := by
  constructor
  · intro h
    cases vs with
    | nil => cases a <;> cases h
    | cons first rest =>
      cases a with
      | sum => exact .sum (map_error_iff.mp h)
      | average => exact .average (map_error_iff.mp h)
      | count | least | greatest => cases h
  · intro h
    cases h with
    | sum h => exact map_error_iff.mpr h
    | average h => exact map_error_iff.mpr h

theorem Builtin.apply_round_error_iff {name : String} {vs : List Value} {f : Fault} :
    round.apply name vs = .error f ↔ round.Stops vs f := by
  constructor
  · intro h
    rcases vs with _ | ⟨x, _ | ⟨places, _ | ⟨_, _⟩⟩⟩
    · cases h
    · exact absurd h roundTo_zero_ne_error
    · rcases roundTo_error_iff.mp h with h | ⟨k, hk, least, most, rfl⟩
      · rcases integerPart_error_iff.mp h with ⟨nan, rfl⟩ | ⟨infinite, rfl⟩
        · exact .undefinedPlaces nan
        · exact .infinitePlaces infinite
      · exact .farPlaces hk least most
    · cases h
  · intro h
    cases h with
    | undefinedPlaces nan =>
      exact roundTo_error_iff.mpr (.inl (integerPart_error_iff.mpr (.inl ⟨nan, rfl⟩)))
    | infinitePlaces infinite =>
      exact roundTo_error_iff.mpr (.inl (integerPart_error_iff.mpr (.inr ⟨infinite, rfl⟩)))
    | farPlaces hk least most =>
      exact roundTo_error_iff.mpr (.inr ⟨_, hk, least, most, rfl⟩)

theorem Builtin.apply_error_iff {g : Builtin} {name : String} {vs : List Value} {f : Fault} :
    g.apply name vs = .error f ↔ g.Stops vs f := by
  cases g with
  | aggregate a => exact Aggregate.apply_error_iff
  | round => exact apply_round_error_iff
  | unary u =>
    refine ⟨fun h => ?_, nofun⟩
    rcases vs with _ | ⟨x, _ | ⟨_, _⟩⟩ <;> cases h
  | power =>
    refine ⟨fun h => ?_, nofun⟩
    rcases vs with _ | ⟨x, _ | ⟨y, _ | ⟨_, _⟩⟩⟩ <;> cases h

/-! ## Expressions -/

theorem Scope.resume_error_iff {s : Scope} {op : BinaryOp} {v : Value} {f : Fault} :
    s.resume op v = .error f ↔ s.previous.isValid = true ∧ v.isError = false ∧
      op.Stops s.previous.magnitude v.magnitude f := by
  unfold resume
  cases h : s.previous with
  | empty => simp [Value.isEmpty, Value.isValid]
  | error p => simp [Value.isEmpty, Value.isValid, Value.apply]
  | amount n d =>
    rw [if_neg (by simp [Value.isEmpty]), Value.apply_error_iff]
    simp [Value.isError, Value.isValid]

mutual

/-- Evaluation ends in a fault only at an operation without a result. -/
theorem stops_of_eval {s : Scope} {e : Expr} {f : Fault} (h : e.eval s = .error f) :
    e.Stops s f := by
  cases e with
  | literal | name | resumeConversion =>
    simp only [Expr.eval] at h
    cases h
  | binary left op right =>
    simp only [Expr.eval] at h
    rcases bind_error_iff.mp h with h | ⟨v, hv, h⟩
    · exact .left (stops_of_eval h)
    · split at h
      · cases h
      · next notError =>
        have valid := Value.isError_eq_false notError
        rcases bind_error_iff.mp h with h | ⟨w, hw, h⟩
        · exact .right ⟨hv, valid⟩ (stops_of_eval h)
        · obtain ⟨_, validRight, h⟩ := Value.apply_error_iff.mp h
          exact .operator ⟨hv, valid⟩ ⟨hw, validRight⟩ h
  | signed sign e =>
    cases sign with
    | plus =>
      simp only [Expr.eval] at h
      exact .signed (stops_of_eval h)
    | minus =>
      simp only [Expr.eval] at h
      exact .signed (stops_of_eval (map_error_iff.mp h))
  | percentOf fraction raw base =>
    simp only [Expr.eval] at h
    exact .percentOf (stops_of_eval (map_error_iff.mp h))
  | conversion e target =>
    simp only [Expr.eval] at h
    exact .conversion (stops_of_eval (map_error_iff.mp h))
  | call function args =>
    simp only [Expr.eval] at h
    rcases bind_error_iff.mp h with h | ⟨_ | vs, hvs, h⟩
    · obtain ⟨before, e, after, rfl, values, h⟩ := stops_of_evalArgs h
      exact .argument values h
    -- An argument that is a problem is the value of the call: no function is applied.
    · cases h
    · simp only at h
      split at h
      · next g named => exact .call hvs named (Builtin.apply_error_iff.mp h)
      · cases h
  | group e =>
    simp only [Expr.eval] at h
    exact .group (stops_of_eval h)
  | resume op e =>
    simp only [Expr.eval] at h
    rcases bind_error_iff.mp h with h | ⟨w, hw, h⟩
    · exact .operand (stops_of_eval h)
    · obtain ⟨valid, validOperand, h⟩ := Scope.resume_error_iff.mp h
      exact .resumed valid ⟨hw, validOperand⟩ h

/-- Evaluation of arguments ends in a fault only within one of them, with values of those before
it. -/
theorem stops_of_evalArgs {s : Scope} {es : List Expr} {f : Fault} (h : evalArgs s es = .error f) :
    ∃ before e after, es = before ++ e :: after ∧ (∀ a ∈ before, ∃ v, a.Yields s v) ∧
      e.Stops s f := by
  cases es with
  | nil =>
    simp only [evalArgs] at h
    cases h
  | cons e es =>
    simp only [evalArgs] at h
    rcases bind_error_iff.mp h with h | ⟨v, hv, h⟩
    · exact ⟨[], e, es, rfl, nofun, stops_of_eval h⟩
    · split at h
      · cases h
      · next notError =>
        have valid := Value.isError_eq_false notError
        rcases bind_error_iff.mp h with h | ⟨_ | vs, hvs, h⟩
        · obtain ⟨before, a, after, rfl, values, h⟩ := stops_of_evalArgs h
          exact ⟨e :: before, a, after, rfl, List.forall_mem_cons.mpr ⟨⟨v, hv, valid⟩, values⟩, h⟩
        · cases h
        · cases h

end

theorem eval_binary_of_yields {s : Scope} {left right : Expr} {op : BinaryOp} {v : Value}
    (h : left.Yields s v) :
    (Expr.binary left op right).eval s = right.eval s >>= v.apply s.rates op := by
  obtain ⟨hv, valid⟩ := h
  rw [Expr.eval, hv]
  cases v with
  | error p => cases valid
  | empty | amount => rfl

theorem evalArgs_cons_of_yields {s : Scope} {e : Expr} {es : List Expr} {v : Value}
    (h : e.Yields s v) :
    evalArgs s (e :: es) = (evalArgs s es).map fun vs => vs.map (v.asOperand :: ·) := by
  obtain ⟨hv, valid⟩ := h
  rw [evalArgs, hv]
  cases v with
  | error p => cases valid
  | empty | amount => rcases evalArgs s es with _ | _ | _ <;> rfl

theorem evalArgs_of_stop {s : Scope} {before after : List Expr} {e : Expr} {f : Fault}
    (values : ∀ a ∈ before, ∃ v, a.Yields s v) (h : e.eval s = .error f) :
    evalArgs s (before ++ e :: after) = .error f := by
  -- Each argument before the stop has a value, so the evaluation goes on to the next one.
  induction before with
  | nil =>
    rw [List.nil_append, evalArgs, h]
    rfl
  | cons a before ih =>
    obtain ⟨⟨v, hv⟩, values⟩ := List.forall_mem_cons.mp values
    rw [List.cons_append, evalArgs_cons_of_yields hv, ih values]
    rfl

theorem eval_of_stops {s : Scope} {e : Expr} {f : Fault} (h : e.Stops s f) :
    e.eval s = .error f := by
  induction h with
  | left _ ih =>
    rw [Expr.eval, ih]
    rfl
  | right hv _ ih =>
    rw [eval_binary_of_yields hv, ih]
    rfl
  | operator hv hw h =>
    rw [eval_binary_of_yields hv, hw.1]
    exact Value.apply_error_iff.mpr ⟨hv.2, hw.2, h⟩
  | @signed sign _ _ _ ih =>
    cases sign with
    | plus => rw [Expr.eval, ih]
    | minus => rw [Expr.eval, map_error_iff, ih]
  | percentOf _ ih | conversion _ ih => rw [Expr.eval, map_error_iff, ih]
  | group _ ih => rw [Expr.eval, ih]
  | argument values _ ih =>
    rw [Expr.eval, evalArgs_of_stop values ih]
    rfl
  | call hvs named h =>
    rw [Expr.eval, hvs]
    simp only [bind, Except.bind, named]
    exact Builtin.apply_error_iff.mpr h
  | operand _ ih =>
    rw [Expr.eval, ih]
    rfl
  | resumed valid hw h =>
    rw [Expr.eval, hw.1]
    exact Scope.resume_error_iff.mpr ⟨valid, hw.2, h⟩

/-- Evaluation ends in a fault exactly where it comes to an operation without a result. -/
theorem eval_stops_iff {s : Scope} {e : Expr} {f : Fault} :
    e.eval s = .error f ↔ e.Stops s f :=
  ⟨stops_of_eval, eval_of_stops⟩

/-! ## Statements -/

/-- A record as it was when it was made. -/
def LineRecord.unconsumed (r : LineRecord) : LineRecord := { r with consumed := false }

/-- One record comes to the history. Of the earlier ones at most the mark changes that they are
consumed. -/
def Session.Extends (s t : Session) (r : LineRecord) : Prop :=
  ∃ earlier, t.history = earlier ++ [r] ∧
    earlier.map LineRecord.unconsumed = s.history.map LineRecord.unconsumed

theorem consumeLatest?_unconsumed {rs rs' : List LineRecord} (h : consumeLatest? rs = some rs') :
    rs'.map LineRecord.unconsumed = rs.map LineRecord.unconsumed := by
  induction rs generalizing rs' with
  | nil => cases h
  | cons r rest ih =>
    rw [consumeLatest?] at h
    split at h
    · next rest' hrest =>
      cases h
      rw [List.map_cons, List.map_cons, ih hrest]
    · split at h <;> cases h
      rfl

theorem Session.consume_unconsumed (s : Session) :
    s.consume.history.map LineRecord.unconsumed = s.history.map LineRecord.unconsumed := by
  show ((consumeLatest? s.history).getD s.history).map _ = _
  cases h : consumeLatest? s.history with
  | none => rfl
  | some rs => exact consumeLatest?_unconsumed h

theorem Session.setVariable?_history {s : Session} {name : String} {v : Value} :
    ((s.setVariable? name v).getD s).history = s.history := by
  unfold setVariable?
  split <;> rfl

theorem Session.history_setPrevious (s : Session) (v : Value) :
    (s.setPrevious v).history = s.history := by
  unfold setPrevious
  split <;> rfl

theorem Session.runStatement_error_iff {s : Session} {rates : RateTable} {raw : String}
    {st : Statement} {f : Fault} :
    s.runStatement rates raw st = .error f ↔ st.Stops (s.scope rates) f := by
  constructor
  · intro h
    cases st with
    | empty | comment => cases h
    | assign name e =>
      simp only [runStatement] at h
      split at h
      · cases h
      · next free =>
        rcases bind_error_iff.mp h with h | ⟨v, _, h⟩
        · exact .assign (by simpa using free) (eval_stops_iff.mp h)
        · split at h <;> cases h
    | expr e =>
      simp only [runStatement] at h
      rcases bind_error_iff.mp h with h | ⟨v, _, h⟩
      · exact .expr (eval_stops_iff.mp h)
      · cases h
  · intro h
    cases h with
    | expr h =>
      rw [runStatement, eval_stops_iff.mpr h]
      rfl
    | assign free h =>
      rw [runStatement, if_neg (by simp [free]), eval_stops_iff.mpr h]
      rfl

/-- The session in which the record is made has the same lines. -/
theorem Session.runStatement_history {s t : Session} {rates : RateTable} {raw : String}
    {st : Statement} {r : LineRecord} (h : s.runStatement rates raw st = .ok (r, t)) :
    r.raw = raw ∧ t.history.map LineRecord.unconsumed = s.history.map LineRecord.unconsumed := by
  cases st with
  | empty | comment =>
    cases h
    exact ⟨rfl, rfl⟩
  | assign name e =>
    simp only [runStatement] at h
    split at h
    · cases h
      exact ⟨rfl, rfl⟩
    · obtain ⟨v, _, h⟩ := bind_ok_iff.mp h
      split at h <;> cases h
      · exact ⟨rfl, by rw [setVariable?_history]⟩
      · exact ⟨rfl, rfl⟩
  | expr e =>
    simp only [runStatement] at h
    obtain ⟨v, _, h⟩ := bind_ok_iff.mp h
    cases h
    refine ⟨rfl, ?_⟩
    split
    · exact s.consume_unconsumed
    · rfl

/-- Evaluation of a statement ends in a fault exactly where it comes to an operation without a
result. Every other statement has a value, be it a problem, and adds one record of it to the
history. -/
theorem statement_recorded_unless_stopped (s : Session) (rates : RateTable) (raw : String)
    (st : Statement) :
    (∀ f, s.evalStatement rates raw st = .error f ↔ st.Stops (s.scope rates) f) ∧
    ((∃ f, st.Stops (s.scope rates) f) ∨
      ∃ v t r, s.evalStatement rates raw st = .ok (v, t) ∧ s.Extends t r ∧
        r.raw = raw ∧ r.value = v) := by
  have stops : ∀ f, s.evalStatement rates raw st = .error f ↔ st.Stops (s.scope rates) f := by
    intro f
    rw [Session.evalStatement, map_error_iff, Session.runStatement_error_iff]
  refine ⟨stops, ?_⟩
  cases run : s.runStatement rates raw st with
  | error f => exact .inl ⟨f, Session.runStatement_error_iff.mp run⟩
  | ok done =>
    obtain ⟨r, t⟩ := done
    obtain ⟨text, earlier⟩ := Session.runStatement_history run
    refine .inr ⟨r.value, (t.record r).setPrevious r.value, r, ?_, ⟨t.history, ?_, earlier⟩, text,
      rfl⟩
    · rw [Session.evalStatement, run]
      rfl
    · rw [Session.history_setPrevious]
      rfl

/-! ## A remainder of infinity -/

/-- The remainder of a number beyond the doubles. -/
def exRemainder : Expr := .binary (.literal (1 / 0) .plain "1e400") .mod (.literal 3 .plain "3")

theorem parse_exRemainder :
    Line.parse "1e400 mod 3" = .ok (⟨.expr exRemainder, none, "1e400 mod 3"⟩, []) :=
  Parser.parse_of_walkLine (by decide +kernel)

/-- A well-formed line ends in a fault: the remainder of an infinite number. -/
theorem infinite_remainder_not_recorded :
    ∃ line, Line.parse "1e400 mod 3" = .ok (line, []) ∧
      ∀ rates, ({} : Session).evalStatement rates line.raw line.statement =
        .error .infiniteRemainder := by
  refine ⟨_, parse_exRemainder, fun rates => ?_⟩
  have literal : ∀ x raw, (Expr.literal x .plain raw).Yields (({} : Session).scope rates)
      (.number x) := by
    intro x raw
    exact ⟨by rw [Expr.eval]; rfl, rfl⟩
  have stops : exRemainder.Stops (({} : Session).scope rates) .infiniteRemainder :=
    .operator (literal _ _) (literal _ _) (.remainder (by decide +kernel) (by decide +kernel)
      (by decide +kernel))
  rw [Session.evalStatement, map_error_iff, Session.runStatement_error_iff]
  exact .expr stops

end LineCalc
