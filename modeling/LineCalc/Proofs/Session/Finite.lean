import LineCalc.Proofs.Entries
import LineCalc.Proofs.Evaluation.Finite
import LineCalc.Proofs.Session.Consumption

/-!
# Sessions with finite amounts

A session holds the previous result, the values of its lines and its variables. All of them are
finite as long as no line has had a value that leaks, that is, one without a check that is not
finite; and once such a line is there it stays in the history.

Results:
1. `Session.leaks_iff`: in a finite session the lines that leak are those whose value is not finite.
2. `held_finite_iff`: a session holds finite amounts exactly if none of its lines has leaked.
-/

namespace LineCalc

namespace Session

/-- The values that a session holds: the previous result, those of its lines and its variables. -/
def held (s : Session) : List Value :=
  s.previous :: (s.history.map (·.value) ++ s.bindings.map (·.2))

/-- All amounts that a session holds are finite. -/
def Finite (s : Session) : Prop := ∀ v ∈ s.held, v.isFinite = true

/-- The session after a line. A line that meets a fault leaves it as it was. -/
def after (s : Session) (rates : RateTable) (text : String) : Session :=
  match s.eval rates text with
  | .ok (_, t) => t
  | .error _ => s

/-- The session after some lines, each with the rates of its time. -/
def afterAll (s : Session) (lines : List (RateTable × String)) : Session :=
  lines.foldl (fun s line => s.after line.1 line.2) s

/-- A line has a value that leaks. -/
def Leaks (s : Session) (rates : RateTable) (text : String) : Prop :=
  ∃ line, Line.parse text = .ok (line, []) ∧ line.statement.Leaks (s.scope rates)

variable {s t : Session} {rates : RateTable} {text : String} {v : Value}

/-! ## One line -/

theorem Finite.binding (h : s.Finite) {e : String × Value} (mem : e ∈ s.bindings) :
    e.2.isFinite = true :=
  h _ (List.mem_cons_of_mem _ (List.mem_append_right _ (List.mem_map_of_mem mem)))

theorem Finite.find (h : s.Finite) {name : String} (found : s.find? name = some v)
    (notTotal : Text.lower name ≠ totalName) : v.isFinite = true := by
  unfold find? at found
  simp only [beq_false_of_ne notTotal, Bool.false_eq_true, if_false] at found
  split at found
  · split at found <;> cases found
    exact h _ List.mem_cons_self
  · cases exact : s.bindings.lookup name with
    | some w =>
      simp only [exact] at found
      cases found
      exact h.binding (e := (name, v)) (Entries.mem_of_lookup exact)
    | none =>
      simp only [exact] at found
      obtain ⟨e, first, rfl⟩ := Option.map_eq_some_iff.mp found
      exact h.binding (List.mem_of_find?_eq_some first)

theorem Finite.scope (h : s.Finite) (rates : RateTable) : (s.scope rates).Finite where
  find _ _ found notTotal := h.find found notTotal
  previous := h _ List.mem_cons_self

/-- What is not an amount is finite. -/
theorem valid_of_infinite (infinite : v.isFinite = false) : v.isValid = true := by
  cases v with
  | amount => rfl
  | empty => cases Value.isFinite_empty.symm.trans infinite
  | error p => cases (Value.isFinite_error p).symm.trans infinite

/-- In a finite session the lines that leak are those with a value that is not finite. -/
theorem leaks_iff (finite : s.Finite) :
    s.Leaks rates text ↔ ∃ v t, s.eval rates text = .ok (v, t) ∧ v.isFinite = false := by
  constructor
  · rintro ⟨line, parsed, leaks⟩
    rw [eval_of_parse parsed]
    cases statement : line.statement with
    | empty | comment =>
      rw [statement] at leaks
      cases leaks
    | expr e =>
      rw [statement] at leaks
      cases leaks with
      | expr leaks =>
        obtain ⟨v, value, infinite⟩ := leaks.eval
        exact ⟨v, _, by rw [evalStatement, runStatement, value]; rfl, infinite⟩
    | assign name e =>
      rw [statement] at leaks
      cases leaks with
      | assign free leaks =>
        obtain ⟨v, value, infinite⟩ := leaks.eval
        have run : s.runStatement rates text (.assign name e) =
            .ok ({ raw := text, value := v, assigned := some name },
              (s.setVariable? name v).getD s) := by
          simp only [runStatement, free, Bool.false_eq_true, if_false, value, bind, Except.bind,
            valid_of_infinite infinite, if_true]
          rfl
        exact ⟨v, _, by rw [evalStatement, run]; rfl, infinite⟩
  · rintro ⟨v, t, done, infinite⟩
    cases outcome_of_eval done with
    | @noted r _ invalid =>
      cases invalid.symm.trans (valid_of_infinite infinite)
    | result parsed statement value =>
      refine ⟨_, parsed, ?_⟩
      rw [statement]
      exact .expr (Expr.leaks_of_eval (finite.scope rates) value infinite)
    | assigned parsed statement free value =>
      refine ⟨_, parsed, ?_⟩
      rw [statement]
      exact .assign free (Expr.leaks_of_eval (finite.scope rates) value infinite)

theorem values_consume (s : Session) :
    s.consume.history.map (·.value) = s.history.map (·.value) := by
  unfold consume
  cases latest : consumeLatest? s.history with
  | none => rfl
  | some rs =>
    obtain ⟨before, r, after, eq, -, -, rfl⟩ := eq_of_consumeLatest? latest
    simp [eq]

/-- A line adds its value to the history, which keeps those before. -/
theorem Outcome.values (h : s.Outcome rates text v t) :
    t.history.map (·.value) = s.history.map (·.value) ++ [v] := by
  cases h with
  | noted => simp [record]
  | @result e =>
    cases e.isContinuation
    · simp [record]
    · simp [record, values_consume]
  | assigned => simp [record]

/-- A session holds nothing new after a line but the value of the line. -/
theorem Outcome.held (h : s.Outcome rates text v t) {w : Value} (mem : w ∈ t.held) :
    w ∈ s.held ∨ w = v := by
  have value : w = t.previous ∨ w ∈ t.history.map (·.value) ∨ w ∈ t.bindings.map (·.2) := by
    simpa [Session.held] using mem
  have earlier : w ∈ s.history.map (·.value) → w ∈ s.held := fun mem =>
    List.mem_cons_of_mem _ (List.mem_append_left _ mem)
  have bound : w ∈ s.bindings.map (·.2) → w ∈ s.held := fun mem =>
    List.mem_cons_of_mem _ (List.mem_append_right _ mem)
  rcases value with rfl | mem | mem
  · cases h with
    | noted => exact .inl List.mem_cons_self
    | result | assigned => exact .inr rfl
  · rw [h.values, List.mem_append, List.mem_singleton] at mem
    exact mem.imp_left earlier
  · cases h with
    | noted => exact .inl (bound mem)
    | @result e =>
      refine .inl (bound ?_)
      cases continues : e.isContinuation with
      | false => simpa [continues, record] using mem
      | true => simpa [continues, record, consume] using mem
    | @assigned name =>
      obtain ⟨e, entry, rfl⟩ := List.mem_map.mp mem
      rcases Entries.mem_set entry with old | rfl
      · exact .inl (bound (List.mem_map_of_mem old))
      · exact .inr rfl

theorem Finite.after (finite : s.Finite) (sound : ¬ s.Leaks rates text) :
    (s.after rates text).Finite := by
  unfold Session.after
  split
  · next v t done =>
    intro w mem
    rcases (outcome_of_eval done).held mem with mem | rfl
    · exact finite w mem
    · by_contra infinite
      exact sound ((leaks_iff finite).mpr ⟨_, _, done, Bool.eq_false_iff.mpr infinite⟩)
  · exact finite

/-! ## All lines -/

/-- No value leaves the history. -/
theorem values_after (s : Session) (rates : RateTable) (text : String) :
    s.history.map (·.value) <+: (s.after rates text).history.map (·.value) := by
  unfold after
  split
  · next v t done => exact ⟨[v], (outcome_of_eval done).values.symm⟩
  · exact List.prefix_rfl

theorem values_afterAll (s : Session) (lines : List (RateTable × String)) :
    s.history.map (·.value) <+: (s.afterAll lines).history.map (·.value) := by
  induction lines generalizing s with
  | nil => exact List.prefix_rfl
  | cons line rest ih => exact (s.values_after line.1 line.2).trans (ih _)

/-- A line that has leaked shows in the history for ever. -/
theorem not_finite_of_leaks (finite : s.Finite) (leaks : s.Leaks rates text)
    (rest : List (RateTable × String)) : ¬ ((s.after rates text).afterAll rest).Finite := by
  obtain ⟨v, t, done, infinite⟩ := (leaks_iff finite).mp leaks
  have after : s.after rates text = t := by rw [Session.after, done]
  have value : v ∈ t.history.map (·.value) := by simp [(outcome_of_eval done).values]
  intro all
  have kept : v ∈ (t.afterAll rest).history.map (·.value) := (values_afterAll t rest).subset value
  rw [after] at all
  cases (all v (List.mem_cons_of_mem _ (List.mem_append_left _ kept))).symm.trans infinite

/-- Lines keep a session finite exactly if none of them leaks in the session that it finds. -/
theorem finite_afterAll_iff (finite : s.Finite) (lines : List (RateTable × String)) :
    (s.afterAll lines).Finite ↔ ∀ before rates text rest,
      lines = before ++ (rates, text) :: rest → ¬ (s.afterAll before).Leaks rates text := by
  induction lines generalizing s with
  | nil => simpa [afterAll] using finite
  | cons line more ih =>
    obtain ⟨rates, text⟩ := line
    constructor
    · intro all before rates' text' rest eq
      have sound : ¬ s.Leaks rates text := fun leaks => not_finite_of_leaks finite leaks more all
      cases before with
      | nil =>
        cases eq
        exact sound
      | cons line before =>
        obtain ⟨rfl, others⟩ := List.cons.inj eq
        exact (ih (finite.after sound)).mp all before rates' text' rest others
    · intro sound
      refine (ih (finite.after (sound [] rates text more rfl))).mpr ?_
      intro before rates' text' rest eq
      exact sound ((rates, text) :: before) rates' text' rest (eq ▸ rfl)

end Session

/-- What a session holds that has come about by lines alone, each with the rates of its time, is
finite exactly if none of the lines has leaked. -/
theorem held_finite_iff (precision : Precision) (strict : Bool)
    (lines : List (RateTable × String)) :
    let s : Session := { precision, strict }
    (∀ v ∈ (s.afterAll lines).held, v.isFinite = true) ↔ ∀ before rates text rest,
      lines = before ++ (rates, text) :: rest → ¬ (s.afterAll before).Leaks rates text := by
  intro s
  have finite : s.Finite := by
    intro v mem
    cases List.mem_singleton.mp mem
    exact Value.isFinite_empty
  exact Session.finite_afterAll_iff finite lines

/-! ### Beyond the greatest double -/

/-- A number of kilometers. -/
def exFar : Expr := .literal 1e308 (.unit .kilometer) "1e308 km"

theorem parse_exFar : Line.parse "1e308 km in mm" =
    .ok (⟨.expr (.conversion exFar "mm"), none, "1e308 km in mm"⟩, []) :=
  Parser.parse_of_walkLine (by decide +kernel)

theorem parse_exHuge :
    Line.parse "1e400" = .ok (⟨.expr (.literal (1 / 0) .plain "1e400"), none, "1e400"⟩, []) :=
  Parser.parse_of_walkLine (by decide +kernel)

/-- A new session after one line with an amount. -/
def exHeld (text : String) (v : Value) : Session where
  previous := v
  history := [{ raw := text, value := v }]

theorem eval_exHeld {rates : RateTable} {text : String} {e : Expr} {line : Line} {v : Value}
    (parsed : Line.parse text = .ok (line, [])) (statement : line.statement = .expr e)
    (fresh : e.isContinuation = false) (value : e.eval (({} : Session).scope rates) = .ok v)
    (valid : v.isValid = true) : ({} : Session).eval rates text = .ok (v, exHeld text v) := by
  rw [Session.eval_of_expr parsed statement value, fresh, Session.setPrevious_of_valid valid]
  rfl

/-- A conversion and a literal beyond the greatest double have no problem for a value: the session
goes on with an infinite amount. -/
theorem infinite_amounts_held :
    let far : Value := .amount (1 / 0) (.unit .millimeter)
    let huge : Value := .number (1 / 0)
    (({} : Session).eval [] "1e308 km in mm" = .ok (far, exHeld "1e308 km in mm" far) ∧
      ({} : Session).eval [] "1e400" = .ok (huge, exHeld "1e400" huge)) ∧
    far.isFinite = false ∧ huge.isFinite = false := by
  intro far huge
  have conversion : (Expr.conversion exFar "mm").eval (({} : Session).scope []) = .ok far :=
    eq_ok_of_toOption (by decide +kernel)
  have literal : (Expr.literal (1 / 0) .plain "1e400").eval (({} : Session).scope []) = .ok huge :=
    eq_ok_of_toOption (by decide +kernel)
  have infinite : (1 / 0 : Float).isFinite = false := by decide +kernel
  exact ⟨⟨eval_exHeld parse_exFar rfl rfl conversion rfl,
    eval_exHeld parse_exHuge rfl rfl literal rfl⟩, infinite, infinite⟩

end LineCalc
