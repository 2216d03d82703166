import LineCalc.Proofs.Session.Effect
import LineCalc.Proofs.Session.Operations
import LineCalc.Proofs.Session.Rendering

/-!
# Reading variables back

A variable is set and removed under exactly its name, but it is found under every name that differs
from it in case only, if no variable has exactly that name. Of several such variables the one that
has been there longest is found: setting a variable that is there keeps its place, and one that is
removed and set again comes last.

Results:
1. `VariableLog.Explains.change`: what variables there are, with which values and in which order,
   follows from the changes.
2. `Session.find?_eq_some_iff`: which variable a name finds.
3. `variables_read_back`: a variable keeps its value as long as no operation is one on its name, and
   a line with nothing but the name reads it.
-/

namespace LineCalc

/-! ## Changes -/

/-- A change of the variables. -/
inductive VariableChange
  | set (name : String) (v : Value)
  | remove (name : String)
  | wipe

/-- The variables after a change. -/
def VariableChange.apply (bindings : Entries String Value) : VariableChange → Entries String Value
  | .set name v => bindings.set name v
  | .remove name => bindings.filter (·.1 != name)
  | .wipe => []

/-- The change sets or removes the variable of exactly this name. -/
def VariableChange.concerns (name : String) : VariableChange → Bool
  | .set key _ | .remove key => key == name
  | .wipe => true

theorem VariableChange.lookup_apply {name : String} {c : VariableChange}
    (other : c.concerns name = false) (bindings : Entries String Value) :
    (c.apply bindings).lookup name = bindings.lookup name := by
  cases c with
  | set key v =>
    have ne : key ≠ name := by simpa [concerns] using other
    exact Entries.lookup_set_of_ne bindings ne.symm v
  | remove key =>
    have ne : key ≠ name := by simpa [concerns] using other
    rw [apply, Entries.lookup_remove, if_neg ne.symm]
  | wipe => cases other

/-- Changes of the variables, the latest first. -/
abbrev VariableLog := List VariableChange

namespace VariableLog

/-- The value of a variable after changes, if it is there. -/
def value? (name : String) : VariableLog → Option Value
  | [] => none
  | .set key v :: earlier => if key = name then some v else value? name earlier
  | .remove key :: earlier => if key = name then none else value? name earlier
  | .wipe :: _ => none

/-- How many changes there were before the variable came in. To be set again while it is there is
not to come in. -/
def since (name : String) : VariableLog → Nat
  | [] => 0
  | .set key _ :: earlier =>
    if key = name ∧ value? name earlier = none then earlier.length else since name earlier
  | .remove _ :: earlier | .wipe :: earlier => since name earlier

/-- The name of the variable differs from the given one in case at most, and of the variables of
which that can be said none came in earlier. -/
structure Foremost (log : VariableLog) (name key : String) : Prop where
  same : Text.lower key = Text.lower name
  earliest : ∀ other, Text.lower other = Text.lower name → log.value? other ≠ none →
    log.since key ≤ log.since other

end VariableLog

namespace Session

/-- The change that an operation makes to the variables, if it makes one. -/
def change? (s : Session) (rates : RateTable) : Operation → Option VariableChange
  | .eval text => do
    let (line, _) ← (Line.parse text).toOption
    let (v, _) ← (s.eval rates text).toOption
    let name ← line.statement.assigned?
    if v.isValid then some (.set name v) else none
  | .setVariable name v => (s.setVariable? name v).map fun _ => .set name v
  | .deleteVariable name => (s.deleteVariable? name).map fun _ => .remove name
  | .clear | .clearVariables => some .wipe
  | .preview _ | .setPrecision _ | .setStrict _ | .clearLines | .clone => none

/-- The changes that operations make to the variables. -/
def variableLog (s : Session) : Operations → VariableLog
  | [] => []
  | op :: rest => (s.perform op.1 op.2).2.variableLog rest ++ (s.change? op.1 op.2).toList

end Session

/-! ## Values and order -/

namespace VariableLog

variable {log : VariableLog} {bindings : Entries String Value} {name key : String} {v : Value}

/-- The variables are those that the changes leave, in the order in which they came in. -/
structure Explains (log : VariableLog) (bindings : Entries String Value) : Prop where
  value : ∀ name, bindings.lookup name = log.value? name
  order : (bindings.map (·.1)).Pairwise fun a b => log.since a < log.since b
  bound : ∀ key ∈ bindings.map (·.1), log.since key < log.length

theorem explains_nil : Explains [] [] where
  value _ := rfl
  order := .nil
  bound := List.forall_mem_nil _

theorem Explains.distinct (h : log.Explains bindings) : bindings.Distinct :=
  h.order.imp fun {a b} lt (eq : a = b) => lt.ne (congrArg (log.since ·) eq)

theorem Explains.mem_iff (h : log.Explains bindings) :
    (key, v) ∈ bindings ↔ log.value? key = some v := by
  rw [h.distinct.mem_iff_lookup, h.value]

theorem Explains.mem_keys_iff (h : log.Explains bindings) :
    key ∈ bindings.map (·.1) ↔ log.value? key ≠ none := by
  rw [List.mem_map, Option.ne_none_iff_exists']
  constructor
  · rintro ⟨⟨k, v⟩, mem, rfl⟩
    exact ⟨v, h.mem_iff.mp mem⟩
  · rintro ⟨v, value⟩
    exact ⟨(key, v), h.mem_iff.mpr value, rfl⟩

theorem since_set_of_known (known : log.value? name ≠ none) (v : Value) (key : String) :
    since key (.set name v :: log) = log.since key := by
  rw [since, if_neg]
  rintro ⟨rfl, missing⟩
  exact known missing

theorem since_set_of_ne (ne : name ≠ key) (v : Value) :
    since key (.set name v :: log) = log.since key := by
  rw [since, if_neg fun h => ne h.1]

theorem since_set_of_new (new : log.value? name = none) (v : Value) :
    since name (.set name v :: log) = log.length := by
  rw [since, if_pos ⟨rfl, new⟩]

theorem Explains.set (h : log.Explains bindings) (name : String) (v : Value) :
    Explains (.set name v :: log) (bindings.set name v) := by
  have value (other : String) : (bindings.set name v).lookup other =
      value? other (.set name v :: log) := by
    rw [value?]
    split
    · next same => rw [← same, Entries.lookup_set_self]
    · next other => rw [Entries.lookup_set_of_ne bindings (Ne.symm other), h.value]
  by_cases known : log.value? name = none
  · have new : name ∉ bindings.map (·.1) := fun mem => h.mem_keys_iff.mp mem known
    have keys : (bindings.set name v).map (·.1) = bindings.map (·.1) ++ [name] := by
      rw [Entries.set_of_new bindings new, List.map_append, List.map_singleton]
    have old (key) (mem : key ∈ bindings.map (·.1)) :
        since key (.set name v :: log) = log.since key :=
      since_set_of_ne (fun (same : name = key) => new (same ▸ mem)) v
    refine ⟨value, ?_, ?_⟩
    · rw [keys, List.pairwise_append]
      refine ⟨h.order.imp_of_mem fun a b lt => ?_, List.pairwise_singleton _ _,
        fun key mem last mem' => ?_⟩
      · rwa [old _ a, old _ b]
      · rw [List.mem_singleton.mp mem', old key mem, since_set_of_new known]
        exact h.bound key mem
    · rw [keys]
      intro key mem
      rcases List.mem_append.mp mem with mem | mem
      · exact old key mem ▸ Nat.lt_succ_of_lt (h.bound key mem)
      · rw [List.mem_singleton.mp mem, since_set_of_new known]
        exact Nat.lt_succ_self _
  · have keys := Entries.keys_set_of_mem (h.mem_keys_iff.mpr known) v
    refine ⟨value, ?_, ?_⟩
    · simpa only [keys, since_set_of_known known] using h.order
    · rw [keys]
      intro key mem
      rw [since_set_of_known known]
      exact Nat.lt_succ_of_lt (h.bound key mem)

theorem Explains.remove (h : log.Explains bindings) (name : String) :
    Explains (.remove name :: log) (bindings.filter (·.1 != name)) := by
  have sub : ((bindings.filter (·.1 != name)).map (·.1)).Sublist (bindings.map (·.1)) :=
    List.filter_sublist.map _
  refine ⟨fun other => ?_, h.order.sublist sub, fun key mem => ?_⟩
  · rw [Entries.lookup_remove, value?, h.value]
    simp only [eq_comm]
  · exact Nat.lt_succ_of_lt (h.bound key (sub.subset mem))

theorem Explains.change (h : log.Explains bindings) (c : VariableChange) :
    Explains (c :: log) (c.apply bindings) := by
  cases c with
  | set name v => exact h.set name v
  | remove name => exact h.remove name
  | wipe =>
    exact ⟨fun _ => rfl, .nil, List.forall_mem_nil _⟩

/-- What is in the list before a variable came in before it. -/
theorem Explains.since_lt {before after : Entries String Value} {b other : String × Value}
    (h : log.Explains (before ++ b :: after)) (mem : other ∈ after) :
    log.since b.1 < log.since other.1 := by
  have order := h.order
  rw [List.map_append, List.map_cons, List.pairwise_append, List.pairwise_cons] at order
  exact order.2.1.1 other.1 (List.mem_map_of_mem mem)

/-- The first variable with the name in some case is the one that came in first. -/
theorem Explains.find?_eq_some_iff (h : log.Explains bindings) :
    bindings.find? (fun b => Text.lower b.1 == Text.lower name) = some (key, v) ↔
      log.value? key = some v ∧ log.Foremost name key := by
  constructor
  · intro found
    obtain ⟨same, before, after, rfl, others⟩ := List.find?_eq_some_iff_append.mp found
    refine ⟨h.mem_iff.mp (by simp), beq_iff_eq.mp same, fun other same' there => ?_⟩
    obtain ⟨v', value⟩ := Option.ne_none_iff_exists'.mp there
    rcases List.mem_append.mp (h.mem_iff.mpr value) with mem | mem
    · simpa [same'] using others _ mem
    · rcases List.mem_cons.mp mem with eq | mem
      · rw [(Prod.mk.inj eq).1]
      · exact (h.since_lt mem).le
  · rintro ⟨value, same, earliest⟩
    have mem := h.mem_iff.mpr value
    cases found : bindings.find? fun b => Text.lower b.1 == Text.lower name with
    | none =>
      have missed := List.find?_eq_none.mp found _ mem
      simp [same] at missed
    | some b =>
      obtain ⟨same', before, after, rfl, others⟩ := List.find?_eq_some_iff_append.mp found
      rcases List.mem_append.mp mem with mem | mem
      · simpa [same] using others _ mem
      · rcases List.mem_cons.mp mem with eq | mem
        · rw [eq]
        · -- What came in later is not the earliest.
          have there : log.value? b.1 ≠ none := h.mem_keys_iff.mp (by simp)
          have le := earliest b.1 (beq_iff_eq.mp same') there
          exact absurd (h.since_lt mem) (Nat.not_lt.mpr le)

end VariableLog

namespace Session

variable {s t : Session} {rates : RateTable} {text name : String} {v : Value}

/-! ## Operations -/

theorem bindings_perform (s : Session) (rates : RateTable) (op : Operation) :
    (s.perform rates op).2.bindings =
      ((s.change? rates op).toList).foldl VariableChange.apply s.bindings := by
  cases op with
  | eval text =>
    cases done : s.eval rates text with
    | error f =>
      have unchanged : s.change? rates (.eval text) = none := by
        simp [change?, done, Except.toOption]
      rw [unchanged, perform, done]
      rfl
    | ok result =>
      obtain ⟨v, t⟩ := result
      have performed : (s.perform rates (.eval text)).2 = t := by rw [perform, done]
      rw [performed]
      cases outcome_of_eval done with
      | noted _ invalid =>
        have unchanged : s.change? rates (.eval text) = none := by
          simp [change?, done, invalid, Except.toOption]
        rw [unchanged]
        rfl
      | @result e line v parsed statement =>
        have unchanged : s.change? rates (.eval text) = none := by
          simp [change?, parsed, statement, done, Except.toOption, Statement.assigned?]
        rw [unchanged]
        cases e.isContinuation <;> rfl
      | @assigned name e line v parsed statement _ _ valid =>
        have changed : s.change? rates (.eval text) = some (.set name v) := by
          simp [change?, parsed, statement, done, valid, Except.toOption, Statement.assigned?]
        rw [changed]
        rfl
  | setVariable name v =>
    rw [perform, change?, setVariable?]
    split <;> rfl
  | deleteVariable name =>
    rw [perform, change?, deleteVariable?]
    split <;> rfl
  | setPrecision given =>
    rw [perform, change?, setPrecision]
    cases Precision.ofJson given <;> rfl
  | _ => rfl

theorem performAll_cons (s : Session) (op : RateTable × Operation) (rest : Operations) :
    s.performAll (op :: rest) = (s.perform op.1 op.2).2.performAll rest := rfl

/-- What the changes explain before operations, they explain after them. -/
theorem explains_performAll {log : VariableLog} (h : log.Explains s.bindings) (ops : Operations) :
    (s.variableLog ops ++ log).Explains (s.performAll ops).bindings := by
  induction ops generalizing s log with
  | nil => exact h
  | cons op rest ih =>
    rw [performAll_cons, variableLog, List.append_assoc]
    refine ih ?_
    rw [bindings_perform]
    cases s.change? op.1 op.2 with
    | none => exact h
    | some c => exact h.change c

/-- A variable keeps its value as long as no operation is one on it. -/
theorem lookup_performAll {ops : Operations}
    (others : ∀ c ∈ s.variableLog ops, c.concerns name = false) :
    (s.performAll ops).bindings.lookup name = s.bindings.lookup name := by
  induction ops generalizing s with
  | nil => rfl
  | cons op rest ih =>
    rw [variableLog] at others
    rw [performAll_cons, ih fun c mem => others c (List.mem_append_left _ mem), bindings_perform]
    cases change : s.change? op.1 op.2 with
    | none => rfl
    | some c =>
      have other := others c (by simp [change])
      exact VariableChange.lookup_apply other s.bindings

/-! ## Names -/

theorem isReservedName_eq_false (free : isReservedName name = false) :
    previousNames.contains (Text.lower name) = false ∧ (Text.lower name == totalName) = false := by
  simpa [isReservedName] using free

/-- Under a name that is not reserved the variable of exactly this name is found, and without one
the first of those whose names differ in case only. -/
theorem find?_of_free (free : isReservedName name = false) : s.find? name =
    (s.bindings.lookup name <|>
      (s.bindings.find? fun b => Text.lower b.1 == Text.lower name).map (·.2)) := by
  obtain ⟨noPrevious, noTotal⟩ := isReservedName_eq_false free
  simp only [find?, noPrevious, noTotal, Bool.false_eq_true, if_false]

/-- A line with nothing but a name that is not reserved reads the variable. -/
theorem eval_name (word : Token.IsWord name.toList) (free : isReservedName name = false)
    (found : s.find? name = some v) (rates : RateTable) :
    s.eval rates name = .ok (v, (s.record { raw := name, value := v }).setPrevious v) := by
  have isName : IsName name := by
    obtain ⟨noPrevious, -⟩ := isReservedName_eq_false free
    refine ⟨word, if_neg fun previous => ?_⟩
    simp_all [previousNames, Parser.previousName]
  have written := written_name isName
  obtain ⟨shapes, spelled⟩ := spelledLine_expr (.name isName)
    (by simpa using written.startsVisible []) written.leading.toWhole
  obtain ⟨again, parsed, means⟩ := parse_of_spelled spelled (.inl rfl)
  rw [List.append_nil, String.ofList_toList] at parsed
  have value : (Expr.name name).eval (s.scope rates) = .ok v := by
    rw [Expr.eval, Scope.resolve]
    simp only [scope, found]
  calc s.eval rates name = s.evalStatement rates name again.statement := eval_of_parse parsed
    _ = s.evalStatement rates name (.expr (.name name)) := by
        rw [evalStatement, means.run, ← evalStatement]
    _ = .ok (v, (s.record { raw := name, value := v }).setPrevious v) := by
        rw [evalStatement, runStatement, value]
        rfl

/-- A line that assigns an amount sets the variable of a name that is a word and not reserved. -/
theorem bound_of_assign {line : Line} {e : Expr} (parsed : Line.parse text = .ok (line, []))
    (statement : line.statement = .assign name e) (done : s.eval rates text = .ok (v, t))
    (valid : v.isValid = true) :
    Token.IsWord name.toList ∧ isReservedName name = false ∧ t.bindings.lookup name = some v := by
  have word : Token.IsWord name.toList := by
    cases line_of_parse parsed with
    | empty | comment => cases statement
    | statement made =>
      obtain rfl := statement
      cases made with
      | assign word => exact word
  refine ⟨word, ?_⟩
  cases outcome_of_eval done with
  | noted _ invalid => simp [invalid] at valid
  | result parsed' statement' =>
    obtain ⟨rfl, -⟩ := Prod.mk.inj (Except.ok.inj (parsed.symm.trans parsed'))
    cases statement.symm.trans statement'
  | assigned parsed' statement' free =>
    obtain ⟨rfl, -⟩ := Prod.mk.inj (Except.ok.inj (parsed.symm.trans parsed'))
    cases statement.symm.trans statement'
    exact ⟨free, Entries.lookup_set_self s.bindings _ _⟩

end Session

/-! ## Reading back -/

/-- Once a line has set a variable to an amount, a line with nothing but its name has this amount,
whatever operations come in between, as long as none of them sets or removes the variable of exactly
this name. And in every session that operations on a new one lead to, a name that is not reserved
finds the variable of exactly this name, or else the one that came in first of those whose names
differ in case only, and if there is none, nothing. -/
theorem variables_read_back :
    (∀ {s t : Session} {rates : RateTable} {text name : String} {line : Line} {e : Expr} {v : Value}
      {ops : Session.Operations}, Line.parse text = .ok (line, []) →
      line.statement = .assign name e → s.eval rates text = .ok (v, t) → v.isValid = true →
      (∀ c ∈ t.variableLog ops, c.concerns name = false) →
      ∀ rates' : RateTable, ∃ u, (t.performAll ops).eval rates' name = .ok (v, u)) ∧
    ∀ (ops : Session.Operations) (name : String), isReservedName name = false →
      let s := ({} : Session).performAll ops
      let log := ({} : Session).variableLog ops
      (∀ v, log.value? name = some v → s.find? name = some v) ∧
      (log.value? name = none →
        (∀ v, s.find? name = some v ↔ ∃ key, log.value? key = some v ∧ log.Foremost name key) ∧
        (s.find? name = none ↔
          ∀ key, Text.lower key = Text.lower name → log.value? key = none)) := by
  refine ⟨fun {s t rates text name line e v ops} parsed statement done valid others rates' => ?_,
    fun ops name free => ?_⟩
  · obtain ⟨word, free, bound⟩ := Session.bound_of_assign parsed statement done valid
    have found : (t.performAll ops).find? name = some v := by
      rw [Session.find?_of_free free, Session.lookup_performAll others, bound]
      rfl
    exact ⟨_, Session.eval_name word free found rates'⟩
  · intro s log
    have explains : log.Explains s.bindings := by
      simpa [log] using Session.explains_performAll (s := {}) VariableLog.explains_nil ops
    have opened := Session.find?_of_free (s := s) free
    rw [explains.value] at opened
    refine ⟨fun v value => by rw [opened, value]; rfl, fun missing => ?_⟩
    have opened : s.find? name =
        (s.bindings.find? fun b => Text.lower b.1 == Text.lower name).map (·.2) := by
      rw [opened, missing]
      rfl
    rw [opened]
    refine ⟨fun v => ?_, ?_⟩
    · simp only [Option.map_eq_some_iff, Prod.exists, explains.find?_eq_some_iff]
      exact ⟨fun ⟨key, u, found, eq⟩ => ⟨key, eq ▸ found⟩, fun ⟨key, found⟩ => ⟨key, v, found, rfl⟩⟩
    · rw [Option.map_eq_none_iff, List.find?_eq_none]
      constructor
      · intro none key same
        by_contra there
        obtain ⟨v, value⟩ := Option.ne_none_iff_exists'.mp there
        exact none (key, v) (explains.mem_iff.mpr value) (beq_iff_eq.mpr same)
      · rintro none ⟨key, v⟩ mem same
        have value := explains.mem_iff.mp mem
        rw [none key (beq_iff_eq.mp same)] at value
        cases value

/-! ### Two variables whose names differ in case -/

/-- The session after the line `a = 2`. -/
def exAssigned : Session where
  bindings := [("a", .number 2)]
  previous := .number 2
  history := [{ raw := "a = 2", value := .number 2, assigned := some "a" }]

theorem parse_exAssigned : Line.parse "a = 2" =
    .ok (⟨.assign "a" (.literal 2 .plain "2"), none, "a = 2"⟩, []) :=
  Parser.parse_of_walkLine (by decide +kernel)

theorem eval_exAssigned : ({} : Session).eval [] "a = 2" = .ok (.number 2, exAssigned) := by
  have free : isReservedName "a" = false := by decide +kernel
  rw [Session.eval_of_parse parse_exAssigned]
  simp only [Session.evalStatement, Session.runStatement, free]
  rfl

/-- `Rate` is set before `rate`, but is removed and set again after it. -/
def exChanges : Session.Operations :=
  [([], .setVariable "Rate" (.number 1)), ([], .setVariable "rate" (.number 2)),
    ([], .deleteVariable "Rate"), ([], .setVariable "Rate" (.number 3))]

theorem variableLog_exChanges : ({} : Session).variableLog exChanges = [.set "Rate" (.number 3),
    .remove "Rate", .set "rate" (.number 2), .set "Rate" (.number 1)] := by
  have free : isReservedName "Rate" = false ∧ isReservedName "rate" = false := by decide +kernel
  simp [exChanges, Session.variableLog, Session.change?, Session.perform, Session.setVariable?,
    Session.deleteVariable?, Entries.set, free, Value.number, Value.isError]

/-- The variable `a` is read back after a continuation, and after `A` was set. Under `RATE` the
variable `rate` is found, which came in before `Rate` came in again. -/
theorem variables_read_back_exCase :
    (∃ u, (exAssigned.performAll
      [([], .eval "+ 3"), ([], .setVariable "A" (.number 3))]).eval [] "a" = .ok (.number 2, u)) ∧
    (({} : Session).performAll exChanges).find? "RATE" = some (.number 2) := by
  obtain ⟨reads, finds⟩ := variables_read_back
  constructor
  · refine reads parse_exAssigned rfl eval_exAssigned rfl ?_ []
    have noChange : exAssigned.change? [] (.eval "+ 3") = none := by
      simp [Session.change?, parse_exContinuation, Except.toOption, Statement.assigned?]
    intro c mem
    simp only [Session.variableLog, noChange, List.nil_append, Option.toList_none, List.append_nil,
      Option.mem_toList] at mem
    rw [Session.change?] at mem
    obtain ⟨_, -, rfl⟩ := Option.map_eq_some_iff.mp mem
    decide
  · obtain ⟨-, folded⟩ := finds exChanges "RATE" (by decide +kernel)
    rw [variableLog_exChanges] at folded
    refine ((folded (by simp [VariableLog.value?])).1 _).mpr
      ⟨"rate", by simp [VariableLog.value?], by decide +kernel, fun other _ there => ?_⟩
    have name : other = "Rate" ∨ other = "rate" := by
      by_contra none
      obtain ⟨first, second⟩ := not_or.mp none
      simp [VariableLog.value?, Ne.symm first, Ne.symm second] at there
    rcases name with rfl | rfl <;> simp [VariableLog.since, VariableLog.value?]

end LineCalc
