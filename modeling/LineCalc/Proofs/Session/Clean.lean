import LineCalc.Proofs.Session.Reachable

/-!
# Lines that came to a problem

What later lines come to does not depend on the lines that came to a problem: without them a session
has the same names, the same previous result and the same total, and a continuation takes up the
same line.

Results:
1. `Session.eval_clean`: a line comes to the same with these lines and without them.
2. `Session.Alike.eval`: sessions that differ in such lines only stay so.
-/

namespace LineCalc

/-! ## Histories -/

theorem isError_of_isValid {v : Value} (valid : v.isValid = true) : v.isError = false := by
  cases v with
  | amount => rfl
  | empty | error => cases valid

theorem not_isError_of_isValid (v : Value) (valid : v.isValid = true) : (!v.isError) = true := by
  rw [isError_of_isValid valid]
  rfl

section

variable {keep : Value → Bool} (amounts : ∀ v, v.isValid = true → keep v = true)
include amounts

theorem filter_counts_filter (rs : List LineRecord) :
    (rs.filter (keep ·.value)).filter (·.counts) = rs.filter (·.counts) := by
  rw [List.filter_filter]
  refine List.filter_congr fun r _ => ?_
  cases valid : r.value.isValid with
  | true => simp [amounts r.value valid]
  | false => simp [LineRecord.counts, valid]

/-- Among some of the lines, all those with an amount included, a continuation takes up the same
line. -/
theorem consumeLatest?_filter (rs : List LineRecord) :
    consumeLatest? (rs.filter (keep ·.value)) =
      (consumeLatest? rs).map (List.filter (keep ·.value)) := by
  induction rs with
  | nil => rfl
  | cons r rest ih =>
    rw [consumeLatest?]
    cases h : keep r.value with
    | false =>
      have invalid : r.value.isValid = false := by
        cases valid : r.value.isValid with
        | false => rfl
        | true => rw [amounts r.value valid] at h; cases h
      rw [List.filter_cons_of_neg (by simp [h]), ih]
      cases consumeLatest? rest with
      | none => simp [invalid]
      | some later => simp [h]
    | true =>
      rw [List.filter_cons_of_pos (by simp [h]), consumeLatest?, ih]
      cases consumeLatest? rest with
      | none => cases valid : r.value.isValid <;> simp [h]
      | some later => simp [h]

end

/-- The lines that came to no problem. -/
def cleanLines (rs : List LineRecord) : List LineRecord := rs.filter (!·.value.isError)

theorem filter_counts_cleanLines (rs : List LineRecord) :
    (cleanLines rs).filter (·.counts) = rs.filter (·.counts) :=
  filter_counts_filter not_isError_of_isValid rs

theorem cleanLines_append_singleton (rs : List LineRecord) (r : LineRecord) :
    cleanLines (rs ++ [r]) = if r.value.isError then cleanLines rs else cleanLines rs ++ [r] := by
  rw [cleanLines, List.filter_append]
  cases h : r.value.isError <;> simp [cleanLines, h]

/-- The line that a continuation takes up came to no problem. -/
theorem consumeLatest?_cleanLines (rs : List LineRecord) :
    consumeLatest? (cleanLines rs) = (consumeLatest? rs).map cleanLines :=
  consumeLatest?_filter not_isError_of_isValid rs

namespace Session

variable {rates : RateTable} {s t s' t' : Session} {text : String} {v : Value}

/-! ## Clean sessions -/

/-- The session without the lines that came to a problem. -/
def clean (s : Session) : Session := { s with history := cleanLines s.history }

theorem total_clean (s : Session) : s.clean.total = s.total := by
  rw [total, total, clean, filter_counts_cleanLines]

theorem find?_clean (s : Session) (name : String) : s.clean.find? name = s.find? name := by
  unfold find?
  rw [total_clean]
  rfl

theorem scope_clean (s : Session) (rates : RateTable) : s.clean.scope rates = s.scope rates := by
  rw [scope, scope, funext s.find?_clean]
  rfl

theorem clean_record (s : Session) (r : LineRecord) :
    (s.record r).clean = if r.value.isError then s.clean else s.clean.record r := by
  unfold clean record
  rw [cleanLines_append_singleton]
  split <;> rfl

theorem clean_clean (s : Session) : s.clean.clean = s.clean := by
  simp [clean, cleanLines]

theorem clean_setPrevious (s : Session) (v : Value) :
    (s.setPrevious v).clean = s.clean.setPrevious v := by
  unfold setPrevious
  split <;> rfl

theorem consume_clean (s : Session) : s.clean.consume = s.consume.clean := by
  unfold consume clean
  rw [consumeLatest?_cleanLines]
  cases consumeLatest? s.history <;> rfl

theorem setVariable?_clean (s : Session) (name : String) (v : Value) :
    (s.clean.setVariable? name v).getD s.clean = ((s.setVariable? name v).getD s).clean := by
  unfold setVariable?
  split <;> rfl

/-! ## Evaluation -/

/-- A statement comes to the same without the lines that came to a problem. -/
theorem runStatement_clean (s : Session) (rates : RateTable) (raw : String) (st : Statement) :
    s.clean.runStatement rates raw st =
      (s.runStatement rates raw st).map fun (r, t) => (r, t.clean) := by
  cases st with
  | empty | comment => rfl
  | assign name e =>
    rw [runStatement, runStatement, scope_clean]
    split
    · rfl
    · cases e.eval (s.scope rates) with
      | error f => rfl
      | ok v =>
        simp only [bind, Except.bind]
        split
        · rw [setVariable?_clean]
          rfl
        · rfl
  | expr e =>
    rw [runStatement, runStatement, scope_clean]
    cases e.eval (s.scope rates) with
    | error f => rfl
    | ok v =>
      have settled : (if e.isContinuation && v.isValid then s.clean.consume else s.clean) =
          (if e.isContinuation && v.isValid then s.consume else s).clean := by
        rw [consume_clean]
        split <;> rfl
      simp only [bind, Except.bind, settled]
      rfl

theorem clean_record_congr (same : s.clean = t.clean) (r : LineRecord) :
    (s.record r).clean = (t.record r).clean := by
  rw [clean_record, clean_record, same]

/-- A line comes to the same with the lines that came to a problem and without them. -/
theorem eval_clean (s : Session) (rates : RateTable) (text : String) :
    (s.clean.eval rates text).map (fun (v, t) => (v, t.clean)) =
      (s.eval rates text).map fun (v, t) => (v, t.clean) := by
  rw [eval, eval]
  cases Line.parse text with
  | error f => rfl
  | ok parsed =>
    obtain ⟨line, problems⟩ := parsed
    cases problems with
    | cons d rest =>
      let r : LineRecord := { raw := text, value := .error d.problem }
      show Except.ok (r.value, (s.clean.record r).clean) = .ok (r.value, (s.record r).clean)
      rw [clean_record_congr s.clean_clean]
    | nil =>
      show (s.clean.evalStatement rates text line.statement).map _ =
        (s.evalStatement rates text line.statement).map _
      rw [evalStatement, evalStatement, runStatement_clean]
      cases s.runStatement rates text line.statement with
      | error f => rfl
      | ok done =>
        obtain ⟨r, t⟩ := done
        show Except.ok (r.value, ((t.clean.record r).setPrevious r.value).clean) =
          .ok (r.value, ((t.record r).setPrevious r.value).clean)
        rw [clean_setPrevious, clean_setPrevious, clean_record_congr t.clean_clean]

/-- Sessions that differ only in lines that came to a problem. -/
def Alike (s t : Session) : Prop := s.clean = t.clean

/-- Sessions that differ only in lines that came to a problem evaluate a line to the same value and
still differ only in such lines. -/
theorem Alike.eval (alike : s.Alike t) (done : s.eval rates text = .ok (v, s')) :
    ∃ t', t.eval rates text = .ok (v, t') ∧ s'.Alike t' := by
  have same : (s.eval rates text).map (fun (v, t) => (v, t.clean)) =
      (t.eval rates text).map fun (v, t) => (v, t.clean) := by
    rw [← eval_clean s, ← eval_clean t, alike]
  rw [done] at same
  obtain ⟨⟨w, t'⟩, done', eq⟩ := map_ok_iff.mp same.symm
  obtain ⟨rfl, clean⟩ := Prod.mk.inj eq
  exact ⟨t', done', clean.symm⟩

/-- A line that comes to a problem makes no other difference. -/
theorem alike_of_isError (done : s.eval rates text = .ok (v, t)) (error : v.isError = true) :
    s.Alike t := by
  cases outcome_of_eval done with
  | @noted r => rw [Alike, clean_record, if_pos error]
  | result _ _ _ valid | assigned _ _ _ _ valid =>
    rw [isError_of_isValid valid] at error
    cases error

/-! ## What a line leaves to be told -/

theorem Alike.total (alike : s.Alike t) : s.total = t.total := by
  rw [← total_clean s, ← total_clean t, alike]

theorem Alike.precision (alike : s.Alike t) : s.precision = t.precision :=
  congrArg (·.precision) alike

/-- The last line is that of the value that was evaluated last. -/
theorem lastLine?_of_eval (done : s.eval rates text = .ok (v, t)) :
    ∃ r, t.lastLine? = some r ∧ r.value = v := by
  cases outcome_of_eval done with
  | noted | result | assigned => exact ⟨_, List.getLast?_concat, rfl⟩

theorem lastLine?_clean {r : LineRecord} (last : s.lastLine? = some r)
    (clean : r.value.isError = false) : s.clean.lastLine? = some r := by
  obtain ⟨earlier, split⟩ := List.getLast?_eq_some_iff.mp last
  show (cleanLines s.history).getLast? = some r
  rw [split, cleanLines_append_singleton, clean]
  exact List.getLast?_concat

/-- Sessions that differ only in lines that came to a problem have the same last line, if both last
lines came to none. -/
theorem Alike.lastLine? (alike : s.Alike t) {r r' : LineRecord} (last : s.lastLine? = some r)
    (last' : t.lastLine? = some r') (clean : r.value.isError = false)
    (clean' : r'.value.isError = false) : s.lastLine? = t.lastLine? := by
  rw [last, ← lastLine?_clean last clean, alike, lastLine?_clean last' clean', last']

end Session

end LineCalc
