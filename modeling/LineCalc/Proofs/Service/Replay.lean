import LineCalc.Proofs.Entries
import LineCalc.Proofs.Session.Clean
import LineCalc.Proofs.Session.Consumption
import LineCalc.Proofs.Session.Effect
import LineCalc.Service

/-!
# Sessions that are evaluated anew

For each line sent to a stored session the service evaluates the stored lines in a new session, and
of the lines sent it stores those that come to no problem. It answers as if it kept one session for
all lines, those that come to a problem included.

Results:
1. `Service.Mirrors.step`: a line sent to a stored session that mirrors a kept one is answered from
   the kept one, and what is then stored mirrors what is then kept.
2. `answers_of_kept_session`: the same for any number of requests.
-/

namespace LineCalc

/-! ## Requests and answers -/

/-- The request asks the session of a name for the value of a line. -/
structure Request.Asks (r : Request) (name query : String) : Prop where
  method : r.method = "POST"
  route : Route.ofPath? (pathOfTarget r.target) = some (.calculateIn name)
  body : ∃ members j, r.body = some (.object members) ∧ members.lookup "query" = some j ∧
    query = Text.trim j.plainText
  nonempty : query.isEmpty = false

/-- What is told of a value that the session has just come to: the value, the total and the
variable that was set. -/
def Session.tell (s : Session) (v : Value) : Except Fault Response := do
  let result ← s.describe v
  let total ← s.describe s.total
  let assigned := (s.lastLine?.bind (·.assigned)).toList.map fun name =>
    ("variable_set", Json.string name)
  return .ofMembers 200 ([("result", result), ("total", total)] ++ assigned)

/-- The answer to a line that the session has just evaluated: the reason of a problem, or what is
told of another value. -/
def Session.answerTo (s : Session) (v : Value) : Except Fault Response :=
  match v with
  | .error p => .ok (.refusal 400 p.message)
  | v => s.tell v

/-- The answers of a session that is kept. -/
def Session.answers (s : Session) (rates : RateTable) :
    List String → Except Fault (List Response × Session)
  | [] => .ok ([], s)
  | query :: rest => do
    let (v, s) ← s.eval rates query
    let answer ← s.answerTo v
    let (others, s) ← s.answers rates rest
    return (answer :: others, s)

/-- Handles requests one after another. -/
def Service.handleAll (svc : Service) : List Request → List Response × Service
  | [] => ([], svc)
  | r :: rest =>
    let (answer, svc) := svc.handle r
    let (others, svc) := svc.handleAll rest
    (answer :: others, svc)

namespace Session

variable {rates : RateTable} {s t s' t' : Session} {text : String} {v : Value}

theorem Alike.describe (alike : s.Alike t) (v : Value) : s.describe v = t.describe v := by
  rw [Session.describe, Session.describe, format, format, alike.precision]

/-- Sessions that differ only in lines that came to a problem tell the same of what they have just
come to. -/
theorem Alike.tell (alike : s'.Alike t') (done : s.eval rates text = .ok (v, s'))
    (done' : t.eval rates text = .ok (v, t')) (clean : v.isError = false) :
    s'.tell v = t'.tell v := by
  obtain ⟨r, last, value⟩ := lastLine?_of_eval done
  obtain ⟨r', last', value'⟩ := lastLine?_of_eval done'
  have lastLine : s'.lastLine? = t'.lastLine? :=
    alike.lastLine? last last' (value ▸ clean) (value' ▸ clean)
  simp only [Session.tell, alike.describe, alike.total, lastLine]

theorem answerTo_of_clean (clean : v.isError = false) : s.answerTo v = s.tell v := by
  cases v with
  | error p => cases clean
  | empty | amount => rfl

/-- A count of decimals is enough to tell anything. -/
theorem tell_ok {n : Nat} (precision : s.precision = .decimals n) (v : Value) :
    ∃ answer, s.tell v = .ok answer := by
  have shown (v : Value) : ∃ j, s.describe v = .ok j := by
    rw [describe, format, precision]
    exact ⟨_, rfl⟩
  obtain ⟨result, eqResult⟩ := shown v
  obtain ⟨total, eqTotal⟩ := shown s.total
  rw [tell, eqResult, eqTotal]
  exact ⟨_, rfl⟩

end Session

/-! ## Stored lines -/

namespace Session

variable {rates : RateTable} {s t u : Session} {lines : List String} {values : List Value}
variable {text : String} {v : Value}

theorem evalAll_cons_ok_iff {rest : List String} :
    s.evalAll rates (text :: rest) = (.ok values, u) ↔
      ∃ v t others, s.eval rates text = .ok (v, t) ∧ t.evalAll rates rest = (.ok others, u) ∧
        values = v :: others := by
  rw [evalAll]
  cases s.eval rates text with
  | error f => simp
  | ok first =>
    obtain ⟨v, t⟩ := first
    dsimp only
    constructor
    · intro eq
      obtain ⟨mapped, rfl⟩ := Prod.mk.inj eq
      obtain ⟨others, done, rfl⟩ := map_ok_iff.mp mapped
      exact ⟨v, t, others, rfl, Prod.ext done rfl, rfl⟩
    · rintro ⟨_, _, others, eq, done, rfl⟩
      cases eq
      rw [done]
      rfl

theorem evalAll_append_singleton (done : s.evalAll rates lines = (.ok values, t))
    (last : t.eval rates text = .ok (v, u)) :
    s.evalAll rates (lines ++ [text]) = (.ok (values ++ [v]), u) := by
  induction lines generalizing s values with
  | nil =>
    cases done
    exact evalAll_cons_ok_iff.mpr ⟨v, u, [], last, rfl, rfl⟩
  | cons line rest ih =>
    obtain ⟨w, mid, others, first, doneRest, rfl⟩ := evalAll_cons_ok_iff.mp done
    exact evalAll_cons_ok_iff.mpr ⟨w, mid, _, first, ih doneRest, rfl⟩

end Session

namespace StoredSession

variable {rates : RateTable} {lines : List String} {precision : Int} {strict : Bool}
variable {s t : Session} {query : String} {v : Value}

theorem rebuild_iff : rebuild ⟨.texts lines, precision, strict⟩ rates = .ok s ↔
    ∃ p values, Precision.ofJson (.integer precision) = .ok p ∧
      ({ precision := p, strict } : Session).evalAll rates lines = (.ok values, s) := by
  rw [rebuild, bind_ok_iff]
  constructor
  · rintro ⟨p, settings, built⟩
    obtain ⟨_, texts, built⟩ := bind_ok_iff.mp built
    cases texts
    obtain ⟨values, done, eq⟩ := bind_ok_iff.mp built
    exact ⟨p, values, settings, Prod.ext done (Except.ok.inj eq)⟩
  · rintro ⟨p, values, settings, done⟩
    refine ⟨p, settings, bind_ok_iff.mpr ⟨lines, rfl, ?_⟩⟩
    rw [done]
    rfl

theorem rebuild_push (built : rebuild ⟨.texts lines, precision, strict⟩ rates = .ok s)
    (done : s.eval rates query = .ok (v, t)) :
    rebuild ⟨.texts (lines ++ [query]), precision, strict⟩ rates = .ok t := by
  obtain ⟨p, values, settings, all⟩ := rebuild_iff.mp built
  exact rebuild_iff.mpr ⟨p, _, settings, Session.evalAll_append_singleton all done⟩

theorem precision_of_rebuild (built : rebuild ⟨.texts lines, precision, strict⟩ rates = .ok s) :
    ∃ n, s.precision = .decimals n := by
  obtain ⟨p, values, settings, all⟩ := rebuild_iff.mp built
  have count : ∃ n, p = .decimals n := by
    unfold Precision.ofJson at settings
    dsimp only at settings
    split at settings <;> cases settings
    exact ⟨_, rfl⟩
  let new : Session := { precision := p, strict }
  have kept : (new.evalAll rates lines).2.precision = p :=
    Session.evalAll_preserves (P := fun s => s.precision = p)
      (fun done same => (Session.outcome_of_eval done).sameSettings.precision.trans same) lines rfl
  rw [all] at kept
  exact kept ▸ count

/-- A line that comes to a problem is answered with its reason and not stored. -/
theorem calculate_of_error {p : Problem}
    (built : rebuild ⟨.texts lines, precision, strict⟩ rates = .ok s)
    (done : s.eval rates query = .ok (.error p, t)) :
    calculate ⟨.texts lines, precision, strict⟩ rates query =
      .ok (.refusal 400 p.message, none) := by
  rw [calculate, built]
  simp only [bind, Except.bind, done]
  rfl

/-- A line that comes to no problem is answered with what its session tells, and stored. -/
theorem calculate_of_clean {answer : Response}
    (built : rebuild ⟨.texts lines, precision, strict⟩ rates = .ok s)
    (done : s.eval rates query = .ok (v, t)) (clean : v.isError = false)
    (told : t.tell v = .ok answer) :
    calculate ⟨.texts lines, precision, strict⟩ rates query =
      .ok (answer, some ⟨.texts (lines ++ [query]), precision, strict⟩) := by
  obtain ⟨result, eqResult, told⟩ := bind_ok_iff.mp told
  obtain ⟨total, eqTotal, told⟩ := bind_ok_iff.mp told
  cases told
  rw [calculate, built]
  simp only [bind, Except.bind, done]
  cases v with
  | error p => cases clean
  | empty | amount =>
    simp only [eqResult, eqTotal, StoredLines.push]
    rfl

end StoredSession

/-! ## Requests to a stored session -/

namespace Service

variable {svc : Service} {r : Request} {name query : String} {lines : List String}
variable {precision : Int} {strict : Bool} {kept kept' : Session} {v : Value}

/-- Work on a stored session ends with saving what is left of it. -/
theorem onSession_of_done {work : StoredSession → Except Fault (Response × Option StoredSession)}
    {stored : StoredSession} {answer : Response} {left : Option StoredSession}
    (loaded : svc.store.load name = .ok (some stored)) (done : work stored = .ok (answer, left)) :
    svc.onSession name work = svc.save name answer left := by
  rw [onSession, loaded]
  dsimp only
  rw [done]

/-- What is left is stored, whether or not its lines can be counted. -/
theorem save_of_present {answer : Response} {left : StoredSession}
    (present : svc.store.missing = false) : svc.save name answer (some left) =
      (match left.lines.count with
        | .ok _ => answer
        | .error f => .ofFault f,
      { svc with store := { svc.store with sessions := svc.store.sessions.set name left } }) := by
  simp only [save, SessionStore.save, present, Bool.false_eq_true, if_false]
  cases left.lines.count <;> rfl

theorem queryOf_of_asks (asks : r.Asks name query) :
    ∃ members, queryOf r.body = .ok (.ok (query, members)) := by
  obtain ⟨members, j, body, found, rfl⟩ := asks.body
  refine ⟨members, ?_⟩
  have truthy : (Json.object members).truthy = true := by
    cases members with
    | nil => cases found
    | cons m rest => rfl
  rw [body, queryOf, Option.filter_some, if_pos truthy]
  dsimp only
  rw [found]
  dsimp only
  rw [if_neg (by simp [asks.nonempty])]

theorem handle_of_asks (asks : r.Asks name query) :
    svc.handle r = svc.onSession name (·.calculate svc.rates query) := by
  obtain ⟨members, read⟩ := queryOf_of_asks asks
  have taken : (Route.calculateIn name).takes "POST" = true := rfl
  rw [handle, asks.route, asks.method]
  simp [taken, serve, onQuery, read]

/-- What is stored under a name evaluates to a session that differs from a kept one only in lines
that came to a problem. -/
structure Mirrors (svc : Service) (name : String) (lines : List String) (precision : Int)
    (strict : Bool) (kept : Session) : Prop where
  present : svc.store.missing = false
  stored : svc.store.sessions.lookup name = some ⟨.texts lines, precision, strict⟩
  rebuilt : ∃ s, StoredSession.rebuild ⟨.texts lines, precision, strict⟩ svc.rates = .ok s ∧
    s.Alike kept

theorem Mirrors.handle (mirrors : svc.Mirrors name lines precision strict kept)
    (asks : r.Asks name query) {answer : Response} {left : Option StoredSession}
    (calculated : StoredSession.calculate ⟨.texts lines, precision, strict⟩ svc.rates query =
      .ok (answer, left)) : svc.handle r = svc.save name answer left := by
  have loaded : svc.store.load name = .ok (some ⟨.texts lines, precision, strict⟩) := by
    simp [SessionStore.load, mirrors.present, mirrors.stored]
  rw [handle_of_asks asks, onSession_of_done loaded calculated]

/-- The lines that are stored after one more line came to a value. -/
def storedLines (lines : List String) (query : String) (v : Value) : List String :=
  if v.isError then lines else lines ++ [query]

/-- A line sent to a session that mirrors a kept one is answered from the kept one, and what is then
stored mirrors what is then kept. -/
theorem Mirrors.step (mirrors : svc.Mirrors name lines precision strict kept)
    (asks : r.Asks name query) (done : kept.eval svc.rates query = .ok (v, kept')) :
    ∃ answer svc', kept'.answerTo v = .ok answer ∧ svc.handle r = (answer, svc') ∧
      svc'.rates = svc.rates ∧
      svc'.Mirrors name (storedLines lines query v) precision strict kept' := by
  obtain ⟨s, built, alike⟩ := mirrors.rebuilt
  obtain ⟨s', done', alike'⟩ := Session.Alike.eval alike.symm done
  cases clean : v.isError with
  | true =>
    obtain ⟨p, rfl⟩ : ∃ p, v = .error p := by
      cases v with
      | error p => exact ⟨p, rfl⟩
      | empty | amount => cases clean
    refine ⟨_, svc, rfl, ?_, rfl, mirrors.present, mirrors.stored, s, built, ?_⟩
    · rw [mirrors.handle asks (StoredSession.calculate_of_error built done')]
      rfl
    · exact alike.trans (Session.alike_of_isError done clean)
  | false =>
    -- The session that is built anew tells what the kept one tells.
    obtain ⟨n, decimals⟩ := StoredSession.precision_of_rebuild built
    have decimals' : s'.precision = .decimals n :=
      (Session.outcome_of_eval done').sameSettings.precision.trans decimals
    obtain ⟨answer, told⟩ := Session.tell_ok decimals' v
    let saved : Service := { svc with store := { svc.store with
      sessions := svc.store.sessions.set name ⟨.texts (lines ++ [query]), precision, strict⟩ } }
    refine ⟨answer, saved, ?_, ?_, rfl, mirrors.present, ?_, s', ?_, alike'.symm⟩
    · rw [Session.answerTo_of_clean clean, alike'.tell done done' clean, told]
    · rw [mirrors.handle asks (StoredSession.calculate_of_clean built done' clean told),
        save_of_present mirrors.present]
      rfl
    · rw [storedLines, clean]
      exact Entries.lookup_set_self _ _ _
    · rw [storedLines, clean]
      exact StoredSession.rebuild_push built done'

/-- Lines sent to a session that mirrors a kept one are answered from the kept one. -/
theorem Mirrors.run {requests : List Request} {queries : List String} {values : List Value}
    (mirrors : svc.Mirrors name lines precision strict kept)
    (asks : List.Forall₂ (fun r query => r.Asks name query) requests queries)
    (done : kept.evalAll svc.rates queries = (.ok values, kept')) :
    kept.answers svc.rates queries = .ok ((svc.handleAll requests).1, kept') ∧
      (svc.handleAll requests).2.Mirrors name
        (lines ++ ((queries.zip values).filter (!·.2.isError)).map (·.1))
        precision strict kept' := by
  induction asks generalizing svc lines kept values with
  | nil =>
    cases done
    exact ⟨rfl, by simpa [handleAll] using mirrors⟩
  | @cons r query requests queries first _ ih =>
    obtain ⟨v, mid, others, doneFirst, doneRest, rfl⟩ := Session.evalAll_cons_ok_iff.mp done
    obtain ⟨answer, svc', told, handled, rates, mirrors'⟩ := mirrors.step first doneFirst
    rw [← rates] at doneRest
    obtain ⟨answers, mirrors'⟩ := ih mirrors' doneRest
    rw [handleAll, handled]
    constructor
    · rw [Session.answers, doneFirst]
      simp only [bind, Except.bind, told]
      rw [← rates, answers]
      rfl
    · convert mirrors' using 1
      cases clean : v.isError <;> simp [storedLines, clean]

end Service

/-- A stored session whose settings and lines are those of a kept session answers requests for lines
as the kept session does that evaluates all of the lines, and what is stored in the end are the
lines that came to no problem. -/
theorem answers_of_kept_session {svc : Service} {name : String} {lines : List String}
    {precision : Int} {strict : Bool} {p : Precision} {earlier values : List Value}
    {s t : Session} {requests : List Request} {queries : List String}
    (present : svc.store.missing = false)
    (stored : svc.store.sessions.lookup name = some ⟨.texts lines, precision, strict⟩)
    (settings : Precision.ofJson (.integer precision) = .ok p)
    (replayed : ({ precision := p, strict } : Session).evalAll svc.rates lines = (.ok earlier, s))
    (asks : List.Forall₂ (fun r query => r.Asks name query) requests queries)
    (done : s.evalAll svc.rates queries = (.ok values, t)) :
    s.answers svc.rates queries = .ok ((svc.handleAll requests).1, t) ∧
      (svc.handleAll requests).2.store.sessions.lookup name =
        some ⟨.texts (lines ++ ((queries.zip values).filter (!·.2.isError)).map (·.1)), precision,
          strict⟩ := by
  have built : StoredSession.rebuild ⟨.texts lines, precision, strict⟩ svc.rates = .ok s :=
    StoredSession.rebuild_iff.mpr ⟨p, earlier, settings, replayed⟩
  obtain ⟨answers, mirrors⟩ := Service.Mirrors.run ⟨present, stored, s, built, rfl⟩ asks done
  exact ⟨answers, mirrors.stored⟩

/-! ## A line that came to a problem -/

theorem parse_exStray : Line.parse ")" =
    .ok (⟨.expr (.literal 0 .plain ""), none, ")"⟩,
      [⟨.malformed (.unexpectedToken ")"), some 0, none⟩]) :=
  Parser.parse_of_walkLine (by decide +kernel)

/-- A session in which a number was given, and then a line that came to a problem. -/
def exStray : Session :=
  exNumber.record { raw := ")", value := .error (.malformed (.unexpectedToken ")")) }

/-- The session after a continuation of the number. -/
def exStrayResumed : Session where
  previous := .number 5
  history := [{ raw := "2", value := .number 2, consumed := true },
    { raw := ")", value := .error (.malformed (.unexpectedToken ")")) },
    { raw := "+ 3", value := .number 5, continuation := true }]

theorem eval_exStray : exNumber.eval [] ")" =
    .ok (.error (.malformed (.unexpectedToken ")")), exStray) := by
  rw [Session.eval, parse_exStray]
  rfl

theorem eval_exStrayResumed : exStray.eval [] "+ 3" = .ok (.number 5, exStrayResumed) := by
  have sum : (Expr.resume .add (.literal 3 .plain "3")).eval (exStray.scope []) =
      .ok (.number 5) := eq_ok_of_toOption (by decide +kernel)
  exact Session.eval_of_expr parse_exContinuation rfl sum

/-- A request for a line in the session `s1`. -/
def exRequest (text : String) : Request where
  method := "POST"
  target := "/sessions/s1/calculate"
  body := some (.object [("query", .string text)])

theorem exRequest_asks {text query : String} (trimmed : query = Text.trim text)
    (nonempty : query.isEmpty = false) : (exRequest text).Asks "s1" query := by
  have route : Route.ofPath? (pathOfTarget "/sessions/s1/calculate") =
      some (.calculateIn "s1") := by decide +kernel
  exact ⟨rfl, route, ⟨_, _, rfl, rfl, trimmed⟩, nonempty⟩

/-- The number is taken up as if nothing had come to a problem, and what came to one is not
stored. -/
theorem answers_of_kept_session_exStray :
    let svc : Service := { store := { sessions := [("s1", {})] }, rates := [] }
    let requests := [exRequest "2", exRequest ")", exRequest " + 3 "]
    ({} : Session).answers [] ["2", ")", "+ 3"] =
        .ok ((svc.handleAll requests).1, exStrayResumed) ∧
      (svc.handleAll requests).2.store.sessions.lookup "s1" =
        some { lines := .texts ["2", "+ 3"] } := by
  intro svc requests
  have asks : List.Forall₂ (fun r query => r.Asks "s1" query) requests ["2", ")", "+ 3"] :=
    .cons (exRequest_asks (by decide +kernel) rfl)
      (.cons (exRequest_asks (by decide +kernel) rfl)
        (.cons (exRequest_asks (by decide +kernel) rfl) .nil))
  have done : ({} : Session).evalAll [] ["2", ")", "+ 3"] =
      (.ok [.number 2, .error (.malformed (.unexpectedToken ")")), .number 5], exStrayResumed) := by
    simp only [Session.evalAll, eval_exNumber, eval_exStray, eval_exStrayResumed]
    rfl
  have stored : svc.store.sessions.lookup "s1" = some ⟨.texts [], defaultPrecision, false⟩ := rfl
  have settings : Precision.ofJson (.integer defaultPrecision) = .ok .default := rfl
  have replayed : ({ precision := .default, strict := false } : Session).evalAll svc.rates [] =
      (.ok [], {}) := rfl
  exact answers_of_kept_session rfl stored settings replayed asks done

end LineCalc
