import LineCalc.Proofs.Service.Interleaving

/-!
# Requests that are answered

Every route has its own statuses, and where it fails itself it gives the reason. A request that ends
in a fault is answered with the bare status 500 instead. If the line that is asked for has a value
then that is so for three kinds of requests: the body is taken for an object without being one, a
truth value as the precision meets an amount that has to be shown with just so many decimals, or the
stored lines can no longer be evaluated.

Results:
1. `queryOf_error_iff`: the bodies that cannot be asked for a line.
2. `Service.Listed.handle`: what every request preserves of the stored sessions.
3. `Service.serve_of_breaks`, `Service.answers_serve`: a route breaks on these requests, and answers
   all others.
4. `Service.answers_unless_breaks`: the same for the requests after any others.
-/

namespace LineCalc

/-! ## Statuses -/

/-- The statuses of the answers of a route to a method that it takes. -/
def Route.statuses : Route → String → List Nat
  | .calculate, _ => [200, 400]
  | .sessions, "POST" => [201, 500]
  | .sessions, _ => [200]
  | .session _, "DELETE" => [204, 404]
  | .session _, _ => [200, 404]
  | .settings _, _ | .calculateIn _, _ => [200, 400, 404, 500]
  | .rate .., _ => [200, 404]
  | .fixedFile, _ => [404]

/-- The route answers a method in its own words: with one of its statuses, and a failure with the
reason. -/
structure Route.Answers (route : Route) (method : String) (answer : Response) : Prop where
  status : answer.status ∈ route.statuses method
  reason : answer.status = 500 → answer.body.isSome = true

theorem Route.statuses_subset (route : Route) (method : String) :
    route.statuses method ⊆ [200, 201, 204, 400, 404, 500] := by
  unfold statuses
  split <;> decide

theorem Route.failure_not_mem_statuses {route : Route} (taken : route.takes "HEAD" = true) :
    500 ∉ route.statuses "HEAD" := by
  cases route with
  | calculate | settings | calculateIn => cases taken
  | sessions | session | rate | fixedFile => simp [statuses]

theorem Route.Answers.of_status {route : Route} {method : String} {answer : Response} (status : Nat)
    (eq : answer.status = status) (mem : status ∈ route.statuses method) (succeeds : status ≠ 500) :
    route.Answers method answer :=
  ⟨eq ▸ mem, fun failed => (succeeds (eq.symm.trans failed)).elim⟩

theorem Route.not_answers_bare (route : Route) (method : String) :
    ¬ route.Answers method (.bare 500) :=
  fun answers => by cases answers.reason rfl

/-! ## Bodies -/

theorem occursIn_iff {part cs : List Char} : occursIn part cs = true ↔ part <:+: cs := by
  induction cs with
  | nil => rw [occursIn, List.isEmpty_iff, List.infix_nil]
  | cons c cs ih =>
    rw [occursIn, Bool.or_eq_true, List.isPrefixOf_iff_prefix, ih, List.infix_cons_iff]

/-- A value that is no object, and yet has the key of the line in it or cannot have it: what stands
under the key cannot be looked up. -/
inductive Json.Unaskable : Json → Prop
  | item {items : List Json} : .string "query" ∈ items → Unaskable (.array items)
  | part {s : String} : "query".toList <:+: s.toList → Unaskable (.string s)
  | integer {n : Int} : n ≠ 0 → Unaskable (.integer n)
  | decimal {x : Float} : (x == 0) = false → Unaskable (.decimal x)
  | yes : Unaskable (.bool true)

theorem Json.Unaskable.truthy {j : Json} (unaskable : j.Unaskable) : j.truthy = true := by
  cases unaskable with
  | @item items mem =>
    cases items with
    | nil => cases mem
    | cons => rfl
  | @part s within =>
    cases empty : s.isEmpty with
    | false => simp [Json.truthy, empty]
    | true =>
      rw [String.isEmpty_iff.mp empty] at within
      exact (by decide : ¬ "query".toList <:+: "".toList) within |>.elim
  | integer ne => simpa [Json.truthy] using ne
  | decimal ne => simpa [Json.truthy, bne] using ne
  | yes => rfl

theorem isQuery_iff {items : List Json} :
    (items.any fun | .string s => s == "query" | _ => false) = true ↔ .string "query" ∈ items := by
  rw [List.any_eq_true]
  constructor
  · rintro ⟨j, mem, eq⟩
    split at eq
    · rw [← beq_iff_eq.mp eq]
      exact mem
    · cases eq
  · intro mem
    exact ⟨_, mem, rfl⟩

theorem queryOf_error_iff {body : Option Json} {f : Fault} :
    queryOf body = .error f ↔ f = .wrongType ∧ ∃ j, body = some j ∧ j.Unaskable := by
  have fails {α : Type} {P : Prop} (unaskable : P) :
      (Except.error .wrongType : Except Fault α) = .error f ↔ f = .wrongType ∧ P := by
    simp [unaskable, eq_comm]
  have fits {α : Type} {a : α} {P : Prop} (askable : ¬ P) :
      Except.ok a = .error f ↔ f = .wrongType ∧ P := by
    simp [askable]
  cases body with
  | none => simp [queryOf]
  | some j =>
    simp only [Option.some.injEq, exists_eq_left']
    by_cases truthy : j.truthy = true
    · rw [queryOf, Option.filter_some, if_pos truthy]
      cases j with
      | null => cases truthy
      | bool b =>
        cases b with
        | false => cases truthy
        | true => exact fails .yes
      | integer n => exact fails (.integer (by simpa [Json.truthy] using truthy))
      | decimal x => exact fails (.decimal (by simpa [Json.truthy, bne] using truthy))
      | string s =>
        dsimp only
        split
        · next within => exact fails (.part (occursIn_iff.mp within))
        · next apart =>
          refine fits fun unaskable => ?_
          cases unaskable with
          | part within => exact apart (occursIn_iff.mpr within)
      | array items =>
        dsimp only
        split
        · next within => exact fails (.item (isQuery_iff.mp within))
        · next apart =>
          refine fits fun unaskable => ?_
          cases unaskable with
          | item mem => exact apart (isQuery_iff.mpr mem)
      | object members =>
        dsimp only
        split
        all_goals exact fits fun unaskable => by cases unaskable
    · rw [queryOf, Option.filter_some, if_neg truthy]
      exact fits fun unaskable => truthy unaskable.truthy

/-! ## What is shown -/

theorem mapM_error {α β ε : Type} {f : α → Except ε β} {e : ε} {as : List α}
    (failed : as.mapM f = .error e) : ∃ a ∈ as, f a = .error e := by
  induction as with
  | nil => cases failed
  | cons a rest ih =>
    rw [List.mapM_cons, bind_error_iff] at failed
    rcases failed with first | ⟨b, -, failed⟩
    · exact ⟨a, List.mem_cons_self, first⟩
    · rcases bind_error_iff.mp failed with others | ⟨bs, -, failed⟩
      · obtain ⟨c, mem, eq⟩ := ih others
        exact ⟨c, List.mem_cons_of_mem _ mem, eq⟩
      · cases failed

namespace Session

variable {s : Session} {v : Value} {f : Fault}

/-- The only values that cannot be described are those whose decimals the precision has to say, with
a truth value for it. -/
theorem describe_error_iff : s.describe v = .error f ↔
    f = .missingPrecision ∧ v.needsPrecision = true ∧ ∃ b, s.precision = .flag b := by
  rw [describe, format, map_error_iff]
  unfold Value.formatAt
  cases s.precision with
  | decimals n => simp
  | flag b =>
    cases needs : v.needsPrecision with
    | true => simp [eq_comm]
    | false => simp

theorem describe_ne_error {n : Nat} (precision : s.precision = .decimals n) :
    s.describe v ≠ .error f := by
  intro failed
  obtain ⟨-, -, b, flag⟩ := describe_error_iff.mp failed
  cases precision.symm.trans flag

/-- What is told of the value of a line by itself. -/
def answerAlone (s : Session) (v : Value) : Except Fault Response :=
  match v with
  | .error p => .ok (.refusal 400 p.message)
  | v => (s.describe v).map fun shown => .ofMembers 200 [("result", shown)]

theorem answerAlone_error_iff : s.answerAlone v = .error f ↔
    f = .missingPrecision ∧ v.needsPrecision = true ∧ ∃ b, s.precision = .flag b := by
  cases v with
  | error p => simp [answerAlone, Value.needsPrecision]
  | empty | amount => exact map_error_iff.trans describe_error_iff

end Session

namespace StoredSession

variable {rates : RateTable} {lines : List String} {precision : Int} {strict : Bool}
variable {s t : Session} {name query : String} {v : Value} {f : Fault}
variable {stored : StoredSession} {body : Option Json} {answer : Response}

/-- A session is not shown only if it is not rebuilt. -/
theorem view_error_iff : view ⟨.texts lines, precision, strict⟩ rates name = .error f ↔
    rebuild ⟨.texts lines, precision, strict⟩ rates = .error f := by
  constructor
  · intro failed
    rcases bind_error_iff.mp failed with unbuilt | ⟨s, built, failed⟩
    · exact unbuilt
    · obtain ⟨n, decimals⟩ := precision_of_rebuild built
      have described {v : Value} : s.describe v ≠ .error f := Session.describe_ne_error decimals
      exfalso
      rcases bind_error_iff.mp failed with bindings | ⟨_, -, failed⟩
      · obtain ⟨b, -, failed⟩ := mapM_error bindings
        exact described (map_error_iff.mp failed)
      · rcases bind_error_iff.mp failed with history | ⟨_, -, failed⟩
        · obtain ⟨r, -, failed⟩ := mapM_error history
          exact described (map_error_iff.mp failed)
        · rcases bind_error_iff.mp failed with total | ⟨_, -, failed⟩
          · exact described total
          · rcases bind_error_iff.mp failed with totals | ⟨_, -, failed⟩
            · obtain ⟨v, -, failed⟩ := mapM_error totals
              exact described failed
            · cases failed
  · intro unbuilt
    exact bind_error_iff.mpr (.inl unbuilt)

theorem view_status (shown : stored.view rates name = .ok answer) : answer.status = 200 := by
  obtain ⟨_, -, shown⟩ := bind_ok_iff.mp shown
  obtain ⟨_, -, shown⟩ := bind_ok_iff.mp shown
  obtain ⟨_, -, shown⟩ := bind_ok_iff.mp shown
  obtain ⟨_, -, shown⟩ := bind_ok_iff.mp shown
  obtain ⟨_, -, shown⟩ := bind_ok_iff.mp shown
  cases shown
  rfl

/-- If a line has a value in the session that is rebuilt then the request for it has an answer. -/
theorem calculate_error_iff
    (returns : ∀ s, rebuild ⟨.texts lines, precision, strict⟩ rates = .ok s →
      ∃ v t, s.eval rates query = .ok (v, t)) :
    calculate ⟨.texts lines, precision, strict⟩ rates query = .error f ↔
      rebuild ⟨.texts lines, precision, strict⟩ rates = .error f := by
  constructor
  · intro failed
    rcases bind_error_iff.mp failed with unbuilt | ⟨s, built, -⟩
    · exact unbuilt
    · exfalso
      obtain ⟨v, t, done⟩ := returns s built
      cases v with
      | error p =>
        rw [calculate_of_error built done] at failed
        cases failed
      | empty | amount =>
        obtain ⟨n, decimals⟩ := precision_of_rebuild built
        obtain ⟨answer, told⟩ := Session.tell_ok
          ((Session.outcome_of_eval done).sameSettings.precision.trans decimals) _
        rw [calculate_of_clean built done rfl told] at failed
        cases failed
  · intro unbuilt
    exact bind_error_iff.mpr (.inl unbuilt)

/-- Settings are only read from an object, or from nothing. -/
theorem configure_error_iff : stored.configure body = .error f ↔
    f = .wrongShape ∧ ∃ j, body = some j ∧ j.truthy = true ∧ ∀ members, j ≠ .object members := by
  constructor
  · intro failed
    unfold configure at failed
    split at failed
    · split at failed <;> cases failed
    · next other =>
      cases failed
      cases given : body.filter (·.truthy) with
      | none => exact (other [] (by rw [given]; rfl)).elim
      | some j =>
        obtain ⟨eq, truthy⟩ := Option.filter_eq_some_iff.mp given
        refine ⟨rfl, j, eq, truthy, ?_⟩
        intro members object
        exact other members (by rw [given, object]; rfl)
  · rintro ⟨rfl, j, rfl, truthy, other⟩
    rw [configure, Option.filter_some, if_pos truthy]
    cases j with
    | object members => exact (other members rfl).elim
    | null | bool | integer | decimal | string | array => rfl

end StoredSession

/-- The precision that a body gives. -/
def givenPrecision (members : List (String × Json)) : Json :=
  match members.lookup "precision" with
  | none | some .null => Precision.default.toJson
  | some j => j

theorem givenPrecision_flag {members : List (String × Json)} {b : Bool} :
    Precision.ofJson (givenPrecision members) = .ok (.flag b) ↔
      members.lookup "precision" = some (.bool b) := by
  constructor
  · intro given
    unfold givenPrecision at given
    split at given
    · cases given
    · cases given
    · next j _ lookup =>
      unfold Precision.ofJson at given
      split at given
      · split at given <;> cases given
      · cases given
        exact lookup
      · cases given
  · intro lookup
    rw [givenPrecision, lookup]
    rfl

section

variable {rates : RateTable} {query : String} {members : List (String × Json)} {line : Line}
variable {problems : List Diagnostic} {p : Precision} {v : Value} {t : Session} {f : Fault}

theorem calculateAlone_of_assignment (parsed : Line.parse query = .ok (line, problems))
    (assigns : line.statement.isAssignment = true) :
    calculateAlone rates query members ≠ .error f := by
  rw [calculateAlone, parsed]
  simp only [bind, Except.bind, assigns, if_true]
  intro failed
  cases failed

theorem calculateAlone_of_refused (parsed : Line.parse query = .ok (line, problems))
    (noAssignment : line.statement.isAssignment = false)
    (refused : Precision.ofJson (givenPrecision members) = .error f) :
    calculateAlone rates query members = .ok (.refusal 400 f.message) := by
  rw [calculateAlone, parsed]
  simp only [bind, Except.bind, noAssignment, Bool.false_eq_true, if_false]
  have refused' : ({} : Session).setPrecision (givenPrecision members) = .error f := by
    rw [Session.setPrecision, refused]
    rfl
  split
  · next f' eq =>
    cases refused'.symm.trans eq
    rfl
  · next s eq => cases refused'.symm.trans eq

theorem calculateAlone_of_given (parsed : Line.parse query = .ok (line, problems))
    (noAssignment : line.statement.isAssignment = false)
    (given : Precision.ofJson (givenPrecision members) = .ok p)
    (done : ({} : Session).eval rates query = .ok (v, t)) :
    calculateAlone rates query members = (t.withSettings p false).answerAlone v := by
  -- The precision does not matter for the value.
  have under : ({ precision := p } : Session).eval rates query =
      .ok (v, t.withSettings p false) := by
    show (({} : Session).withSettings p false).eval rates query = _
    rw [Session.eval_withSettings]
    · rw [done]
      rfl
    · exact fun _ _ _ _ => rfl
  rw [calculateAlone, parsed]
  simp only [bind, Except.bind, noAssignment, Bool.false_eq_true, if_false]
  have set : ({} : Session).setPrecision (givenPrecision members) = .ok { precision := p } := by
    rw [Session.setPrecision, given]
    rfl
  split
  · next f eq => cases set.symm.trans eq
  · next s eq =>
    cases set.symm.trans eq
    simp only [under]
    cases v with
    | error problem => rfl
    | empty | amount =>
      dsimp only
      show _ = ((t.withSettings p false).describe _).map _
      cases (t.withSettings p false).describe _ <;> rfl

/-- A line by itself is answered if it has a value, unless the value is to be shown at a truth value
as the precision that has to say its decimals. -/
theorem calculateAlone_error_iff (done : ({} : Session).eval rates query = .ok (v, t)) :
    calculateAlone rates query members = .error f ↔ f = .missingPrecision ∧
      (∃ b, members.lookup "precision" = some (.bool b)) ∧ v.needsPrecision = true ∧
      ∃ line problems, Line.parse query = .ok (line, problems) ∧
        line.statement.isAssignment = false := by
  obtain ⟨⟨line, problems⟩, parsed, -⟩ := bind_ok_iff.mp done
  simp only [← givenPrecision_flag]
  cases assigns : line.statement.isAssignment with
  | true =>
    simp [parsed, assigns, calculateAlone_of_assignment parsed assigns]
  | false =>
    cases given : Precision.ofJson (givenPrecision members) with
    | error f =>
      rw [calculateAlone_of_refused parsed assigns given]
      simp
    | ok p =>
      rw [calculateAlone_of_given parsed assigns given done, Session.answerAlone_error_iff]
      simp [parsed, assigns, Session.withSettings, and_comm]

theorem calculateAlone_status {answer : Response}
    (done : calculateAlone rates query members = .ok answer) :
    answer.status = 200 ∨ answer.status = 400 := by
  obtain ⟨⟨line, problems⟩, -, done⟩ := bind_ok_iff.mp done
  dsimp only at done
  split at done
  · cases done
    exact .inr rfl
  · split at done
    · cases done
      exact .inr rfl
    · obtain ⟨⟨v, t⟩, -, done⟩ := bind_ok_iff.mp done
      cases v with
      | error p =>
        cases done
        exact .inr rfl
      | empty | amount =>
        obtain ⟨shown, -, done⟩ := bind_ok_iff.mp done
        cases done
        exact .inl rfl

end

/-! ## Stored sessions -/

namespace Service

variable {svc : Service} {r : Request} {route : Route} {name : String} {stored : StoredSession}
variable {answer : Response}

/-- The lines of all stored sessions are lists of lines. -/
def Listed (svc : Service) : Prop :=
  ∀ e ∈ svc.store.sessions, ∃ lines, e.2.lines = .texts lines

/-- Either no session is found under a name, or one that is a list of lines. -/
theorem Listed.load_cases (listed : svc.Listed) (name : String) :
    svc.store.load name = .ok none ∨
      svc.store.missing = false ∧ ∃ lines precision strict,
        svc.store.load name = .ok (some ⟨.texts lines, precision, strict⟩) := by
  cases missing : svc.store.missing with
  | true => exact .inl (by rw [SessionStore.load, missing]; rfl)
  | false =>
    cases found : svc.store.sessions.lookup name with
    | none =>
      left
      rw [SessionStore.load, missing, found]
      rfl
    | some stored =>
      obtain ⟨lines, texts⟩ := listed (name, stored) (Entries.mem_of_lookup found)
      obtain ⟨_, precision, strict⟩ := stored
      cases texts
      exact .inr ⟨rfl, lines, precision, strict, load_texts missing found rfl⟩

theorem Listed.of_load (listed : svc.Listed) (loaded : svc.store.load name = .ok (some stored)) :
    svc.store.missing = false ∧ ∃ lines precision strict,
      stored = ⟨.texts lines, precision, strict⟩ := by
  rcases listed.load_cases name with none | ⟨present, lines, precision, strict, found⟩
  · cases none.symm.trans loaded
  · cases found.symm.trans loaded
    exact ⟨present, lines, precision, strict, rfl⟩

theorem Listed.set (listed : svc.Listed) {changed : StoredSession} {lines : List String}
    (texts : changed.lines = .texts lines) :
    ∀ e ∈ svc.store.sessions.set name changed, ∃ lines, e.2.lines = .texts lines := by
  intro e mem
  rcases Entries.mem_set mem with old | rfl
  · exact listed e old
  · exact ⟨lines, texts⟩

/-- No request stores anything but lists of lines. -/
theorem Listed.handle (listed : svc.Listed) (r : Request) : (svc.handle r).2.Listed := by
  have changes := (svc.changes_handle r).1
  rw [Listed]
  generalize (svc.handle r).2.store.sessions = sessions at changes
  cases changes with
  | nothing => exact listed
  | created name => exact listed.set rfl
  | deleted name => exact fun e mem => listed e (List.mem_filter.mp mem).1
  | configured configures =>
    obtain ⟨answer, configured⟩ := configures.configured
    obtain ⟨-, lines, precision, strict, rfl⟩ := listed.of_load configures.loaded
    exact listed.set (StoredSession.configure_some configured).1
  | calculated loaded calculated =>
    obtain ⟨-, lines, precision, strict, rfl⟩ := listed.of_load loaded
    obtain ⟨s, v, t, -, -, -, rfl⟩ := StoredSession.calculate_some calculated
    exact listed.set rfl

theorem Listed.handleAll (listed : svc.Listed) (requests : List Request) :
    (svc.handleAll requests).2.Listed := by
  induction requests generalizing svc with
  | nil => exact listed
  | cons first rest ih =>
    rw [handleAll_cons]
    exact ih (listed.handle first)

theorem Listed.list_ok (listed : svc.Listed) : ∃ answer, svc.listSessions = .ok answer ∧
    answer.status = 200 := by
  have counted (es : List (String × StoredSession))
      (all : ∀ e ∈ es, ∃ lines, e.2.lines = .texts lines) :
      ∃ found, SessionStore.list.go es = .ok found := by
    induction es with
    | nil => exact ⟨_, rfl⟩
    | cons e rest ih =>
      obtain ⟨⟨lines, texts⟩, others⟩ := List.forall_mem_cons.mp all
      obtain ⟨found, eq⟩ := ih others
      rw [SessionStore.list.go, texts, eq]
      exact ⟨_, rfl⟩
  obtain ⟨found, eq⟩ := counted _ listed
  rw [listSessions, SessionStore.list, eq]
  split <;> exact ⟨_, rfl, rfl⟩

/-! ## Requests that break -/

/-- The line that a request asks for has a value wherever the route evaluates it. -/
def Evaluates (svc : Service) (r : Request) : Route → Prop
  | .calculate => ∀ query members, queryOf r.body = .ok (.ok (query, members)) →
      ∃ v t, ({} : Session).eval svc.rates query = .ok (v, t)
  | .calculateIn name => ∀ query members stored s, queryOf r.body = .ok (.ok (query, members)) →
      svc.store.load name = .ok (some stored) → stored.rebuild svc.rates = .ok s →
      ∃ v t, s.eval svc.rates query = .ok (v, t)
  | _ => True

/-- A request to a route ends in a fault that is not one of its line. -/
inductive Breaks (svc : Service) (r : Request) : Route → Prop
  /-- The line cannot be looked up in the body. -/
  | calculate {j : Json} : r.body = some j → j.Unaskable → Breaks svc r .calculate
  | calculateIn {name : String} {j : Json} :
      r.body = some j → j.Unaskable → Breaks svc r (.calculateIn name)
  /-- A truth value is given as the precision, and the value of the line is an amount whose decimals
  it would have to say. -/
  | flag {query : String} {members : List (String × Json)} {b : Bool} {line : Line}
      {problems : List Diagnostic} {v : Value} {t : Session} :
      queryOf r.body = .ok (.ok (query, members)) →
      members.lookup "precision" = some (.bool b) →
      Line.parse query = .ok (line, problems) → line.statement.isAssignment = false →
      ({} : Session).eval svc.rates query = .ok (v, t) → v.needsPrecision = true →
      Breaks svc r .calculate
  /-- The settings of a session are to be looked up in a body that has content but no members. -/
  | settings {name : String} {stored : StoredSession} {j : Json} :
      svc.store.load name = .ok (some stored) → r.body = some j → j.truthy = true →
      (∀ members, j ≠ .object members) → Breaks svc r (.settings name)
  /-- The stored lines cannot be evaluated anew to be shown. -/
  | view {name : String} {stored : StoredSession} {f : Fault} :
      r.method ≠ "DELETE" → svc.store.load name = .ok (some stored) →
      stored.rebuild svc.rates = .error f → Breaks svc r (.session name)
  /-- The stored lines cannot be evaluated anew for another line. -/
  | replay {name query : String} {members : List (String × Json)} {stored : StoredSession}
      {f : Fault} :
      queryOf r.body = .ok (.ok (query, members)) → svc.store.load name = .ok (some stored) →
      stored.rebuild svc.rates = .error f → Breaks svc r (.calculateIn name)

theorem onSession_of_error {work : StoredSession → Except Fault (Response × Option StoredSession)}
    {f : Fault} (loaded : svc.store.load name = .ok (some stored))
    (failed : work stored = .error f) : svc.onSession name work = (.bare 500, svc) := by
  rw [onSession, loaded]
  dsimp only
  rw [failed]
  rfl

theorem onQuery_of_unaskable {j : Json} {work : String → List (String × Json) → Response × Service}
    (body : r.body = some j) (unaskable : j.Unaskable) :
    svc.onQuery r.body work = (.bare 500, svc) := by
  rw [onQuery, queryOf_error_iff.mpr ⟨rfl, j, body, unaskable⟩]
  rfl

theorem onQuery_of_read {query : String} {members : List (String × Json)}
    {work : String → List (String × Json) → Response × Service}
    (read : queryOf r.body = .ok (.ok (query, members))) :
    svc.onQuery r.body work = work query members := by
  rw [onQuery, read]

theorem serve_session {method : String} (shown : method ≠ "DELETE") (body : Option Json) :
    svc.serve (.session name) method body = svc.onSession name fun stored =>
      (stored.view svc.rates name).map (·, none) := by
  rw [serve]
  exact shown

/-- A request that breaks has no answer but the bare status 500. -/
theorem serve_of_breaks (listed : svc.Listed) (breaks : svc.Breaks r route) :
    (svc.serve route r.method r.body).1 = .bare 500 := by
  cases breaks with
  | calculate body unaskable => rw [serve, onQuery_of_unaskable body unaskable]
  | calculateIn body unaskable => rw [serve, onQuery_of_unaskable body unaskable]
  | flag read precision parsed noAssignment done needs =>
    rw [serve, onQuery_of_read read, (calculateAlone_error_iff done).mpr
      ⟨rfl, ⟨_, precision⟩, needs, _, _, parsed, noAssignment⟩]
    rfl
  | settings loaded body truthy noObject =>
    rw [serve, onSession_of_error loaded
      (StoredSession.configure_error_iff.mpr ⟨rfl, _, body, truthy, noObject⟩)]
  | view shown loaded unbuilt =>
    obtain ⟨-, lines, precision, strict, rfl⟩ := listed.of_load loaded
    rw [serve_session shown, onSession_of_error loaded
      (map_error_iff.mpr (StoredSession.view_error_iff.mpr unbuilt))]
  | replay read loaded unbuilt =>
    rw [serve, onQuery_of_read read, onSession_of_error loaded
      (bind_error_iff.mpr (.inl unbuilt))]

/-- The answer of work on a stored session that leaves a list of lines. -/
theorem onSession_answers {work : StoredSession → Except Fault (Response × Option StoredSession)}
    (listed : svc.Listed) (taken : 404 ∈ route.statuses r.method)
    (works : ∀ lines precision strict,
      svc.store.load name = .ok (some ⟨.texts lines, precision, strict⟩) →
      ∃ answer left, work ⟨.texts lines, precision, strict⟩ = .ok (answer, left) ∧
        route.Answers r.method answer ∧
        ∀ changed, left = some changed → ∃ lines, changed.lines = .texts lines) :
    route.Answers r.method (svc.onSession name work).1 := by
  rcases listed.load_cases name with none | ⟨present, lines, precision, strict, loaded⟩
  · rw [onSession, none]
    exact .of_status 404 rfl taken (by decide)
  · obtain ⟨answer, left, done, answers, texts⟩ := works lines precision strict loaded
    rw [onSession_of_done loaded done]
    cases left with
    | none => exact answers
    | some changed =>
      obtain ⟨lines', eq⟩ := texts changed rfl
      rw [save_texts name present eq]
      exact answers

/-- The answer of work on a line, where the body can be asked for one. -/
theorem onQuery_answers {work : String → List (String × Json) → Response × Service}
    (taken : 400 ∈ route.statuses r.method) (askable : ∀ j, r.body = some j → ¬ j.Unaskable)
    (works : ∀ query members, queryOf r.body = .ok (.ok (query, members)) →
      route.Answers r.method (work query members).1) :
    route.Answers r.method (svc.onQuery r.body work).1 := by
  cases read : queryOf r.body with
  | error f =>
    obtain ⟨-, j, body, unaskable⟩ := queryOf_error_iff.mp read
    exact (askable j body unaskable).elim
  | ok asked =>
    cases asked with
    | error answer =>
      rw [onQuery, read]
      exact .of_status 400 (queryOf_refused read) taken (by decide)
    | ok asked =>
      rw [onQuery, read]
      exact works asked.1 asked.2 read

theorem answers_calculate (returns : svc.Evaluates r .calculate)
    (fits : ¬ svc.Breaks r .calculate) :
    Route.calculate.Answers r.method (svc.serve .calculate r.method r.body).1 := by
  rw [serve]
  refine onQuery_answers (by simp [Route.statuses])
    (fun j body unaskable => fits (.calculate body unaskable)) fun query members read => ?_
  obtain ⟨v, t, done⟩ := returns query members read
  cases answered : calculateAlone svc.rates query members with
  | error f =>
    obtain ⟨-, ⟨b, precision⟩, needs, line, problems, parsed, noAssignment⟩ :=
      (calculateAlone_error_iff done).mp answered
    exact (fits (.flag read precision parsed noAssignment done needs)).elim
  | ok answer =>
    rcases calculateAlone_status answered with status | status
    · exact .of_status 200 status (by simp [Route.statuses]) (by decide)
    · exact .of_status 400 status (by simp [Route.statuses]) (by decide)

theorem answers_sessions (listed : svc.Listed) (method : String) (body : Option Json) :
    Route.sessions.Answers method (svc.serve .sessions method body).1 := by
  by_cases posts : method = "POST"
  · rw [posts, serve, createSession]
    split
    · exact .of_status 201 rfl (by simp [Route.statuses]) (by decide)
    · exact ⟨by simp [Route.statuses, Response.refusal, Response.ofMembers], fun _ => rfl⟩
  · have statuses : Route.sessions.statuses method = [200] := by
      rw [Route.statuses]
      exact posts
    obtain ⟨answer, listing, status⟩ := listed.list_ok
    rw [serve]
    · rw [listing]
      exact .of_status 200 status (by simp [statuses]) (by decide)
    · exact posts

theorem answers_session (listed : svc.Listed) (fits : ¬ svc.Breaks r (.session name)) :
    (Route.session name).Answers r.method (svc.serve (.session name) r.method r.body).1 := by
  by_cases deletes : r.method = "DELETE"
  · rw [deletes, serve, deleteSession]
    split
    · exact .of_status 204 rfl (by simp [Route.statuses]) (by decide)
    · exact .of_status 404 rfl (by simp [Route.statuses]) (by decide)
  · have statuses : (Route.session name).statuses r.method = [200, 404] := by
      rw [Route.statuses]
      exact deletes
    rw [serve_session deletes]
    refine onSession_answers listed (by simp [statuses]) fun lines precision strict loaded => ?_
    cases shown : StoredSession.view ⟨.texts lines, precision, strict⟩ svc.rates name with
    | error f =>
      exact (fits (.view deletes loaded (StoredSession.view_error_iff.mp shown))).elim
    | ok answer =>
      refine ⟨answer, none, rfl, ?_, by simp⟩
      exact .of_status 200 (StoredSession.view_status shown) (by simp [statuses]) (by decide)

theorem answers_settings (listed : svc.Listed) (fits : ¬ svc.Breaks r (.settings name)) :
    (Route.settings name).Answers r.method (svc.serve (.settings name) r.method r.body).1 := by
  rw [serve]
  refine onSession_answers listed (by simp [Route.statuses])
    fun lines precision strict loaded => ?_
  cases configured : StoredSession.configure ⟨.texts lines, precision, strict⟩ r.body with
  | error f =>
    obtain ⟨-, j, body, truthy, noObject⟩ := StoredSession.configure_error_iff.mp configured
    exact (fits (.settings loaded body truthy noObject)).elim
  | ok done =>
    obtain ⟨answer, _ | changed⟩ := done
    · refine ⟨answer, none, rfl, ?_, by simp⟩
      exact .of_status 400 (StoredSession.configure_refused configured)
        (by simp [Route.statuses]) (by decide)
    · obtain ⟨kept, p, rfl, -⟩ := StoredSession.configure_left configured
      refine ⟨_, some changed, rfl,
        .of_status 200 rfl (by simp [Route.statuses]) (by decide), ?_⟩
      rintro _ ⟨⟩
      exact ⟨lines, kept⟩

theorem answers_calculateIn (listed : svc.Listed) (returns : svc.Evaluates r (.calculateIn name))
    (fits : ¬ svc.Breaks r (.calculateIn name)) :
    (Route.calculateIn name).Answers r.method
      (svc.serve (.calculateIn name) r.method r.body).1 := by
  rw [serve]
  refine onQuery_answers (by simp [Route.statuses])
    (fun j body unaskable => fits (.calculateIn body unaskable)) fun query members read => ?_
  refine onSession_answers listed (by simp [Route.statuses])
    fun lines precision strict loaded => ?_
  cases calculated : StoredSession.calculate ⟨.texts lines, precision, strict⟩ svc.rates query with
  | error f =>
    have unbuilt := (StoredSession.calculate_error_iff fun s built =>
      returns query members _ s read loaded built).mp calculated
    exact (fits (.replay read loaded unbuilt)).elim
  | ok done =>
    obtain ⟨answer, _ | changed⟩ := done
    · refine ⟨answer, none, rfl, ?_, by simp⟩
      exact .of_status 400 (StoredSession.calculate_refused calculated)
        (by simp [Route.statuses]) (by decide)
    · obtain ⟨status, push, -⟩ := StoredSession.calculate_left calculated
      refine ⟨answer, some changed, rfl,
        .of_status 200 status (by simp [Route.statuses]) (by decide), ?_⟩
      rintro _ ⟨⟩
      exact ⟨_, (Except.ok.inj push).symm⟩

/-- A request that does not break has an answer of its route. -/
theorem answers_serve (listed : svc.Listed) (returns : svc.Evaluates r route)
    (fits : ¬ svc.Breaks r route) :
    route.Answers r.method (svc.serve route r.method r.body).1 := by
  cases route with
  | calculate => exact answers_calculate returns fits
  | sessions => exact answers_sessions listed r.method r.body
  | session name => exact answers_session listed fits
  | settings name => exact answers_settings listed fits
  | calculateIn name => exact answers_calculateIn listed returns fits
  | rate source target =>
    rw [serve, tellRate]
    dsimp only
    split
    · exact .of_status 404 rfl (by simp [Route.statuses]) (by decide)
    · exact .of_status 200 rfl (by simp [Route.statuses]) (by decide)
  | fixedFile => exact .of_status 404 rfl (by simp [Route.statuses]) (by decide)

/-! ## Requests one after another -/

/-- Every request that a route takes is answered by the route, exactly if it does not break. -/
theorem Listed.answers_handle_iff (listed : svc.Listed)
    (found : Route.ofPath? (pathOfTarget r.target) = some route)
    (taken : route.takes r.method = true) (usual : r.method ≠ "OPTIONS")
    (returns : svc.Evaluates r route) :
    (route.Answers r.method (svc.handle r).1 ↔ ¬ svc.Breaks r route) ∧
      (svc.Breaks r route → (svc.handle r).1 = .bare 500) := by
  have handled : (svc.handle r).1 =
      if r.method = "HEAD" then .bare (svc.serve route r.method r.body).1.status
      else (svc.serve route r.method r.body).1 := by
    rw [Service.handle]
    simp only [found, taken, usual, Bool.not_true, Bool.false_eq_true, if_false, beq_iff_eq]
  have broken (breaks : svc.Breaks r route) : (svc.handle r).1 = .bare 500 := by
    rw [handled, serve_of_breaks listed breaks]
    exact ite_self _
  refine ⟨⟨?_, ?_⟩, broken⟩
  · intro answers breaks
    rw [broken breaks] at answers
    exact route.not_answers_bare r.method answers
  · intro fits
    have answers := answers_serve listed returns fits
    rw [handled]
    split
    · next head =>
      -- The routes that take this method do not fail.
      have noFailure : 500 ∉ route.statuses r.method := by
        rw [head] at taken ⊢
        exact Route.failure_not_mem_statuses taken
      exact .of_status _ rfl answers.status fun failed => noFailure (failed ▸ answers.status)
    · exact answers

/-- Stored lines can always be evaluated anew, as long as strict mode is only turned on where their
names have values. -/
theorem ReplaysCleanly.handleAll (clean : svc.ReplaysCleanly) {requests : List Request}
    (known : ∀ earlier r, earlier ++ [r] <+: requests →
      (svc.handleAll earlier).2.StrictOnlyKnown r) : (svc.handleAll requests).2.ReplaysCleanly := by
  induction requests using List.reverseRecOn with
  | nil => exact clean
  | append_singleton earlier r ih =>
    rw [handleAll_append_singleton]
    have before := ih fun first q isPrefix =>
      known first q (isPrefix.trans (List.prefix_append _ _))
    exact (replaysCleanly_handle_iff before r).mpr (known earlier r (List.prefix_refl _))

/-- After any requests, a request that a route takes and whose line has a value is answered by the
route exactly if it does not break; one that breaks is answered with nothing but the status 500. No
request breaks for the stored lines unless strict mode was turned on where a line uses a name
without a value. -/
theorem answers_unless_breaks (rates : RateTable) (missing : Bool) (requests : List Request) :
    let after := fun earlier => (({ store := { missing }, rates } : Service).handleAll earlier).2
    let svc := after requests
    (∀ r route, Route.ofPath? (pathOfTarget r.target) = some route → route.takes r.method = true →
      r.method ≠ "OPTIONS" → svc.Evaluates r route →
      (route.Answers r.method (svc.handle r).1 ↔ ¬ svc.Breaks r route) ∧
        (svc.Breaks r route → (svc.handle r).1 = .bare 500)) ∧
    ((∀ earlier r, earlier ++ [r] <+: requests → (after earlier).StrictOnlyKnown r) →
      ∀ name stored, svc.store.load name = .ok (some stored) →
        ∃ s, stored.rebuild svc.rates = .ok s) := by
  intro after svc
  have empty : ({ store := { missing }, rates } : Service).Listed := List.forall_mem_nil _
  have listed : svc.Listed := empty.handleAll requests
  refine ⟨fun r route => listed.answers_handle_iff, ?_⟩
  intro known name stored loaded
  have clean : svc.ReplaysCleanly := (replaysCleanly_of_empty rfl).handleAll known
  obtain ⟨-, s, built, -⟩ := clean name stored (clean.of_load loaded)
  exact ⟨s, built⟩

end Service

/-- A line for a new session is answered. -/
theorem answers_unless_breaks_exLine :
    let svc := (({ store := {}, rates := [] } : Service).handleAll [exCreate]).2
    (Route.calculateIn "s1").Answers "POST" (svc.handle (exRequest "2")).1 := by
  intro svc
  have made : svc = { store := { sessions := [("s1", {})], created := 1 }, rates := [] } :=
    handle_exCreate
  have asks : (exRequest "2").Asks "s1" "2" := exRequest_asks (by decide +kernel) rfl
  have stored (found : StoredSession) (loaded : svc.store.load "s1" = .ok (some found)) :
      found = {} := by
    rw [made] at loaded
    exact (Option.some.inj (Except.ok.inj loaded)).symm
  have returns : svc.Evaluates (exRequest "2") (.calculateIn "s1") := by
    intro query members found s read loaded built
    obtain ⟨members', read'⟩ := Service.queryOf_of_asks asks
    cases read'.symm.trans read
    obtain rfl := stored found loaded
    cases built
    rw [made]
    exact ⟨_, _, eval_exNumber⟩
  have fits : ¬ svc.Breaks (exRequest "2") (.calculateIn "s1") := by
    intro breaks
    cases breaks with
    | calculateIn body unaskable =>
      cases body
      cases unaskable
    | replay read loaded unbuilt =>
      obtain rfl := stored _ loaded
      cases unbuilt
  exact ((Service.answers_unless_breaks [] false [exCreate]).1 (exRequest "2") (.calculateIn "s1")
    asks.route rfl (by decide) returns).1.mpr fits

/-- A number as a body cannot be asked for a line: the request, without a line to evaluate, is not
answered by its route. -/
theorem number_as_body_breaks :
    let svc : Service := { store := {}, rates := [] }
    let r : Request := { method := "POST", target := "/calculate", body := some (.integer 5) }
    Route.ofPath? (pathOfTarget r.target) = some .calculate ∧ svc.Evaluates r .calculate ∧
      (svc.handle r).1 = .bare 500 ∧ ¬ Route.calculate.Answers r.method (svc.handle r).1 := by
  intro svc r
  have found : Route.ofPath? (pathOfTarget r.target) = some .calculate := by decide +kernel
  have returns : svc.Evaluates r .calculate := by
    intro query members read
    cases read
  have listed : svc.Listed := List.forall_mem_nil _
  have spec := listed.answers_handle_iff found rfl (by decide) returns
  have breaks : svc.Breaks r .calculate := .calculate rfl (.integer (by decide))
  exact ⟨found, returns, spec.2 breaks, fun answers => spec.1.mp answers breaks⟩

end LineCalc
