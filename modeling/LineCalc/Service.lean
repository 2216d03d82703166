import LineCalc.Rates.Cache
import LineCalc.Service.Route
import LineCalc.Session.Totals
import LineCalc.SessionStore

/-!
# The service

Requests over HTTP: lines are evaluated by themselves or in a stored session, and sessions are
made, shown, changed and removed. Each request loads what it needs from the store, works on that,
and saves at most one session; a session is rebuilt from its lines every time.

A request that is refused is answered with the reason. A fault has no answer but the status 500.
-/

namespace LineCalc

/-- The answer to a request. -/
structure Response where
  status : Nat
  /-- Nothing where the answer is no JSON. -/
  body : Option Json

/-- A request. Its body is there only if it is JSON. -/
structure Request where
  method : String
  target : String
  body : Option Json := none

/-- What requests work on. -/
structure Service where
  store : SessionStore
  rates : RateTable

/-! ## Answers -/

/-- An answer with some members. -/
def Response.ofMembers (status : Nat) (members : List (String × Json)) : Response :=
  ⟨status, some (.object members)⟩

/-- An answer that says what is wrong. -/
def Response.refusal (status : Nat) (message : String) : Response :=
  .ofMembers status [("error", .string message)]

/-- An answer without a body. -/
def Response.bare (status : Nat) : Response := ⟨status, none⟩

/-- The answer to a fault. -/
def Response.ofFault (_ : Fault) : Response := .bare 500

/-- The answer where a session cannot be found. -/
def Response.noSession (name : String) : Response :=
  .refusal 404 s!"Session '{name}' not found or failed to load"

/-- The answer where a session cannot be saved. -/
def Response.notSaved : Response := .refusal 500 "Failed to save session"

/-- A value as it is described in answers. -/
def Session.describe (s : Session) (v : Value) : Except Fault Json :=
  (s.format v).map fun shown => .object (v.describe shown)

/-! ## Bodies -/

/-- The JSON value of a body. A mark of the byte order before it does not matter. -/
def bodyOfText (text : String) : Option Json :=
  let text := match text.toList with
    | '\ufeff' :: rest => String.ofList rest
    | _ => text
  (Json.read text).toOption

/-- A text occurs within another. -/
def occursIn (part : List Char) : List Char → Bool
  | [] => part.isEmpty
  | c :: cs => part.isPrefixOf (c :: cs) || occursIn part cs

/-- The line to be evaluated from a body: what stands under its key, as text without blanks around
it. A body without the key is refused; one that is no object and yet has it, or cannot have it, is a
fault. -/
def queryOf (body : Option Json) : Except Fault (Except Response (String × List (String × Json))) :=
  let missing : Except Response (String × List (String × Json)) :=
    .error (.refusal 400 "Missing 'query' in JSON payload")
  match body.filter (·.truthy) with
  | none => .ok missing
  | some (.object members) =>
    match members.lookup "query" with
    | none => .ok missing
    | some j =>
      let query := Text.trim j.plainText
      .ok (if query.isEmpty then .error (.refusal 400 "Query cannot be empty")
        else .ok (query, members))
  | some (.array items) =>
    if items.any fun | .string s => s == "query" | _ => false then .error .wrongType
    else .ok missing
  | some (.string s) =>
    if occursIn "query".toList s.toList then .error .wrongType else .ok missing
  | some _ => .error .wrongType

/-! ## Lines without a session -/

/-- The statement assigns a variable. -/
def Statement.isAssignment : Statement → Bool
  | .assign .. => true
  | .empty | .comment _ | .expr _ => false

/-- Evaluates a line by itself. -/
def calculateAlone (rates : RateTable) (query : String) (members : List (String × Json)) :
    Except Fault Response := do
  let (line, _) ← Line.parse query
  if line.statement.isAssignment then
    return .refusal 400 "Variable assignments require a session. Use /sessions endpoint."
  let given := match members.lookup "precision" with
    | none | some .null => Precision.default.toJson
    | some j => j
  match ({} : Session).setPrecision given with
  | .error f => return .refusal 400 f.message
  | .ok s =>
    let (v, s) ← s.eval rates query
    match v with
    | .error p => return .refusal 400 p.message
    | v => return .ofMembers 200 [("result", ← s.describe v)]

/-! ## Lines in a session -/

/-- Evaluates a line in a stored session: the answer, and what is to be stored. -/
def StoredSession.calculate (stored : StoredSession) (rates : RateTable) (query : String) :
    Except Fault (Response × Option StoredSession) := do
  let s ← stored.rebuild rates
  let (v, s) ← s.eval rates query
  match v with
  | .error p => return (.refusal 400 p.message, none)
  | v =>
    let lines ← stored.lines.push query
    let answer ← (do
      let result ← s.describe v
      let total ← s.describe s.total
      return [("result", result), ("total", total)])
    let assigned := (s.lastLine?.bind (·.assigned)).toList.map fun name =>
      ("variable_set", Json.string name)
    return (.ofMembers 200 (answer ++ assigned), some { stored with lines })

/-- Shows a stored session. -/
def StoredSession.view (stored : StoredSession) (rates : RateTable) (name : String) :
    Except Fault Response := do
  let s ← stored.rebuild rates
  let bindings ← s.bindings.mapM fun (n, v) => (s.describe v).map (n, ·)
  let lines ← s.history.mapM fun r => (s.describe r.value).map fun result =>
    Json.object [("raw", .string r.raw), ("result", result), ("consumed", .bool r.consumed)]
  let total ← s.describe s.total
  let totals ← (s.groupedTotals rates).mapM s.describe
  return .ofMembers 200 [
    ("session_id", .string name), ("precision", s.precision.toJson), ("strict", .bool s.strict),
    ("variables", .object bindings), ("lines", .array lines), ("total", total),
    ("totals", .array totals)]

/-- Changes the settings of a stored session: the answer, and what is to be stored. What is not given
stays. -/
def StoredSession.configure (stored : StoredSession) (body : Option Json) :
    Except Fault (Response × Option StoredSession) :=
  match (body.filter (·.truthy)).getD (.object []) with
  | .object members =>
    match Precision.ofJson ((members.lookup "precision").getD (.integer stored.precision)) with
    | .error f => .ok (.refusal 400 f.message, none)
    | .ok precision =>
      let strict := ((members.lookup "strict").map (·.truthy)).getD stored.strict
      .ok (.ofMembers 200 [("precision", precision.toJson), ("strict", .bool strict)],
        some { stored with precision := precision.count, strict })
  | _ => .error .wrongShape

namespace Service

/-- Saves what a request leaves of a session. Lines that cannot be counted are found out only after
they are saved. -/
def save (svc : Service) (name : String) (answer : Response) :
    Option StoredSession → Response × Service
  | none => (answer, svc)
  | some session =>
    match svc.store.save name session with
    | none => (.notSaved, svc)
    | some store =>
      let svc := { svc with store }
      match session.lines.count with
      | .error f => (.ofFault f, svc)
      | .ok _ => (answer, svc)

/-- Works on a stored session and saves what is left of it. -/
def onSession (svc : Service) (name : String)
    (work : StoredSession → Except Fault (Response × Option StoredSession)) : Response × Service :=
  match svc.store.load name with
  | .error f => (.ofFault f, svc)
  | .ok none => (.noSession name, svc)
  | .ok (some stored) =>
    match work stored with
    | .error f => (.ofFault f, svc)
    | .ok (answer, left) => svc.save name answer left

/-- Works on the line in a body. -/
def onQuery (svc : Service) (body : Option Json)
    (work : String → List (String × Json) → Response × Service) : Response × Service :=
  match queryOf body with
  | .error f => (.ofFault f, svc)
  | .ok (.error answer) => (answer, svc)
  | .ok (.ok (query, members)) => work query members

/-- The answer that something comes to. -/
def answered (svc : Service) (answer : Except Fault Response) : Response × Service :=
  match answer with
  | .ok r => (r, svc)
  | .error f => (.ofFault f, svc)

/-- Makes a new session. -/
def createSession (svc : Service) : Response × Service :=
  match svc.store.create with
  | (some name, store) =>
    (.ofMembers 201 [("session_id", .string name)], { svc with store })
  | (none, store) => (.refusal 500 "Failed to create session", { svc with store })

/-- Lists the sessions. -/
def listSessions (svc : Service) : Except Fault Response :=
  svc.store.list.map fun found =>
    ⟨200, some (.array (found.map fun (name, count) =>
      .object [("session_id", .string name), ("lines", .integer count)]))⟩

/-- Removes a session. -/
def deleteSession (svc : Service) (name : String) : Response × Service :=
  match svc.store.delete name with
  | some store => (.bare 204, { svc with store })
  | none => (.refusal 404 s!"Failed to delete session '{name}' (may not exist)", svc)

/-- Tells a rate. -/
def tellRate (svc : Service) (source target : String) : Response :=
  let upperSource := Text.upper source
  let upperTarget := Text.upper target
  match svc.rates.rate? source target with
  | none => .refusal 404 s!"No rate available for {upperSource} to {upperTarget}"
  | some rate => .ofMembers 200 [("from", .string upperSource), ("to", .string upperTarget),
    ("rate", .decimal rate)]

/-- Serves a route by a method that it takes. -/
def serve (svc : Service) (route : Route) (method : String) (body : Option Json) :
    Response × Service :=
  match route, method with
  | .calculate, _ => svc.onQuery body fun query members =>
    svc.answered (calculateAlone svc.rates query members)
  | .sessions, "POST" => svc.createSession
  | .sessions, _ => svc.answered svc.listSessions
  | .session name, "DELETE" => svc.deleteSession name
  | .session name, _ => svc.onSession name fun stored =>
    (stored.view svc.rates name).map (·, none)
  | .settings name, _ => svc.onSession name (·.configure body)
  | .calculateIn name, _ => svc.onQuery body fun query _ =>
    svc.onSession name (·.calculate svc.rates query)
  | .rate source target, _ => (svc.tellRate source target, svc)
  | .fixedFile, _ => (.bare 404, svc)

/-- Handles a request. A path with doubled slashes is sent on to the one without. -/
def handle (svc : Service) (r : Request) : Response × Service :=
  let path := pathOfTarget r.target
  match Route.ofPath? path with
  | some route =>
    if !route.takes r.method then (.bare 405, svc)
    else if r.method == "OPTIONS" then (.bare 200, svc)
    else
      let (answer, svc) := svc.serve route r.method r.body
      (if r.method == "HEAD" then .bare answer.status else answer, svc)
  | none =>
    match Route.ofPath? (String.ofList (mergeSlashes path.toList)) with
    | some route => (.bare (if route.takes r.method then 308 else 405), svc)
    | none => (.bare 404, svc)

end Service

end LineCalc
