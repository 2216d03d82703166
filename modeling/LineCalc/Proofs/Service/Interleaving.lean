import LineCalc.Proofs.Service.Settings

/-!
# Requests to one session at the same time

A line or a change of settings for a stored session is served in two steps: the session is loaded and
worked on, and what is left of it is saved as a whole. Nothing keeps the steps of other requests from
coming in between. What they save there is overwritten, though they have been answered.

The steps of any number of requests are a list of turns. `Made` is what requests come to one after
another, and at every moment the stored session is made by some of the requests, in the order in
which they have saved.

Results:
1. `Concurrent.turn_load_save`: without turns in between a request is served as by the service.
2. `Concurrent.Sound.turn`: what every turn preserves.
3. `Concurrent.kept_unless_overwritten`: what is stored after any turns, and which of the requests
   that were answered are part of it.
-/

namespace LineCalc

/-! ## Requests in two steps -/

/-- A request to a stored session. -/
inductive SessionRequest
  /-- Evaluates a line in the session. -/
  | calculate (body : Option Json)
  /-- Changes the settings of the session. -/
  | configure (body : Option Json)

namespace SessionRequest

def body : SessionRequest → Option Json
  | .calculate body | .configure body => body

def route (name : String) : SessionRequest → Route
  | .calculate _ => .calculateIn name
  | .configure _ => .settings name

/-- The request changes the settings. -/
def Configures : SessionRequest → Prop
  | .calculate _ => False
  | .configure _ => True

/-- The line that the request evaluates. -/
def query? : SessionRequest → Option String
  | .calculate body =>
    match queryOf body with
    | .ok (.ok (query, _)) => some query
    | _ => none
  | .configure _ => none

/-- What the request does with the stored session once it is loaded, or the answer where it does not
get that far. -/
def work (rates : RateTable) :
    SessionRequest → Except Response (StoredSession → Except Fault (Response × Option StoredSession))
  | .calculate body =>
    match queryOf body with
    | .error f => .error (.ofFault f)
    | .ok (.error answer) => .error answer
    | .ok (.ok (query, _)) => .ok (·.calculate rates query)
  | .configure body => .ok (·.configure body)

end SessionRequest

/-- How far a request has come. -/
inductive Progress
  | waiting
  /-- The session was loaded, and this is to be saved before the answer is given. -/
  | holding (answer : Response) (left : StoredSession)
  | answered (answer : Response)

/-- The first step of a request: it loads the session and works on it. -/
def Service.begin (svc : Service) (name : String) (r : SessionRequest) : Progress :=
  match r.work svc.rates with
  | .error answer => .answered answer
  | .ok work =>
    match svc.store.load name with
    | .error f => .answered (.ofFault f)
    | .ok none => .answered (.noSession name)
    | .ok (some stored) =>
      match work stored with
      | .error f => .answered (.ofFault f)
      | .ok (answer, none) => .answered answer
      | .ok (answer, some left) => .holding answer left

/-- A service and how far the requests to one of its sessions have come. -/
structure Concurrent (ι : Type) where
  svc : Service
  progress : ι → Progress

/-- The next step of a request. -/
inductive Turn (ι : Type)
  | load (i : ι)
  | save (i : ι)
deriving DecidableEq

namespace Concurrent

variable {ι : Type} [DecidableEq ι]

/-- The requests before the first turn. -/
def start (svc : Service) : Concurrent ι := ⟨svc, fun _ => .waiting⟩

/-- One turn. A request whose turn it is not to load or to save stays where it is. -/
def turn (name : String) (requests : ι → SessionRequest) (c : Concurrent ι) :
    Turn ι → Concurrent ι
  | .load i =>
    match c.progress i with
    | .waiting => { c with progress := Function.update c.progress i (c.svc.begin name (requests i)) }
    | _ => c
  | .save i =>
    match c.progress i with
    | .holding answer left =>
      let (answer, svc) := c.svc.save name answer (some left)
      ⟨svc, Function.update c.progress i (.answered answer)⟩
    | _ => c

/-- Turns one after another. -/
def run (name : String) (requests : ι → SessionRequest) (c : Concurrent ι)
    (turns : List (Turn ι)) : Concurrent ι :=
  turns.foldl (turn name requests) c

/-- The request is answered with the status 200. -/
def Succeeded (c : Concurrent ι) (i : ι) : Prop :=
  ∃ answer, c.progress i = .answered answer ∧ answer.status = 200

/-- What a request saved is overwritten by another that had loaded the session before. -/
def Overwritten (c : Concurrent ι) (turns : List (Turn ι)) (i : ι) : Prop :=
  ∃ j, c.Succeeded j ∧ [.load j, .save i, .save j].Sublist turns

end Concurrent

/-! ## What a request leaves -/

/-- The answer to a change of settings tells those that are stored. A truth value as precision is
stored as its number. -/
def Response.TellsSettings (answer : Response) (stored : StoredSession) : Prop :=
  ∃ p : Precision, answer = .ofMembers 200
      [("precision", p.toJson), ("strict", .bool stored.strict)] ∧ stored.precision = p.count

namespace StoredSession

variable {rates : RateTable} {stored left : StoredSession} {query : String} {body : Option Json}
variable {answer : Response}

theorem calculate_left (done : stored.calculate rates query = .ok (answer, some left)) :
    answer.status = 200 ∧ stored.lines.push query = .ok left.lines ∧
      left.precision = stored.precision ∧ left.strict = stored.strict := by
  obtain ⟨s, -, done⟩ := bind_ok_iff.mp done
  obtain ⟨⟨v, t⟩, -, done⟩ := bind_ok_iff.mp done
  cases v with
  | error p => cases done
  | empty | amount =>
    obtain ⟨pushed, push, done⟩ := bind_ok_iff.mp done
    obtain ⟨told, -, done⟩ := bind_ok_iff.mp done
    cases done
    exact ⟨rfl, push, rfl, rfl⟩

theorem calculate_refused (done : stored.calculate rates query = .ok (answer, none)) :
    answer.status = 400 := by
  obtain ⟨s, -, done⟩ := bind_ok_iff.mp done
  obtain ⟨⟨v, t⟩, -, done⟩ := bind_ok_iff.mp done
  cases v with
  | error p =>
    cases done
    rfl
  | empty | amount =>
    obtain ⟨pushed, -, done⟩ := bind_ok_iff.mp done
    obtain ⟨told, -, done⟩ := bind_ok_iff.mp done
    cases done

theorem configure_left (done : stored.configure body = .ok (answer, some left)) :
    left.lines = stored.lines ∧ answer.TellsSettings left := by
  unfold configure at done
  split at done
  · split at done
    · cases done
    · next precision _ =>
      cases done
      exact ⟨rfl, precision, rfl, rfl⟩
  · cases done

theorem configure_refused (done : stored.configure body = .ok (answer, none)) :
    answer.status = 400 := by
  unfold configure at done
  split at done
  · split at done
    · cases done
      rfl
    · cases done
  · cases done

end StoredSession

theorem queryOf_refused {body : Option Json} {answer : Response}
    (refused : queryOf body = .ok (.error answer)) : answer.status = 400 := by
  unfold queryOf at refused
  dsimp only at refused
  split at refused
  · cases refused
    rfl
  · split at refused
    · cases refused
      rfl
    · split at refused
      · cases refused
        rfl
      · cases refused
  · split at refused
    · cases refused
    · cases refused
      rfl
  · split at refused
    · cases refused
    · cases refused
      rfl
  · cases refused

namespace SessionRequest

variable {rates : RateTable} {r : SessionRequest} {stored left : StoredSession}
variable {work : StoredSession → Except Fault (Response × Option StoredSession)}
variable {answer : Response}

/-- A request that works on the session evaluates its line in it or changes its settings. -/
theorem work_cases (eq : r.work rates = .ok work) :
    (∃ query, ¬ r.Configures ∧ r.query? = some query ∧ work = (·.calculate rates query)) ∨
      ∃ body, r = .configure body ∧ work = (·.configure body) := by
  cases r with
  | calculate body =>
    simp only [SessionRequest.work] at eq
    split at eq
    · cases eq
    · cases eq
    · next query _ read =>
      cases eq
      exact .inl ⟨query, id, by simp only [query?, read], rfl⟩
  | configure body => exact .inr ⟨body, rfl, (Except.ok.inj eq).symm⟩

/-- A request that does not get to the session is not answered with the status 200. -/
theorem work_error (eq : r.work rates = .error answer) : answer.status ≠ 200 := by
  cases r with
  | calculate body =>
    simp only [SessionRequest.work] at eq
    split at eq
    · cases eq
      show 500 ≠ 200
      decide
    · next refused =>
      cases eq
      rw [queryOf_refused refused]
      decide
    · cases eq
  | configure body => cases eq

theorem work_refused (eq : r.work rates = .ok work) (done : work stored = .ok (answer, none)) :
    answer.status = 400 := by
  rcases work_cases eq with ⟨query, -, -, rfl⟩ | ⟨body, -, rfl⟩
  · exact StoredSession.calculate_refused done
  · exact StoredSession.configure_refused done

theorem work_status (eq : r.work rates = .ok work) (done : work stored = .ok (answer, some left)) :
    answer.status = 200 := by
  rcases work_cases eq with ⟨query, -, -, rfl⟩ | ⟨body, -, rfl⟩
  · exact (StoredSession.calculate_left done).1
  · obtain ⟨p, rfl, -⟩ := (StoredSession.configure_left done).2
    rfl

/-- A request adds its line to the lines, if it has one. -/
theorem work_lines {lines : List String} (texts : stored.lines = .texts lines)
    (eq : r.work rates = .ok work) (done : work stored = .ok (answer, some left)) :
    left.lines = .texts (lines ++ r.query?.toList) := by
  rcases work_cases eq with ⟨query, -, asked, rfl⟩ | ⟨body, rfl, rfl⟩
  · have push := (StoredSession.calculate_left done).2.1
    rw [texts] at push
    rw [asked]
    exact (Except.ok.inj push).symm
  · rw [(StoredSession.configure_left done).1, texts]
    exact congrArg _ (List.append_nil lines).symm

/-- Only a change of settings changes the settings. -/
theorem work_settings (lined : ¬ r.Configures) (eq : r.work rates = .ok work)
    (done : work stored = .ok (answer, some left)) :
    left.precision = stored.precision ∧ left.strict = stored.strict := by
  rcases work_cases eq with ⟨query, -, -, rfl⟩ | ⟨body, rfl, rfl⟩
  · exact (StoredSession.calculate_left done).2.2
  · exact absurd trivial lined

theorem work_tells (configures : r.Configures) (eq : r.work rates = .ok work)
    (done : work stored = .ok (answer, some left)) : answer.TellsSettings left := by
  rcases work_cases eq with ⟨query, lined, -, rfl⟩ | ⟨body, rfl, rfl⟩
  · exact absurd configures lined
  · exact (StoredSession.configure_left done).2

end SessionRequest

/-! ## Requests one after another -/

section

variable {ι : Type} {rates : RateTable} {requests : ι → SessionRequest}
variable {first stored left : StoredSession} {log : List (ι × Response)}

/-- What requests come to one after another, if each of them leaves something to be saved, with their
answers. -/
inductive Made (rates : RateTable) (requests : ι → SessionRequest) (first : StoredSession) :
    List (ι × Response) → StoredSession → Prop
  | start : Made rates requests first [] first
  | next {log : List (ι × Response)} {stored left : StoredSession} {i : ι} {answer : Response}
      {work : StoredSession → Except Fault (Response × Option StoredSession)} :
      Made rates requests first log stored → (requests i).work rates = .ok work →
      work stored = .ok (answer, some left) →
      Made rates requests first (log ++ [(i, answer)]) left

namespace Made

theorem status (made : Made rates requests first log stored) : ∀ e ∈ log, e.2.status = 200 := by
  induction made with
  | start =>
    intro e mem
    cases mem
  | next _ eq done ih =>
    intro e mem
    rcases List.mem_append.mp mem with earlier | last
    · exact ih e earlier
    · rw [List.mem_singleton.mp last]
      exact SessionRequest.work_status eq done

/-- The lines of the requests stand behind those of the beginning. -/
theorem lines {lines : List String} (texts : first.lines = .texts lines)
    (made : Made rates requests first log stored) :
    stored.lines = .texts (lines ++ (log.map (·.1)).filterMap fun i => (requests i).query?) := by
  induction made with
  | start => rw [texts, List.map_nil, List.filterMap_nil, List.append_nil]
  | @next log stored left i answer work made eq done ih =>
    rw [SessionRequest.work_lines ih eq done, List.map_append, List.filterMap_append,
      List.append_assoc]
    cases query : (requests i).query? <;> simp [query]

/-- Lines leave the settings as they are. -/
theorem settings_append {earlier later : List (ι × Response)}
    (lined : ∀ e ∈ later, ¬ (requests e.1).Configures)
    (made : Made rates requests first (earlier ++ later) stored) :
    ∃ before, Made rates requests first earlier before ∧ stored.precision = before.precision ∧
      stored.strict = before.strict := by
  induction later using List.reverseRecOn generalizing stored with
  | nil => exact ⟨stored, by simpa using made, rfl, rfl⟩
  | append_singleton later e ih =>
    rw [← List.append_assoc] at made
    generalize whole : earlier ++ later ++ [e] = log at made
    cases made with
    | start => simp at whole
    | @next _ mid _ i answer work made eq done =>
      obtain ⟨rfl, last⟩ := List.append_inj' whole rfl
      obtain rfl := List.singleton_inj.mp last
      have same := SessionRequest.work_settings (lined (i, answer) (by simp)) eq done
      obtain ⟨before, made, precision, strict⟩ := ih (fun e mem => lined e (by simp [mem])) made
      exact ⟨before, made, same.1.trans precision, same.2.trans strict⟩

/-- The settings are those of the last request that changed them. -/
theorem tells {earlier later : List (ι × Response)} {i : ι} {answer : Response}
    (configures : (requests i).Configures) (lined : ∀ e ∈ later, ¬ (requests e.1).Configures)
    (made : Made rates requests first (earlier ++ (i, answer) :: later) stored) :
    answer.TellsSettings stored := by
  rw [List.append_cons] at made
  obtain ⟨before, made, precision, strict⟩ := made.settings_append lined
  generalize whole : earlier ++ [(i, answer)] = log at made
  cases made with
  | start => simp at whole
  | next made eq done =>
    obtain ⟨rfl, last⟩ := List.append_inj' whole rfl
    obtain ⟨rfl, rfl⟩ := Prod.mk.inj (List.singleton_inj.mp last)
    obtain ⟨p, told, count⟩ := SessionRequest.work_tells configures eq done
    exact ⟨p, by rw [told, strict], precision.trans count⟩

end Made

end

/-! ## Steps of the service -/

namespace Service

variable {svc : Service} {name : String} {r : SessionRequest} {stored left : StoredSession}
variable {lines : List String}

theorem save_texts (name : String) (present : svc.store.missing = false)
    (texts : left.lines = .texts lines) (answer : Response) : svc.save name answer (some left) =
      (answer, { svc with store := { svc.store with
        sessions := svc.store.sessions.set name left } }) := by
  rw [save_of_present present, texts, StoredLines.count]

theorem load_texts (present : svc.store.missing = false)
    (found : svc.store.sessions.lookup name = some stored) (texts : stored.lines = .texts lines) :
    svc.store.load name = .ok (some stored) := by
  rw [SessionStore.load, present, found]
  dsimp only
  rw [texts]
  rfl

/-- What the first step of a request comes to. -/
theorem begin_cases (loaded : svc.store.load name = .ok (some stored)) :
    (∃ answer, svc.begin name r = .answered answer ∧ answer.status ≠ 200) ∨
      ∃ work answer left, svc.begin name r = .holding answer left ∧ r.work svc.rates = .ok work ∧
        work stored = .ok (answer, some left) := by
  unfold Service.begin
  split
  · next answer eq => exact .inl ⟨answer, rfl, SessionRequest.work_error eq⟩
  · next work eq =>
    rw [loaded]
    dsimp only
    split
    · next f _ =>
      refine .inl ⟨.ofFault f, rfl, ?_⟩
      show 500 ≠ 200
      decide
    · next answer done =>
      refine .inl ⟨answer, rfl, ?_⟩
      rw [SessionRequest.work_refused eq done]
      decide
    · next answer left done => exact .inr ⟨work, answer, left, rfl, eq, done⟩

/-- The service serves a request by its first step and, where that leaves something, saving it. -/
theorem serve_cases (svc : Service) (name method : String) (r : SessionRequest) :
    (∃ answer, svc.begin name r = .answered answer ∧
      svc.serve (r.route name) method r.body = (answer, svc)) ∨
    ∃ answer left, svc.begin name r = .holding answer left ∧
      svc.serve (r.route name) method r.body = svc.save name answer (some left) := by
  have served : svc.serve (r.route name) method r.body =
      match r.work svc.rates with
      | .error answer => (answer, svc)
      | .ok work => svc.onSession name work := by
    cases r with
    | calculate body =>
      show svc.onQuery body _ = _
      unfold onQuery SessionRequest.work
      dsimp only
      cases queryOf body with
      | error f => rfl
      | ok read => cases read <;> rfl
    | configure body => rfl
  rw [served]
  unfold Service.begin onSession
  cases r.work svc.rates with
  | error answer => exact .inl ⟨answer, rfl, rfl⟩
  | ok work =>
    dsimp only
    cases svc.store.load name with
    | error f => exact .inl ⟨_, rfl, rfl⟩
    | ok found =>
      cases found with
      | none => exact .inl ⟨_, rfl, rfl⟩
      | some stored =>
        dsimp only
        cases work stored with
        | error f => exact .inl ⟨_, rfl, rfl⟩
        | ok result =>
          obtain ⟨answer, left⟩ := result
          cases left with
          | none => exact .inl ⟨answer, rfl, rfl⟩
          | some left => exact .inr ⟨answer, left, rfl, rfl⟩

end Service

/-! ## Turns -/

namespace Concurrent

variable {ι : Type} [DecidableEq ι] {name : String} {requests : ι → SessionRequest}
variable {rates : RateTable} {c : Concurrent ι} {turns : List (Turn ι)} {t : Turn ι} {i j k : ι}
variable {answer : Response} {first stored left : StoredSession} {log : List (ι × Response)}

theorem turn_load (name : String) (requests : ι → SessionRequest)
    (waiting : c.progress i = .waiting) : c.turn name requests (.load i) =
    { c with progress := Function.update c.progress i (c.svc.begin name (requests i)) } := by
  rw [turn, waiting]

theorem turn_save (name : String) (requests : ι → SessionRequest)
    (holding : c.progress i = .holding answer left) :
    c.turn name requests (.save i) =
      ⟨(c.svc.save name answer (some left)).2,
        Function.update c.progress i (.answered (c.svc.save name answer (some left)).1)⟩ := by
  rw [turn, holding]

/-- A request with no turns of others between its own is served as by the service. -/
theorem turn_load_save (waiting : c.progress i = .waiting) (method : String) :
    let done := (c.turn name requests (.load i)).turn name requests (.save i)
    let served := c.svc.serve ((requests i).route name) method (requests i).body
    done.progress i = .answered served.1 ∧ done.svc = served.2 := by
  intro done served
  have loaded := turn_load name requests waiting
  rcases c.svc.serve_cases name method (requests i) with
    ⟨answer, begun, eq⟩ | ⟨answer, left, begun, eq⟩
  · have same : done = c.turn name requests (.load i) := by
      show (c.turn name requests (.load i)).turn name requests (.save i) = _
      rw [loaded, turn, begun]
      simp
    rw [same, loaded, begun, show served = _ from eq]
    exact ⟨Function.update_self .., rfl⟩
  · have holding : (c.turn name requests (.load i)).progress i = .holding answer left := by
      rw [loaded, begun]
      exact Function.update_self ..
    have saved : done = _ := turn_save name requests holding
    rw [saved, loaded, show served = _ from eq]
    exact ⟨Function.update_self .., rfl⟩

/-! ## What turns preserve -/

/-- An answer that was given stays given. -/
theorem answered_turn (name : String) (requests : ι → SessionRequest)
    (answered : c.progress k = .answered answer) (t : Turn ι) :
    (c.turn name requests t).progress k = .answered answer := by
  have other {i : ι} {p : Progress} (unlike : c.progress i ≠ .answered answer) :
      Function.update c.progress i p k = .answered answer := by
    rw [Function.update_of_ne, answered]
    rintro rfl
    exact unlike answered
  unfold turn
  split
  · split
    · next waiting => exact other (by rw [waiting]; nofun)
    · exact answered
  · split
    · next holding => exact other (by rw [holding]; nofun)
    · exact answered

theorem Succeeded.turn (name : String) (requests : ι → SessionRequest)
    (succeeded : c.Succeeded k) (t : Turn ι) : (c.turn name requests t).Succeeded k := by
  obtain ⟨answer, answered, status⟩ := succeeded
  exact ⟨answer, answered_turn name requests answered t, status⟩

theorem Overwritten.turn (lost : c.Overwritten turns k) (t : Turn ι) :
    (c.turn name requests t).Overwritten (turns ++ [t]) k := by
  obtain ⟨j, succeeded, order⟩ := lost
  exact ⟨j, succeeded.turn name requests t, order.trans (List.sublist_append_left turns [t])⟩

/-- A stored session is made by requests that have been answered and that have saved in this order.
-/
structure Based (c : Concurrent ι) (rates : RateTable) (requests : ι → SessionRequest)
    (first : StoredSession) (turns : List (Turn ι)) (log : List (ι × Response))
    (stored : StoredSession) : Prop where
  made : Made rates requests first log stored
  answered : ∀ e ∈ log, c.progress e.1 = .answered e.2
  nodup : (log.map (·.1)).Nodup
  saved : (log.map fun e => Turn.save e.1).Sublist turns

theorem Based.turn (based : c.Based rates requests first turns log stored) (t : Turn ι) :
    (c.turn name requests t).Based rates requests first (turns ++ [t]) log stored where
  made := based.made
  answered e mem := answered_turn name requests (based.answered e mem) t
  nodup := based.nodup
  saved := based.saved.trans (List.sublist_append_left turns [t])

/-- Where the requests are after some turns. -/
structure Sound (name : String) (rates : RateTable) (requests : ι → SessionRequest)
    (first : StoredSession) (turns : List (Turn ι)) (c : Concurrent ι) : Prop where
  present : c.svc.store.missing = false
  sameRates : c.svc.rates = rates
  /-- All requests that succeeded are part of what is stored, unless they are overwritten. -/
  stored : ∃ log stored, c.svc.store.sessions.lookup name = some stored ∧
    c.Based rates requests first turns log stored ∧
    ∀ k, c.Succeeded k → k ∈ log.map (·.1) ∨ c.Overwritten turns k
  /-- What a request holds is made of what was stored when it loaded the session, so that only those
  are missing from it that have saved since. -/
  holding : ∀ i answer left, c.progress i = .holding answer left → .load i ∈ turns ∧
    ∃ log stored work, c.Based rates requests first turns log stored ∧
      (requests i).work rates = .ok work ∧ work stored = .ok (answer, some left) ∧
      ∀ k, c.Succeeded k → k ∈ log.map (·.1) ∨ [.load i, .save k].Sublist turns ∨
        c.Overwritten turns k

/-- A turn that saves nothing changes at most which request holds what is stored. -/
theorem Sound.turn_of_same (sound : c.Sound name rates requests first turns)
    (same : (c.turn name requests t).svc = c.svc)
    (quiet : ∀ k, (c.turn name requests t).Succeeded k → c.Succeeded k)
    (holds : ∀ i answer left, (c.turn name requests t).progress i = .holding answer left →
      c.progress i = .holding answer left ∨ t = .load i ∧ ∀ stored,
        c.svc.store.load name = .ok (some stored) → ∃ work, (requests i).work rates = .ok work ∧
          work stored = .ok (answer, some left)) (texts : ∃ lines, first.lines = .texts lines) :
    (c.turn name requests t).Sound name rates requests first (turns ++ [t]) := by
  obtain ⟨log, stored, found, based, kept⟩ := sound.stored
  have kept' (k : ι) (succeeded : (c.turn name requests t).Succeeded k) :
      k ∈ log.map (·.1) ∨ (c.turn name requests t).Overwritten (turns ++ [t]) k :=
    (kept k (quiet k succeeded)).imp_right (·.turn t)
  refine ⟨by rw [same, sound.present], by rw [same, sound.sameRates],
    ⟨log, stored, by rw [same, found], based.turn t, kept'⟩, ?_⟩
  intro i answer left holding
  rcases holds i answer left holding with before | ⟨rfl, made⟩
  · obtain ⟨loaded, log, stored, work, based, eq, done, kept⟩ := sound.holding i answer left before
    refine ⟨List.mem_append_left _ loaded, log, stored, work, based.turn t, eq, done, ?_⟩
    intro k succeeded
    rcases kept k (quiet k succeeded) with mem | later | lost
    · exact .inl mem
    · exact .inr (.inl (later.trans (List.sublist_append_left turns [t])))
    · exact .inr (.inr (lost.turn t))
  · obtain ⟨lines, texts⟩ := texts
    obtain ⟨work, eq, done⟩ := made stored
      (Service.load_texts sound.present found (based.made.lines texts))
    refine ⟨List.mem_append_right _ (List.mem_singleton_self _), log, stored, work,
      based.turn (.load i), eq, done, ?_⟩
    intro k succeeded
    exact (kept' k succeeded).imp_right .inr

theorem Sound.load (texts : ∃ lines, first.lines = .texts lines)
    (sound : c.Sound name rates requests first turns) (waiting : c.progress i = .waiting) :
    (c.turn name requests (.load i)).Sound name rates requests first (turns ++ [.load i]) := by
  obtain ⟨log, stored, found, based, -⟩ := sound.stored
  obtain ⟨lines, texts'⟩ := texts
  have loaded := Service.load_texts sound.present found (based.made.lines texts')
  have turned := turn_load name requests waiting
  have self : (c.turn name requests (.load i)).progress i = c.svc.begin name (requests i) := by
    rw [turned]
    exact Function.update_self ..
  have other {k : ι} (ne : k ≠ i) : (c.turn name requests (.load i)).progress k = c.progress k := by
    rw [turned]
    exact Function.update_of_ne ne ..
  refine sound.turn_of_same (by rw [turned]) ?_ ?_ ⟨lines, texts'⟩
  · rintro k ⟨answer, answered, status⟩
    by_cases ne : k = i
    · rw [ne, self] at answered
      rcases Service.begin_cases loaded with ⟨answer', begun, refused⟩ | ⟨_, _, _, begun, -, -⟩
      · cases begun.symm.trans answered
        exact absurd status refused
      · cases begun.symm.trans answered
    · exact ⟨answer, (other ne).symm.trans answered, status⟩
  · intro k answer left holding
    by_cases ne : k = i
    · subst ne
      refine .inr ⟨rfl, ?_⟩
      intro stored' loaded'
      rw [self] at holding
      rcases Service.begin_cases loaded' with ⟨_, begun, -⟩ | ⟨work, _, _, begun, eq, done⟩
      · cases begun.symm.trans holding
      · cases begun.symm.trans holding
        exact ⟨work, sound.sameRates ▸ eq, done⟩
    · exact .inl ((other ne).symm.trans holding)

/-- What a request holds is stored when it saves, with all that is part of it and itself. Whatever has
been saved since it loaded the session is overwritten. -/
theorem Sound.save (texts : ∃ lines, first.lines = .texts lines)
    (sound : c.Sound name rates requests first turns) (holding : c.progress i = .holding answer left) :
    (c.turn name requests (.save i)).Sound name rates requests first (turns ++ [.save i]) := by
  obtain ⟨loaded, log, stored, work, based, eq, done, kept⟩ := sound.holding i answer left holding
  obtain ⟨lines, texts⟩ := texts
  have status := SessionRequest.work_status eq done
  have made := based.made.next eq done
  have saved := Service.save_texts name sound.present (made.lines texts) answer
  have turned := turn_save name requests holding
  rw [saved] at turned
  have self : (c.turn name requests (.save i)).progress i = .answered answer := by
    rw [turned]
    exact Function.update_self ..
  have other {k : ι} (ne : k ≠ i) : (c.turn name requests (.save i)).progress k = c.progress k := by
    rw [turned]
    exact Function.update_of_ne ne ..
  have before {k : ι} (ne : k ≠ i) (succeeded : (c.turn name requests (.save i)).Succeeded k) :
      c.Succeeded k := by
    obtain ⟨answer, answered, status⟩ := succeeded
    exact ⟨answer, (other ne).symm.trans answered, status⟩
  have fresh : i ∉ log.map (·.1) := by
    intro mem
    obtain ⟨e, mem', rfl⟩ := List.mem_map.mp mem
    cases (based.answered e mem').symm.trans holding
  have monotone (order : List (Turn ι)) (sublist : order.Sublist turns) :
      (order ++ [Turn.save i]).Sublist (turns ++ [Turn.save i]) := List.Sublist.append_right sublist _
  refine ⟨by rw [turned]; exact sound.present, by rw [turned]; exact sound.sameRates,
    ⟨log ++ [(i, answer)], left, ?_, ⟨made, ?_, ?_, ?_⟩, ?_⟩, ?_⟩
  · rw [turned]
    exact Entries.lookup_set_self ..
  · intro e mem
    rcases List.mem_append.mp mem with earlier | last
    · exact answered_turn name requests (based.answered e earlier) (.save i)
    · rw [List.mem_singleton.mp last]
      exact self
  · rw [List.map_append]
    exact List.Nodup.append based.nodup (List.nodup_singleton i) (by simpa using fresh)
  · rw [List.map_append]
    exact monotone _ based.saved
  · intro k succeeded
    by_cases ne : k = i
    · exact .inl (by simp [ne])
    · rcases kept k (before ne succeeded) with mem | later | lost
      · exact .inl (by simp only [List.map_append, List.mem_append, mem, true_or])
      · exact .inr ⟨i, ⟨answer, self, status⟩, monotone _ later⟩
      · exact .inr (lost.turn (.save i))
  · intro j answer' left' holding'
    have ne : j ≠ i := by
      rintro rfl
      cases self.symm.trans holding'
    obtain ⟨loaded', log', stored', work', based', eq', done', kept'⟩ :=
      sound.holding j answer' left' ((other ne).symm.trans holding')
    refine ⟨List.mem_append_left _ loaded', log', stored', work', based'.turn (.save i), eq', done',
      ?_⟩
    intro k succeeded
    by_cases same : k = i
    · rw [same]
      exact .inr (.inl (monotone [.load j] (List.singleton_sublist.mpr loaded')))
    · rcases kept' k (before same succeeded) with mem | later | lost
      · exact .inl mem
      · exact .inr (.inl (later.trans (List.sublist_append_left turns _)))
      · exact .inr (.inr (lost.turn (.save i)))

/-- Every turn preserves soundness. -/
theorem Sound.turn (texts : ∃ lines, first.lines = .texts lines)
    (sound : c.Sound name rates requests first turns) (t : Turn ι) :
    (c.turn name requests t).Sound name rates requests first (turns ++ [t]) := by
  have idle (same : c.turn name requests t = c) :
      (c.turn name requests t).Sound name rates requests first (turns ++ [t]) := by
    refine sound.turn_of_same (by rw [same]) ?_ ?_ texts
    · rw [same]
      exact fun k succeeded => succeeded
    · rw [same]
      exact fun i answer left holding => .inl holding
  cases t with
  | load i =>
    cases waiting : c.progress i with
    | waiting => exact sound.load texts waiting
    | holding => exact idle (by rw [Concurrent.turn, waiting])
    | answered => exact idle (by rw [Concurrent.turn, waiting])
  | save i =>
    cases holding : c.progress i with
    | waiting => exact idle (by rw [Concurrent.turn, holding])
    | holding => exact sound.save texts holding
    | answered => exact idle (by rw [Concurrent.turn, holding])

/-! ## All turns -/

variable {svc : Service} {precision : Int} {strict : Bool} {lines : List String}

/-- Soundness holds after any turns. -/
theorem sound_run (present : svc.store.missing = false)
    (found : svc.store.sessions.lookup name = some first)
    (texts : ∃ lines, first.lines = .texts lines) (turns : List (Turn ι)) :
    ((start svc).run name requests turns).Sound name svc.rates requests first turns := by
  induction turns using List.reverseRecOn with
  | nil =>
    refine ⟨present, rfl, ⟨[], first, found, ⟨.start, ?_, .nil, .slnil⟩, ?_⟩, ?_⟩
    · intro e mem
      cases mem
    · rintro k ⟨_, answered, -⟩
      cases answered
    · intro i answer left holding
      cases holding
  | append_singleton turns t ih =>
    have last : (start svc).run name requests (turns ++ [t]) =
        ((start svc).run name requests turns).turn name requests t := List.foldl_concat ..
    rw [last]
    exact ih.turn texts t

/-- What is stored after any turns of any requests: the lines of some of the requests answered with
200, each once and in the order in which they saved, and the settings that were set last by one of
them. A request answered with 200 is one of them unless another, that had loaded the session before
this one saved, saved after it. -/
theorem kept_unless_overwritten (svc : Service) (name : String) (requests : ι → SessionRequest)
    (present : svc.store.missing = false)
    (found : svc.store.sessions.lookup name = some ⟨.texts lines, precision, strict⟩)
    (turns : List (Turn ι)) :
    let c := (start svc).run name requests turns
    ∃ kept : List ι, ∃ precision' strict',
      c.svc.store.sessions.lookup name = some ⟨.texts (lines ++
        kept.filterMap fun i => (requests i).query?), precision', strict'⟩ ∧
      kept.Nodup ∧ (kept.map Turn.save).Sublist turns ∧ (∀ i ∈ kept, c.Succeeded i) ∧
      (∀ i, c.Succeeded i → ¬ c.Overwritten turns i → i ∈ kept) ∧
      (∀ earlier i later, kept = earlier ++ i :: later → (requests i).Configures →
        (∀ j ∈ later, ¬ (requests j).Configures) → ∃ p : Precision,
          c.progress i = .answered (.ofMembers 200
            [("precision", p.toJson), ("strict", .bool strict')]) ∧ precision' = p.count) ∧
      ((∀ i ∈ kept, ¬ (requests i).Configures) → precision' = precision ∧ strict' = strict) := by
  intro c
  have sound : c.Sound .. := sound_run present found ⟨lines, rfl⟩ turns
  obtain ⟨log, ⟨_, precision', strict'⟩, stored, based, kept⟩ := sound.stored
  obtain rfl := based.made.lines rfl
  refine ⟨log.map (·.1), precision', strict', stored, based.nodup, ?_, ?_, ?_, ?_, ?_⟩
  · rw [List.map_map]
    exact based.saved
  · rw [List.forall_mem_map]
    intro e mem
    exact ⟨e.2, based.answered e mem, based.made.status e mem⟩
  · intro i succeeded safe
    exact (kept i succeeded).resolve_right safe
  · intro earlier i later split configures lined
    obtain ⟨earlier', rest, rfl, -, split⟩ := List.map_eq_append_iff.mp split
    obtain ⟨⟨_, answer⟩, later', rfl, rfl, rfl⟩ := List.map_eq_cons_iff.mp split
    rw [List.forall_mem_map] at lined
    obtain ⟨p, told, count⟩ := based.made.tells configures lined
    have answered := based.answered (_, answer) (List.mem_append_right _ List.mem_cons_self)
    exact ⟨p, answered.trans (congrArg _ told), count⟩
  · intro lined
    rw [List.forall_mem_map] at lined
    have made : Made svc.rates requests _ ([] ++ log) _ := based.made
    obtain ⟨before, made, samePrecision, sameStrict⟩ := made.settings_append lined
    generalize eq : [] = earlier at made
    cases made with
    | start => exact ⟨samePrecision, sameStrict⟩
    | next => simp at eq

end Concurrent

/-! ## A line and a change of settings -/

/-- A service with a new session. -/
def exService : Service := { store := { sessions := [("s1", {})] }, rates := [] }

/-- A line for the session, and strict mode. -/
def exRequests : Bool → SessionRequest
  | false => .calculate (exRequest "2").body
  | true => .configure exStrict.body

namespace Concurrent

theorem read_exLine :
    ∃ members, queryOf (exRequest "2").body = .ok (.ok ("2", members)) := by
  have asks : (exRequest "2").Asks "s1" "2" := exRequest_asks (by decide +kernel) rfl
  exact Service.queryOf_of_asks asks

theorem query?_exLine : (exRequests false).query? = some "2" := by
  obtain ⟨members, read⟩ := read_exLine
  rw [exRequests, SessionRequest.query?, read]

theorem begin_exLine : ∃ answer, answer.status = 200 ∧
    exService.begin "s1" (exRequests false) = .holding answer { lines := .texts ["2"] } := by
  obtain ⟨answer, told⟩ := Session.tell_ok (s := exNumber) rfl (.number 2)
  have calculated : StoredSession.calculate {} [] "2" =
      .ok (answer, some { lines := .texts ["2"] }) :=
    StoredSession.calculate_of_clean rfl eval_exNumber rfl told
  obtain ⟨members, read⟩ := read_exLine
  refine ⟨answer, (StoredSession.calculate_left calculated).1, ?_⟩
  rw [Service.begin, exRequests, SessionRequest.work, read]
  show (match StoredSession.calculate {} [] "2" with
    | .error f => _ | .ok (answer, none) => _ | .ok (answer, some left) => _) = _
  rw [calculated]

/-- The answer to strict mode. -/
def exTold : Response :=
  .ofMembers 200 [("precision", .integer defaultPrecision), ("strict", .bool true)]

theorem begin_exStrict : exService.begin "s1" (exRequests true) =
    .holding exTold { lines := .texts [], strict := true } := rfl

/-- A line is stored if the change of settings comes after it. -/
theorem kept_unless_overwritten_exLine :
    let turns := [.load false, .save false, .load true, .save true]
    let c := (start exService).run "s1" exRequests turns
    c.Succeeded false ∧ ∃ lines precision strict,
      c.svc.store.sessions.lookup "s1" = some ⟨.texts lines, precision, strict⟩ ∧ "2" ∈ lines := by
  intro turns c
  have succeeded : c.Succeeded false := by
    obtain ⟨answer, status, line⟩ := begin_exLine
    have holding : ((start exService).turn "s1" exRequests (.load false)).progress false =
        .holding answer { lines := .texts ["2"] } := line
    have saved : (((start exService).turn "s1" exRequests (.load false)).turn "s1" exRequests
        (.save false)).Succeeded false := by
      rw [turn_save "s1" exRequests holding]
      exact ⟨answer, rfl, status⟩
    exact (saved.turn "s1" exRequests (.load true)).turn "s1" exRequests (.save true)
  have safe : ¬ c.Overwritten turns false := by
    rintro ⟨j, -, order⟩
    have apart : ∀ j : Bool, ¬ [Turn.load j, .save false, .save j].Sublist turns := by decide
    exact apart j order
  obtain ⟨kept, precision, strict, stored, -, -, -, all, -⟩ :=
    kept_unless_overwritten exService "s1" exRequests rfl rfl turns
  refine ⟨succeeded, _, precision, strict, stored, ?_⟩
  exact List.mem_filterMap.mpr ⟨false, all false succeeded safe, query?_exLine⟩

/-- Of a line and a change of settings that both loaded the new session, the one that saves first is
answered with 200, but nothing of it is stored. -/
theorem first_saved_is_lost :
    let after := (start exService).run "s1" exRequests
    let settingsLast := after [.load false, .load true, .save false, .save true]
    let lineLast := after [.load false, .load true, .save true, .save false]
    (exRequests false).query? = some "2" ∧ settingsLast.Succeeded false ∧
      settingsLast.svc.store.sessions.lookup "s1" = some { lines := .texts [], strict := true } ∧
      lineLast.progress true = .answered exTold ∧
      lineLast.svc.store.sessions.lookup "s1" = some { lines := .texts ["2"], strict := false } := by
  obtain ⟨answer, status, line⟩ := begin_exLine
  let both : Concurrent Bool := ⟨exService, fun
    | false => .holding answer { lines := .texts ["2"] }
    | true => .holding exTold { lines := .texts [], strict := true }⟩
  have loaded : (start exService).run "s1" exRequests [.load false, .load true] = both := by
    show ((start exService).turn "s1" exRequests (.load false)).turn "s1" exRequests (.load true) = _
    rw [turn_load (c := start exService) "s1" exRequests rfl, turn_load "s1" exRequests rfl]
    refine congrArg _ (funext fun i => ?_)
    cases i with
    | false => exact line
    | true => exact begin_exStrict
  have saved (i j : Bool) : (start exService).run "s1" exRequests
      [.load false, .load true, .save i, .save j] =
        (both.turn "s1" exRequests (.save i)).turn "s1" exRequests (.save j) := by
    rw [← loaded]
    rfl
  intro after settingsLast lineLast
  refine ⟨?_, ?_, ?_, ?_, ?_⟩
  · exact query?_exLine
  · show (Concurrent.run _ _ _ _).Succeeded _
    rw [saved]
    exact ⟨answer, rfl, status⟩
  · show (Concurrent.run _ _ _ _).svc.store.sessions.lookup _ = _
    rw [saved]
    rfl
  · show (Concurrent.run _ _ _ _).progress _ = _
    rw [saved]
    rfl
  · show (Concurrent.run _ _ _ _).svc.store.sessions.lookup _ = _
    rw [saved]
    rfl

end Concurrent

end LineCalc
