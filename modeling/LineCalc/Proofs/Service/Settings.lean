import LineCalc.Proofs.Session.Settings

/-!
# Settings of stored sessions

A line is stored if it comes to no problem under the settings of the moment, but it is evaluated anew
under all later ones. Only one change of settings can make a problem of it: strict mode, turned on
where a stored line uses a name that has no value at its place.

Results:
1. `StoredSession.rebuild_configured`: a stored session that replays cleanly, under other settings.
2. `Service.replaysCleanly_handle_iff`: the requests after which all stored sessions replay cleanly.
3. `Service.replays_cleanly_iff`: the sequences of requests throughout which they do, and what a
   change of settings leaves as it is.
-/

namespace LineCalc

/-! ## Stored sessions -/

namespace StoredSession

variable {rates : RateTable} {lines : List String} {precision precision' : Int}
variable {strict strict' : Bool} {p' : Precision} {stored changed : StoredSession}

/-- No line comes to a problem in the session that is rebuilt. -/
def ReplaysCleanly (stored : StoredSession) (rates : RateTable) : Prop :=
  ∃ s, stored.rebuild rates = .ok s ∧ ∀ r ∈ s.history, r.value.isError = false

/-- All names in the stored lines have values, each where its line is evaluated. -/
def KnowsNames (stored : StoredSession) (rates : RateTable) : Prop :=
  ∀ lines, stored.lines = .texts lines → ({} : Session).KnowsAll rates lines

theorem replaysCleanly_iff : ReplaysCleanly ⟨.texts lines, precision, strict⟩ rates ↔
    ∃ p values t, Precision.ofJson (.integer precision) = .ok p ∧
      ({ precision := p, strict } : Session).evalAll rates lines = (.ok values, t) ∧
      ∀ v ∈ values, v.isError = false := by
  have shown {p : Precision} {values : List Value} {t : Session}
      (done : ({ precision := p, strict } : Session).evalAll rates lines = (.ok values, t)) :
      (∀ r ∈ t.history, r.value.isError = false) ↔ ∀ v ∈ values, v.isError = false := by
    have shown : t.history.map (·.value) = values := Session.values_evalAll done
    rw [← shown, List.forall_mem_map]
  constructor
  · rintro ⟨s, built, clean⟩
    obtain ⟨p, values, settings, done⟩ := rebuild_iff.mp built
    exact ⟨p, values, s, settings, done, (shown done).mp clean⟩
  · rintro ⟨p, values, t, settings, done, clean⟩
    exact ⟨t, rebuild_iff.mpr ⟨p, values, settings, done⟩, (shown done).mpr clean⟩

/-- Under other settings the same session is rebuilt, unless strict mode meets a name without a
value. -/
theorem rebuild_configured (clean : ReplaysCleanly ⟨.texts lines, precision, strict⟩ rates)
    (settings' : Precision.ofJson (.integer precision') = .ok p')
    (known : strict' = true → ({} : Session).KnowsAll rates lines) :
    ∃ s, rebuild ⟨.texts lines, precision, strict⟩ rates = .ok s ∧
      rebuild ⟨.texts lines, precision', strict'⟩ rates = .ok (s.withSettings p' strict') ∧
      ∀ r ∈ s.history, r.value.isError = false := by
  obtain ⟨s, built, cleanLines⟩ := clean
  obtain ⟨p, values, t, settings, done, cleanValues⟩ :=
    replaysCleanly_iff.mp ⟨s, built, cleanLines⟩
  obtain rfl : s = t :=
    Except.ok.inj (built.symm.trans (rebuild_iff.mpr ⟨p, values, settings, done⟩))
  refine ⟨s, built, rebuild_iff.mpr ⟨p', values, settings', ?_⟩, cleanLines⟩
  cases strict' with
  | false => exact Session.evalAll_lax done cleanValues p'
  | true =>
    have knows := Session.knowsAll_withSettings (known rfl) p strict
    have same := Session.evalAll_withSettings knows p' true
    show ((({} : Session).withSettings p strict).withSettings p' true).evalAll rates lines = _
    rw [same]
    show ((({ precision := p, strict } : Session).evalAll rates lines).1, _) = _
    rw [done]
    exact congrArg (fun t : Session => (Except.ok values, t.withSettings p' true))
      (congrArg Prod.snd done)

/-- A stored session that replays cleanly does so under other settings too, unless strict mode meets
a name without a value. -/
theorem replaysCleanly_configured_iff
    (clean : ReplaysCleanly ⟨.texts lines, precision, strict⟩ rates)
    (settings' : Precision.ofJson (.integer precision') = .ok p') :
    ReplaysCleanly ⟨.texts lines, precision', strict'⟩ rates ↔
      (strict' = true → ({} : Session).KnowsAll rates lines) := by
  constructor
  · intro clean' inStrict
    subst inStrict
    obtain ⟨p, values, t, -, done, cleanValues⟩ := replaysCleanly_iff.mp clean'
    exact Session.knowsAll_withSettings (Session.knowsAll_of_clean rfl done cleanValues) .default
      false
  · intro known
    obtain ⟨s, -, rebuilt, cleanLines⟩ := rebuild_configured clean settings' known
    exact ⟨_, rebuilt, cleanLines⟩

/-! ## Changes of stored sessions -/

/-- A change of settings leaves the lines, and a precision that can be taken back. -/
theorem configure_some {body : Option Json} {answer : Response}
    (done : stored.configure body = .ok (answer, some changed)) :
    changed.lines = stored.lines ∧
      ∃ p', Precision.ofJson (.integer changed.precision) = .ok p' := by
  unfold configure at done
  split at done
  · next members =>
    split at done
    · cases done
    · next precision given =>
      cases done
      refine ⟨rfl, ?_⟩
      show ∃ p', Precision.ofJson (.integer precision.count) = .ok p'
      cases precision with
      | decimals n =>
        have within : n ≤ maxPrecision := by
          unfold Precision.ofJson at given
          split at given
          · split at given
            · cases given
              omega
            · cases given
          · cases given
          · cases given
        exact ⟨.decimals n, if_pos ⟨Int.natCast_nonneg n, by exact_mod_cast within⟩⟩
      | flag b => cases b <;> exact ⟨_, rfl⟩
  · cases done

/-- What is stored after a line is the session with that line, which came to no problem. -/
theorem calculate_some {query : String} {answer : Response}
    (done : calculate ⟨.texts lines, precision, strict⟩ rates query = .ok (answer, some changed)) :
    ∃ s v t, rebuild ⟨.texts lines, precision, strict⟩ rates = .ok s ∧
      s.eval rates query = .ok (v, t) ∧ v.isError = false ∧
      changed = ⟨.texts (lines ++ [query]), precision, strict⟩ := by
  obtain ⟨s, built, done⟩ := bind_ok_iff.mp done
  obtain ⟨⟨v, t⟩, evaluated, done⟩ := bind_ok_iff.mp done
  cases v with
  | error p => cases done
  | empty | amount =>
    obtain ⟨pushed, push, done⟩ := bind_ok_iff.mp done
    cases push
    obtain ⟨told, -, done⟩ := bind_ok_iff.mp done
    cases done
    exact ⟨s, _, t, built, evaluated, rfl, rfl⟩

theorem replaysCleanly_calculated {query : String} {answer : Response}
    (clean : ReplaysCleanly ⟨.texts lines, precision, strict⟩ rates)
    (done : calculate ⟨.texts lines, precision, strict⟩ rates query = .ok (answer, some changed)) :
    changed.lines = .texts (lines ++ [query]) ∧ changed.ReplaysCleanly rates := by
  obtain ⟨s, v, t, built, evaluated, cleanValue, rfl⟩ := calculate_some done
  obtain ⟨s', built', cleanLines⟩ := clean
  obtain rfl : s = s' := Except.ok.inj (built.symm.trans built')
  refine ⟨rfl, t, rebuild_push built evaluated, ?_⟩
  intro r mem
  have value : r.value ∈ s.history.map (·.value) ++ [v] := by
    rw [← (Session.outcome_of_eval evaluated).values]
    exact List.mem_map_of_mem mem
  rcases List.mem_append.mp value with earlier | last
  · obtain ⟨r', mem', eq⟩ := List.mem_map.mp earlier
    exact eq ▸ cleanLines r' mem'
  · rw [List.mem_singleton.mp last]
    exact cleanValue

end StoredSession

/-- Where there is no place to store sessions in, none is loaded. -/
theorem SessionStore.not_missing_of_load {store : SessionStore} {name : String}
    {stored : StoredSession} (loaded : store.load name = .ok (some stored)) :
    store.missing = false := by
  cases missing : store.missing with
  | false => rfl
  | true =>
    rw [SessionStore.load, missing] at loaded
    cases loaded

/-! ## Requests -/

namespace Service

variable {svc : Service} {r : Request} {name : String} {stored changed : StoredSession}

/-- A request sets the settings of a stored session, and what is stored then. -/
structure Configures (svc : Service) (r : Request) (name : String)
    (stored changed : StoredSession) : Prop where
  method : r.method = "PUT"
  route : Route.ofPath? (pathOfTarget r.target) = some (.settings name)
  loaded : svc.store.load name = .ok (some stored)
  configured : ∃ answer, stored.configure r.body = .ok (answer, some changed)

/-- What a request can do to the stored sessions. -/
inductive Changes (svc : Service) (r : Request) : Entries String StoredSession → Prop
  | nothing : Changes svc r svc.store.sessions
  | created (name : String) : Changes svc r (svc.store.sessions.set name {})
  | deleted (name : String) : Changes svc r (svc.store.sessions.filter (·.1 != name))
  | configured {name : String} {stored changed : StoredSession} :
      svc.Configures r name stored changed → Changes svc r (svc.store.sessions.set name changed)
  | calculated {name query : String} {stored changed : StoredSession} {answer : Response} :
      svc.store.load name = .ok (some stored) →
      stored.calculate svc.rates query = .ok (answer, some changed) →
      Changes svc r (svc.store.sessions.set name changed)

/-- Work on a stored session saves what is left of it under its name. -/
theorem onSession_saved {work : StoredSession → Except Fault (Response × Option StoredSession)}
    {answer : Response} (loaded : svc.store.load name = .ok (some stored))
    (done : work stored = .ok (answer, some changed)) :
    (svc.onSession name work).2.store.sessions = svc.store.sessions.set name changed := by
  rw [onSession_of_done loaded done, save_of_present (SessionStore.not_missing_of_load loaded)]

/-- Work on a stored session changes nothing, or something is left of it to be saved. -/
theorem onSession_cases (svc : Service) (name : String)
    (work : StoredSession → Except Fault (Response × Option StoredSession)) :
    (svc.onSession name work).2 = svc ∨
      ∃ stored answer changed, svc.store.load name = .ok (some stored) ∧
        work stored = .ok (answer, some changed) := by
  rw [onSession]
  split
  · exact .inl rfl
  · exact .inl rfl
  · next stored loaded =>
    split
    · exact .inl rfl
    · next answer left done =>
      cases left with
      | none => exact .inl rfl
      | some changed => exact .inr ⟨stored, answer, changed, loaded, done⟩

theorem onSession_rates (svc : Service) (name : String)
    (work : StoredSession → Except Fault (Response × Option StoredSession)) :
    (svc.onSession name work).2.rates = svc.rates := by
  rcases svc.onSession_cases name work with same | ⟨stored, answer, changed, loaded, done⟩
  · rw [same]
  · rw [onSession_of_done loaded done, save_of_present (SessionStore.not_missing_of_load loaded)]

/-- Work on a stored session changes it if something is left of it, and nothing else. -/
theorem changes_onSession {work : StoredSession → Except Fault (Response × Option StoredSession)}
    (allowed : ∀ stored answer changed, svc.store.load name = .ok (some stored) →
      work stored = .ok (answer, some changed) →
      svc.Changes r (svc.store.sessions.set name changed)) :
    svc.Changes r (svc.onSession name work).2.store.sessions := by
  rcases svc.onSession_cases name work with same | ⟨stored, answer, changed, loaded, done⟩
  · rw [same]
    exact .nothing
  · rw [onSession_saved loaded done]
    exact allowed stored answer changed loaded done

theorem onQuery_cases (svc : Service) (body : Option Json)
    (work : String → List (String × Json) → Response × Service) :
    (svc.onQuery body work).2 = svc ∨
      ∃ query members, svc.onQuery body work = work query members := by
  rw [onQuery]
  split
  · exact .inl rfl
  · exact .inl rfl
  · exact .inr ⟨_, _, rfl⟩

theorem answered_snd (svc : Service) (answer : Except Fault Response) :
    (svc.answered answer).2 = svc := by
  cases answer <;> rfl

/-- A request that is served does one of the things that requests can do. -/
theorem changes_serve {route : Route} (found : Route.ofPath? (pathOfTarget r.target) = some route)
    (taken : route.takes r.method = true) (usual : r.method ≠ "OPTIONS") :
    svc.Changes r (svc.serve route r.method r.body).2.store.sessions ∧
      (svc.serve route r.method r.body).2.rates = svc.rates := by
  unfold serve
  split
  · rcases svc.onQuery_cases r.body _ with same | ⟨query, members, served⟩
    · rw [same]
      exact ⟨.nothing, rfl⟩
    · rw [served, answered_snd]
      exact ⟨.nothing, rfl⟩
  · rw [createSession]
    unfold SessionStore.create
    dsimp only
    split
    · next created =>
      split at created
      · cases created
      · cases created
        exact ⟨.created _, rfl⟩
    · next refused =>
      split at refused
      · cases refused
        exact ⟨.nothing, rfl⟩
      · cases refused
  · rw [answered_snd]
    exact ⟨.nothing, rfl⟩
  · next name _ =>
    rw [deleteSession]
    unfold SessionStore.delete
    split
    · next deleted =>
      split at deleted
      · cases deleted
      · cases deleted
        exact ⟨.deleted name, rfl⟩
    · exact ⟨.nothing, rfl⟩
  · refine ⟨changes_onSession ?_, onSession_rates ..⟩
    intro stored answer changed loaded viewed
    obtain ⟨shown, -, none⟩ := map_ok_iff.mp viewed
    cases none
  · next name _ =>
    refine ⟨changes_onSession ?_, onSession_rates ..⟩
    intro stored answer changed loaded configured
    have put : r.method = "PUT" := by
      simpa [Route.takes, Route.methods, usual] using taken
    exact .configured ⟨put, found, loaded, answer, configured⟩
  · rcases svc.onQuery_cases r.body _ with same | ⟨query, members, served⟩
    · rw [same]
      exact ⟨.nothing, rfl⟩
    · rw [served]
      refine ⟨changes_onSession ?_, onSession_rates ..⟩
      intro stored answer changed loaded calculated
      exact .calculated loaded calculated
  · exact ⟨.nothing, rfl⟩
  · exact ⟨.nothing, rfl⟩

theorem handle_of_takes {route : Route} (found : Route.ofPath? (pathOfTarget r.target) = some route)
    (taken : route.takes r.method = true) (usual : r.method ≠ "OPTIONS") :
    (svc.handle r).2 = (svc.serve route r.method r.body).2 := by
  rw [handle]
  simp [found, taken, usual]

/-- What any request can do to the stored sessions. -/
theorem changes_handle (svc : Service) (r : Request) :
    svc.Changes r (svc.handle r).2.store.sessions ∧ (svc.handle r).2.rates = svc.rates := by
  cases found : Route.ofPath? (pathOfTarget r.target) with
  | none =>
    have same : (svc.handle r).2 = svc := by
      rw [handle]
      simp only [found]
      split <;> rfl
    rw [same]
    exact ⟨.nothing, rfl⟩
  | some route =>
    by_cases usual : route.takes r.method = true ∧ r.method ≠ "OPTIONS"
    · rw [handle_of_takes found usual.1 usual.2]
      exact changes_serve found usual.1 usual.2
    · have same : (svc.handle r).2 = svc := by
        rw [handle]
        simp only [found]
        split
        · rfl
        · next taken =>
          rw [if_pos]
          by_contra notOptions
          exact usual ⟨by simpa using taken, by simpa using notOptions⟩
      rw [same]
      exact ⟨.nothing, rfl⟩

/-- A request that sets settings stores what they are changed to. -/
theorem Configures.handle (configures : svc.Configures r name stored changed) :
    (svc.handle r).2.store.sessions = svc.store.sessions.set name changed := by
  obtain ⟨answer, configured⟩ := configures.configured
  have taken : (Route.settings name).takes r.method = true := by
    rw [configures.method]
    rfl
  have usual : r.method ≠ "OPTIONS" := by
    rw [configures.method]
    decide
  rw [handle_of_takes configures.route taken usual]
  exact onSession_saved configures.loaded configured

/-! ## Clean services -/

/-- Strict mode is turned on only where all names in the stored lines have values. -/
def StrictOnlyKnown (svc : Service) (r : Request) : Prop :=
  ∀ name stored changed, svc.Configures r name stored changed → changed.strict = true →
    stored.KnowsNames svc.rates

/-- All stored sessions are lists of lines and replay cleanly. -/
def ReplaysCleanly (svc : Service) : Prop :=
  ∀ name stored, svc.store.sessions.lookup name = some stored →
    (∃ lines, stored.lines = .texts lines) ∧ stored.ReplaysCleanly svc.rates

theorem ReplaysCleanly.of_load (clean : svc.ReplaysCleanly)
    (loaded : svc.store.load name = .ok (some stored)) :
    svc.store.sessions.lookup name = some stored := by
  rw [SessionStore.load] at loaded
  split at loaded
  · cases loaded
  · split at loaded
    · cases loaded
    · next found lookup =>
      obtain ⟨lines, texts⟩ := (clean name found lookup).1
      rw [texts] at loaded
      cases loaded
      exact lookup

/-- A change of settings leaves a session that replays cleanly exactly if it does not turn on strict
mode for lines with names without a value. -/
theorem Configures.replaysCleanly_iff (configures : svc.Configures r name stored changed)
    (clean : svc.ReplaysCleanly) : changed.ReplaysCleanly svc.rates ↔
      (changed.strict = true → stored.KnowsNames svc.rates) := by
  obtain ⟨answer, configured⟩ := configures.configured
  obtain ⟨⟨lines, texts⟩, replays⟩ := clean name stored (clean.of_load configures.loaded)
  obtain ⟨kept, p', settings'⟩ := StoredSession.configure_some configured
  obtain ⟨_, precision, strict⟩ := stored
  obtain ⟨_, precision', strict'⟩ := changed
  cases texts
  cases kept
  rw [StoredSession.replaysCleanly_configured_iff replays settings']
  refine imp_congr_right fun _ => ⟨?_, ?_⟩
  · intro known _ texts
    cases texts
    exact known
  · intro known
    exact known lines rfl

theorem ReplaysCleanly.set (clean : svc.ReplaysCleanly)
    (texts : ∃ lines, changed.lines = .texts lines) (replays : changed.ReplaysCleanly svc.rates)
    {other : String} (lookup : (svc.store.sessions.set name changed).lookup other = some stored) :
    (∃ lines, stored.lines = .texts lines) ∧ stored.ReplaysCleanly svc.rates := by
  by_cases same : other = name
  · rw [same, Entries.lookup_set_self] at lookup
    cases lookup
    exact ⟨texts, replays⟩
  · rw [Entries.lookup_set_of_ne _ same] at lookup
    exact clean other stored lookup

/-- After a request all stored sessions still replay cleanly, unless it turns on strict mode for
lines with names without a value. -/
theorem replaysCleanly_handle_iff (clean : svc.ReplaysCleanly) (r : Request) :
    (svc.handle r).2.ReplaysCleanly ↔ svc.StrictOnlyKnown r := by
  obtain ⟨changes, rates⟩ := svc.changes_handle r
  constructor
  · intro after name stored changed configures
    have kept := after name changed (by rw [configures.handle, Entries.lookup_set_self])
    rw [rates] at kept
    exact (configures.replaysCleanly_iff clean).mp kept.2
  · intro allowed other found lookup
    rw [rates]
    generalize (svc.handle r).2.store.sessions = sessions at changes lookup
    cases changes with
    | nothing => exact clean other found lookup
    | created name =>
      refine clean.set ⟨[], rfl⟩ ⟨{}, rfl, ?_⟩ lookup
      intro r mem
      cases mem
    | deleted name =>
      rw [Entries.lookup_remove] at lookup
      split at lookup
      · cases lookup
      · exact clean other found lookup
    | @configured name stored changed configures =>
      obtain ⟨answer, configured⟩ := configures.configured
      have kept := (StoredSession.configure_some configured).1
      obtain ⟨⟨lines, texts⟩, -⟩ := clean name stored (clean.of_load configures.loaded)
      have replays := (configures.replaysCleanly_iff clean).mpr
        (allowed name stored changed configures)
      exact clean.set ⟨lines, kept.trans texts⟩ replays lookup
    | @calculated name query stored changed answer loaded calculated =>
      obtain ⟨⟨lines, texts⟩, replays⟩ := clean name stored (clean.of_load loaded)
      obtain ⟨_, precision, strict⟩ := stored
      cases texts
      obtain ⟨lines', replays'⟩ := StoredSession.replaysCleanly_calculated replays calculated
      exact clean.set ⟨_, lines'⟩ replays' lookup

/-! ## Requests one after another -/

theorem handleAll_cons (svc : Service) (r : Request) (rest : List Request) :
    (svc.handleAll (r :: rest)).2 = ((svc.handle r).2.handleAll rest).2 := by
  rw [handleAll]

theorem handleAll_append_singleton (svc : Service) (requests : List Request) (r : Request) :
    (svc.handleAll (requests ++ [r])).2 = ((svc.handleAll requests).2.handle r).2 := by
  induction requests generalizing svc with
  | nil => rw [List.nil_append, handleAll_cons, handleAll, handleAll]
  | cons first rest ih => rw [List.cons_append, handleAll_cons, handleAll_cons, ih]

theorem handleAll_rates (svc : Service) (requests : List Request) :
    (svc.handleAll requests).2.rates = svc.rates := by
  induction requests generalizing svc with
  | nil => rfl
  | cons first rest ih => rw [handleAll_cons, ih, (svc.changes_handle first).2]

/-- Without stored sessions all of them replay cleanly. -/
theorem replaysCleanly_of_empty (empty : svc.store.sessions = []) : svc.ReplaysCleanly := by
  intro name stored lookup
  rw [empty] at lookup
  cases lookup

/-- Throughout any requests all stored sessions replay cleanly, exactly if none of the requests turns
on strict mode for a session with a line that uses a name without a value there. A change of settings
between two moments at which they do leaves what is rebuilt from the stored lines as it is, but for
the settings. -/
theorem replays_cleanly_iff (rates : RateTable) (requests : List Request) :
    let after := fun earlier => (({ store := {}, rates } : Service).handleAll earlier).2
    ((∀ earlier, earlier <+: requests → (after earlier).ReplaysCleanly) ↔
      ∀ earlier r, earlier ++ [r] <+: requests → (after earlier).StrictOnlyKnown r) ∧
    ∀ earlier r name stored changed, (after earlier).Configures r name stored changed →
      (after earlier).ReplaysCleanly → (after (earlier ++ [r])).ReplaysCleanly →
      (after earlier).store.sessions.lookup name = some stored ∧
      (after (earlier ++ [r])).store.sessions.lookup name = some changed ∧
      ∃ s precision, stored.rebuild rates = .ok s ∧
        changed.rebuild rates = .ok (s.withSettings precision changed.strict) := by
  intro after
  have step (earlier : List Request) (r : Request) :
      after (earlier ++ [r]) = ((after earlier).handle r).2 := handleAll_append_singleton _ _ _
  have fixed (earlier : List Request) : (after earlier).rates = rates := handleAll_rates _ _
  refine ⟨⟨?_, ?_⟩, ?_⟩
  · intro clean earlier r isPrefix
    have before := clean earlier ((List.prefix_append _ _).trans isPrefix)
    refine (replaysCleanly_handle_iff before r).mp ?_
    rw [← step]
    exact clean _ isPrefix
  · intro allowed earlier isPrefix
    induction earlier using List.reverseRecOn with
    | nil => exact replaysCleanly_of_empty rfl
    | append_singleton earlier r ih =>
      have before := ih ((List.prefix_append _ _).trans isPrefix)
      rw [step]
      exact (replaysCleanly_handle_iff before r).mpr (allowed earlier r isPrefix)
  · intro earlier r name stored changed configures before later
    have lookup := before.of_load configures.loaded
    have lookup' : (after (earlier ++ [r])).store.sessions.lookup name = some changed := by
      rw [step, configures.handle, Entries.lookup_set_self]
    refine ⟨lookup, lookup', ?_⟩
    obtain ⟨⟨lines, texts⟩, replays⟩ := before name stored lookup
    have replays' := (later name changed lookup').2
    obtain ⟨answer, configured⟩ := configures.configured
    obtain ⟨kept, p', settings'⟩ := StoredSession.configure_some configured
    obtain ⟨_, precision, strict⟩ := stored
    obtain ⟨_, precision', strict'⟩ := changed
    cases texts
    cases kept
    rw [fixed] at replays replays'
    have known := (StoredSession.replaysCleanly_configured_iff replays settings').mp replays'
    obtain ⟨s, built, rebuilt, -⟩ := StoredSession.rebuild_configured replays settings' known
    exact ⟨s, p', built, rebuilt⟩

end Service

/-! ## Strict mode turned on later -/

theorem parse_exName : Line.parse "y + 2" =
    .ok (⟨.expr (.binary (.name "y") .add (.literal 2 .plain "2")), none, "y + 2"⟩, []) :=
  Parser.parse_of_walkLine (by decide +kernel)

/-- A session after a line in which a name without a value counts as zero. -/
def exZeroed : Session :=
  { ({} : Session).record { raw := "y + 2", value := .number 2 } with previous := .number 2 }

theorem eval_exName : ({} : Session).eval [] "y + 2" = .ok (.number 2, exZeroed) := by
  have sum : (Expr.binary (.name "y") .add (.literal 2 .plain "2")).eval (({} : Session).scope []) =
      .ok (.number 2) := eq_ok_of_toOption (by decide +kernel)
  exact Session.eval_of_expr parse_exName rfl sum

/-- In strict mode the name is a problem. -/
theorem preview_exName (precision : Precision) :
    ({ precision, strict := true } : Session).preview [] "y + 2" =
      .ok (.error (.undefinedName "y")) := by
  have sum : (Expr.binary (.name "y") .add (.literal 2 .plain "2")).eval
      ((({} : Session).scope []).withStrict true) = .ok (.error (.undefinedName "y")) :=
    eq_ok_of_toOption (by decide +kernel)
  rw [Session.preview_eq, parse_exName]
  exact sum

/-- A request that makes a session. -/
def exCreate : Request := { method := "POST", target := "/sessions" }

/-- A request that turns on strict mode in it. -/
def exStrict : Request where
  method := "PUT"
  target := "/sessions/s1/settings"
  body := some (.object [("strict", .bool true)])

theorem handle_exCreate : (({ store := {}, rates := [] } : Service).handle exCreate).2 =
    { store := { sessions := [("s1", {})], created := 1 }, rates := [] } := by
  have found : Route.ofPath? (pathOfTarget exCreate.target) = some .sessions := by decide +kernel
  rw [Service.handle_of_takes found rfl (by decide)]
  rfl

/-- A line stored without strict mode is a problem once strict mode is turned on. -/
theorem strict_turned_on_later :
    let svc := (({ store := {}, rates := [] } : Service).handleAll
      [exCreate, exRequest "y + 2", exStrict]).2
    svc.store.sessions.lookup "s1" = some { lines := .texts ["y + 2"], strict := true } ∧
      ¬ svc.ReplaysCleanly := by
  intro svc
  let created : Service := { store := { sessions := [("s1", {})], created := 1 }, rates := [] }
  have fresh : created.Mirrors "s1" [] defaultPrecision false {} := ⟨rfl, rfl, {}, rfl, rfl⟩
  have asks : (exRequest "y + 2").Asks "s1" "y + 2" := exRequest_asks (by decide +kernel) rfl
  obtain ⟨answer, lined, -, handled, rates, mirrors⟩ := fresh.step asks eval_exName
  have configures : lined.Configures exStrict "s1" { lines := .texts ["y + 2"] }
      { lines := .texts ["y + 2"], strict := true } := by
    refine ⟨rfl, by decide +kernel, ?_, _, rfl⟩
    rw [SessionStore.load, mirrors.present, mirrors.stored]
    rfl
  have svc_eq : svc = (lined.handle exStrict).2 := by
    show (Service.handleAll _ _).2 = _
    rw [Service.handleAll_cons, handle_exCreate, Service.handleAll_cons, handled,
      Service.handleAll_cons]
    rfl
  have stored : svc.store.sessions.lookup "s1" =
      some { lines := .texts ["y + 2"], strict := true } := by
    rw [svc_eq, configures.handle, Entries.lookup_set_self]
  refine ⟨stored, ?_⟩
  intro clean
  have fixed : svc.rates = [] := by
    rw [svc_eq, (Service.changes_handle _ _).2, rates]
  have replays := (clean "s1" _ stored).2
  rw [fixed] at replays
  obtain ⟨p, values, t, -, done, cleanValues⟩ := StoredSession.replaysCleanly_iff.mp replays
  obtain ⟨v, mid, others, first, -, rfl⟩ := Session.evalAll_cons_ok_iff.mp done
  have value := (Session.preview_of_eval first).symm.trans (preview_exName p)
  cases value
  cases (List.forall_mem_cons.mp cleanValues).1

end LineCalc
