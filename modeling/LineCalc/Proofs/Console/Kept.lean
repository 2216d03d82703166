import LineCalc.Console.Run
import LineCalc.Proofs.Service.Replay
import LineCalc.Proofs.Session.Agreement

/-!
# Sessions kept at the prompt

The prompt keeps the lines of a session beside the session itself and stores them with its settings.
What is stored comes back by evaluating it anew. It comes to what the session has come to, except
that clearing the session forgets nothing of what is stored, and that lines which were evaluated
while strict mode was off come back in strict mode if it has been turned on since.

Results:
1. `Prompt.step_of_after?`: all that one line can do.
2. `Prompt.Mirrors.step`, `Prompt.Mirrors.run`: what is stored mirrors the session after a line, and
   after any number of lines.
3. `kept_session_comes_back`: this for a session that is new at the beginning of a run.
4. `cleared_lines_come_back`: lines stored before the session was cleared come back.
-/

namespace LineCalc

/-! ## Stored precisions -/

/-- The precision comes back from the count that is stored for it. -/
def Precision.Storable (p : Precision) : Prop := Precision.ofJson (.integer p.count) = .ok p

theorem Precision.storable_of_ofJson {n : Int} {p : Precision}
    (given : Precision.ofJson (.integer n) = .ok p) : p.Storable := by
  rw [ofJson] at given
  split at given
  · next within =>
    cases given
    have whole : ((n.toNat : Nat) : Int) = n := Int.toNat_of_nonneg within.1
    rw [Storable, count, ofJson, whole, if_pos within]
  · cases given

theorem Precision.storable_of_ofText {text : String} {p : Precision}
    (given : Precision.ofText text = .ok p) : p.Storable := by
  unfold ofText at given
  split at given
  · exact storable_of_ofJson given
  · cases given
  · cases given

theorem Precision.Storable.decimals {precision : Precision} (storable : precision.Storable) :
    ∃ n, precision = .decimals n := by
  cases precision with
  | decimals n => exact ⟨n, rfl⟩
  | flag b => cases b <;> cases storable

/-! ## Runs -/

/-- What a line can do at the prompt of a session that is kept, beside showing something or being
noted. -/
inductive Effect
  /-- The lines are stored with one more; `strictly` tells that it would come to no problem in
  strict mode either. -/
  | saves (strictly : Bool)
  /-- The session is cleared. -/
  | clears
  /-- A setting changes. -/
  | sets
deriving DecidableEq

/-- What a command does. -/
def Command.effect? (s : Session) : Command → Option Effect
  | .clear => some .clears
  | .strict on => if on = s.strict then none else some .sets
  | .precision text =>
    match Precision.ofText text with
    | .ok p => if p = s.precision then none else some .sets
    | .error _ => none
  | .exit | .help | .showVariables | .total => none

namespace Prompt

/-- What a line does. -/
def effect? (p : Prompt) (text : String) : Option Effect :=
  if (Text.trim text).isEmpty then none
  else match Command.ofLine? text with
    | some c => c.effect? p.session
    | none =>
      match p.session.preview p.rates text with
      | .ok v =>
        if v.isValid then some (.saves (p.session.passesStrictly p.rates text)) else none
      | .error _ => none

/-- The prompt after a line, unless the line leaves it or ends in a fault. -/
def after? (p : Prompt) (text : String) : Option Prompt := (p.take text).toOption.bind (·.2)

/-- The prompt when no more lines are taken: at the end of what is typed, at an interrupt, or at a
line that leaves the prompt or ends in a fault. -/
def reached (p : Prompt) : List Typed → Prompt
  | [] | .interrupt :: _ => p
  | .line text :: rest =>
    match p.after? text with
    | none => p
    | some q => q.reached rest

/-- What the lines do until no more are taken. -/
def effects (p : Prompt) : List Typed → List Effect
  | [] | .interrupt :: _ => []
  | .line text :: rest =>
    match p.after? text with
    | none => []
    | some q => (p.effect? text).toList ++ q.effects rest

variable {p q : Prompt} {text : String} {typed : List Typed}

theorem reached_line (next : p.after? text = some q) (rest : List Typed) :
    p.reached (.line text :: rest) = q.reached rest := by
  rw [reached, next]

theorem effects_line (next : p.after? text = some q) (rest : List Typed) :
    p.effects (.line text :: rest) = (p.effect? text).toList ++ q.effects rest := by
  rw [effects, next]

/-- A run without a fault ends at the prompt that is reached. -/
theorem reached_of_takeAll {out : List String} (done : p.takeAll typed = .ok (out, q)) :
    q = p.reached typed := by
  induction typed generalizing p out with
  | nil =>
    cases done
    rfl
  | cons first rest ih =>
    cases first with
    | interrupt =>
      cases done
      rfl
    | line text =>
      obtain ⟨⟨shown, _ | r⟩, taken, done⟩ := bind_ok_iff.mp done
      · cases done
        simp [reached, after?, taken, Except.toOption]
      · obtain ⟨⟨others, _⟩, later, done⟩ := bind_ok_iff.mp done
        cases done
        simpa [reached, after?, taken, Except.toOption] using ih later

/-! ## Lines -/

/-- What one line can do, and the prompt after it. -/
inductive Step (p : Prompt) (text : String) : Option Effect → Prompt → Prop
  | stays : Step p text none p
  | clears : Step p text (some .clears) { p with session := p.session.clear }
  | sets {precision : Precision} {strict : Bool} :
      (p.session.precision.Storable → precision.Storable) →
      Step p text (some .sets) { p with session := { p.session with precision, strict } }
  | notes {v : Value} {s : Session} :
      p.session.eval p.rates text = .ok (v, s) → v.isValid = false →
      Step p text none { p with session := s }
  | saves {v : Value} {s : Session} :
      p.session.eval p.rates text = .ok (v, s) → v.isValid = true →
      Step p text (some (.saves (p.session.passesStrictly p.rates text)))
        (({ p with session := s } : Prompt).keep text)

theorem step_of_command {c : Command} {s : Session} {out : List String}
    (done : c.run p.session p.rates = .ok (out, s)) :
    p.Step text (c.effect? p.session) { p with session := s } := by
  cases c with
  | exit | help =>
    cases done
    exact .stays
  | showVariables | total =>
    obtain ⟨_, _, done⟩ := map_ok_iff.mp done
    cases done
    exact .stays
  | clear =>
    cases done
    exact .clears
  | strict on =>
    cases done
    rw [Command.effect?]
    split
    · next same =>
      subst same
      exact .stays
    · exact .sets id
  | precision given =>
    rw [Command.run, Command.setPrecision] at done
    rw [Command.effect?]
    cases eq : Precision.ofText given with
    | error f =>
      rw [eq] at done
      cases done
      exact .stays
    | ok precision =>
      rw [eq] at done
      cases done
      dsimp only
      split
      · next same =>
        subst same
        exact .stays
      · exact .sets fun _ => Precision.storable_of_ofText eq

theorem step_of_evaluate {out : List String} (done : p.evaluate text = .ok (out, q)) :
    ∃ v, p.session.preview p.rates text = .ok v ∧
      p.Step text (if v.isValid then some (.saves (p.session.passesStrictly p.rates text)) else none)
        q := by
  obtain ⟨⟨v, s⟩, evaluated, done⟩ := bind_ok_iff.mp done
  refine ⟨v, Session.preview_of_eval evaluated, ?_⟩
  cases v with
  | error problem | empty =>
    cases done
    exact .notes evaluated rfl
  | amount n d =>
    obtain ⟨shown, _, done⟩ := bind_ok_iff.mp done
    cases done
    exact .saves evaluated rfl

/-- At a precision that can be stored any value can be shown, so that a line which is evaluated is
also taken in. -/
theorem evaluate_of_eval {v : Value} {s : Session} (storable : p.session.precision.Storable)
    (evaluated : p.session.eval p.rates text = .ok (v, s)) :
    ∃ out, p.evaluate text =
      .ok (out, if v.isValid then ({ p with session := s } : Prompt).keep text
        else { p with session := s }) := by
  cases v with
  | error problem | empty =>
    rw [evaluate, evaluated]
    exact ⟨_, rfl⟩
  | amount n d =>
    obtain ⟨k, decimals⟩ := storable.decimals
    have shown : s.format (.amount n d) = .ok ((Value.amount n d).format k) := by
      rw [Session.format, (Session.outcome_of_eval evaluated).sameSettings.precision, decimals]
      rfl
    rw [evaluate, evaluated]
    simp only [bind, Except.bind, shown]
    exact ⟨_, rfl⟩

/-- All that one line can do. -/
theorem step_of_after? (next : p.after? text = some q) : p.Step text (p.effect? text) q := by
  obtain ⟨⟨out, _⟩, taken, rfl⟩ := Option.bind_eq_some_iff.mp next
  replace taken := eq_ok_of_toOption taken
  rw [take] at taken
  rw [effect?]
  split at taken
  · next blank =>
    cases taken
    rw [if_pos blank]
    exact .stays
  · next nonblank =>
    rw [if_neg nonblank]
    split at taken
    · cases taken
    · next c _ eq =>
      obtain ⟨⟨shown, s⟩, done, made⟩ := map_ok_iff.mp taken
      cases made
      rw [eq]
      exact step_of_command done
    · next eq =>
      obtain ⟨⟨shown, q⟩, done, made⟩ := map_ok_iff.mp taken
      cases made
      obtain ⟨v, value, step⟩ := step_of_evaluate done
      rw [eq]
      simpa only [value] using step

theorem session_keep (p : Prompt) (line : String) : (p.keep line).session = p.session := by
  unfold keep
  split <;> rfl

theorem rates_keep (p : Prompt) (line : String) : (p.keep line).rates = p.rates := by
  unfold keep
  split <;> rfl

theorem Step.rates {effect? : Option Effect} (step : p.Step text effect? q) :
    q.rates = p.rates := by
  cases step with
  | stays | clears | sets | notes => rfl
  | saves => exact rates_keep _ _

theorem rates_reached (p : Prompt) (typed : List Typed) : (p.reached typed).rates = p.rates := by
  induction typed generalizing p with
  | nil => rfl
  | cons first rest ih =>
    cases first with
    | interrupt => rfl
    | line text =>
      cases next : p.after? text with
      | none => rw [reached, next]
      | some q => rw [reached_line next, ih q, (step_of_after? next).rates]

/-! ## What is stored -/

theorem keep_eq {name : String} {lines : List String} (kept : p.kept = some (name, lines))
    (present : p.store.missing = false) (line : String) :
    p.keep line =
      let stored := ⟨.texts (lines ++ [line]), p.session.precision.count, p.session.strict⟩
      { p with
        kept := some (name, lines ++ [line])
        store := { p.store with sessions := p.store.sessions.set name stored } } := by
  rw [keep, kept]
  simp [SessionStore.save, present]

/-- After what the lines have done so far, the lines that are stored under a name come to what the
session has come to, whatever the settings; but they do so in strict mode only if none of them would
come to a problem there. -/
structure Mirrors (p : Prompt) (name : String) (lines : List String) (done : List Effect) :
    Prop where
  present : p.store.missing = false
  kept : p.kept = some (name, lines)
  settings : p.session.precision.Storable
  fresh : (∀ strictly, .saves strictly ∉ done) → lines = []
  stored : (∃ strictly, .saves strictly ∈ done) →
    ∃ (precision : Precision) (strict : Bool), precision.Storable ∧
    p.store.sessions.lookup name = some ⟨.texts lines, precision.count, strict⟩ ∧
    ((∃ strictly, done.getLast? = some (.saves strictly)) → strict = p.session.strict)
  replayed : ∀ precision strict, (strict = true → .saves false ∉ done) →
    ∃ values t, ({ precision, strict } : Session).evalAll p.rates lines = (.ok values, t) ∧
      t.strict = strict ∧ p.session.Agrees t

variable {name : String} {lines : List String} {done : List Effect} {v : Value} {s : Session}

theorem Mirrors.note (mirrors : p.Mirrors name lines done)
    (evaluated : p.session.eval p.rates text = .ok (v, s)) (invalid : v.isValid = false) :
    ({ p with session := s } : Prompt).Mirrors name lines done := by
  have same := (Session.outcome_of_eval evaluated).sameSettings
  refine { mirrors with settings := ?_, stored := fun saved => ?_, replayed := ?_ }
  · exact same.precision ▸ mirrors.settings
  · obtain ⟨precision, strict, storable, found, current⟩ := mirrors.stored saved
    exact ⟨precision, strict, storable, found, fun last => (current last).trans same.strict.symm⟩
  · intro precision strict allowed
    obtain ⟨values, t, all, strict, agrees⟩ := mirrors.replayed precision strict allowed
    exact ⟨values, t, all, strict, (Session.agrees_of_invalid evaluated invalid).symm.trans agrees⟩

theorem Mirrors.clear (mirrors : p.Mirrors name lines done)
    (unsaved : ∀ strictly, .saves strictly ∉ done) :
    ({ p with session := p.session.clear } : Prompt).Mirrors name lines (done ++ [.clears]) where
  present := mirrors.present
  kept := mirrors.kept
  settings := mirrors.settings
  fresh _ := mirrors.fresh unsaved
  stored := by simp [unsaved]
  replayed precision strict _ := by
    -- Nothing is stored yet, so the new session is all that comes back.
    rw [mirrors.fresh unsaved]
    exact ⟨[], _, rfl, rfl, rfl, rfl, rfl⟩

theorem Mirrors.set {precision : Precision} {strict : Bool} (mirrors : p.Mirrors name lines done)
    (storable : precision.Storable) :
    ({ p with session := { p.session with precision, strict } } : Prompt).Mirrors name lines
      (done ++ [.sets]) where
  present := mirrors.present
  kept := mirrors.kept
  settings := storable
  fresh unsaved := mirrors.fresh (by simpa using unsaved)
  stored saved := by
    obtain ⟨precision, strict, storable, found, -⟩ := mirrors.stored (by simpa using saved)
    exact ⟨precision, strict, storable, found, by simp⟩
  replayed precision strict allowed := by
    obtain ⟨values, t, all, strict, agrees⟩ :=
      mirrors.replayed precision strict (by simpa using allowed)
    exact ⟨values, t, all, strict, agrees.bindings, agrees.previous, agrees.amounts⟩

theorem Mirrors.save (mirrors : p.Mirrors name lines done)
    (evaluated : p.session.eval p.rates text = .ok (v, s)) (valid : v.isValid = true) :
    (({ p with session := s } : Prompt).keep text).Mirrors name (lines ++ [text])
      (done ++ [.saves (p.session.passesStrictly p.rates text)]) := by
  have same := (Session.outcome_of_eval evaluated).sameSettings
  have settings : s.precision.Storable := same.precision ▸ mirrors.settings
  rw [keep_eq (p := { p with session := s }) mirrors.kept mirrors.present]
  refine {
    present := mirrors.present
    kept := rfl
    settings
    fresh := fun unsaved => absurd (List.mem_append_right done (List.mem_singleton_self _))
      (unsaved _)
    stored := fun _ => ⟨_, _, settings, Entries.lookup_set_self _ _ _, fun _ => rfl⟩
    replayed := fun precision strict allowed => ?_ }
  obtain ⟨values, t, all, strictness, agrees⟩ := mirrors.replayed precision strict
    fun on saved => allowed on (List.mem_append_left _ saved)
  have passes (on : t.strict = true) : p.session.passesStrictly p.rates text = true := by
    cases passes : p.session.passesStrictly p.rates text with
    | true => rfl
    | false => exact absurd (by simp [passes]) (allowed (strictness.symm.trans on))
  obtain ⟨t', evaluated', agrees'⟩ :=
    agrees.eval evaluated (isError_of_isValid valid) passes
  exact ⟨values ++ [v], t', Session.evalAll_append_singleton all evaluated',
    (Session.outcome_of_eval evaluated').sameSettings.strict.trans strictness, agrees'⟩

/-- What is stored still mirrors the session after one more line, unless that line clears the
session and lines are stored. -/
theorem Mirrors.step {effect? : Option Effect} (mirrors : p.Mirrors name lines done)
    (step : p.Step text effect? q)
    (unsaved : effect? = some .clears → ∀ strictly, .saves strictly ∉ done) :
    ∃ lines', q.Mirrors name lines' (done ++ effect?.toList) := by
  cases step with
  | stays => exact ⟨lines, by simpa using mirrors⟩
  | clears => exact ⟨lines, mirrors.clear (unsaved rfl)⟩
  | sets storable => exact ⟨lines, mirrors.set (storable mirrors.settings)⟩
  | notes evaluated invalid => exact ⟨lines, by simpa using mirrors.note evaluated invalid⟩
  | saves evaluated valid => exact ⟨lines ++ [text], mirrors.save evaluated valid⟩

end Prompt

/-- The session is not cleared any more once a line is stored. -/
def ClearsFirst (effects : List Effect) : Prop :=
  effects.Pairwise fun earlier later => later = .clears → ∀ strictly, earlier ≠ .saves strictly

namespace Prompt

variable {p : Prompt} {name : String} {lines : List String} {done : List Effect}
variable {typed : List Typed}

/-- What is stored mirrors the session for as long as lines are taken. -/
theorem Mirrors.run (mirrors : p.Mirrors name lines done)
    (clearsFirst : ClearsFirst (done ++ p.effects typed)) :
    ∃ lines', (p.reached typed).Mirrors name lines' (done ++ p.effects typed) := by
  induction typed generalizing p lines done with
  | nil => exact ⟨lines, by simpa [effects, reached] using mirrors⟩
  | cons first rest ih =>
    cases first with
    | interrupt => exact ⟨lines, by simpa [effects, reached] using mirrors⟩
    | line text =>
      cases next : p.after? text with
      | none => exact ⟨lines, by simpa [effects, reached, next] using mirrors⟩
      | some q =>
        rw [effects_line next, ← List.append_assoc] at clearsFirst ⊢
        rw [reached_line next]
        obtain ⟨lines', mirrors'⟩ := mirrors.step (step_of_after? next) fun clears strictly saved =>
          (List.pairwise_append.mp (List.pairwise_append.mp clearsFirst).1).2.2 _ saved .clears
            (by simp [clears]) rfl strictly rfl
        exact ih mirrors' clearsFirst

/-- A session that is stored last of all comes back as it is, unless it is strict and some line of
it would come to a problem in strict mode. -/
theorem Mirrors.comesBack (mirrors : p.Mirrors name lines done)
    (last : ∃ strictly, done.getLast? = some (.saves strictly))
    (strictly : p.session.strict = true → .saves false ∉ done) :
    ∃ stored s, p.store.load name = .ok (some stored) ∧ stored.rebuild p.rates = .ok s ∧
      p.session.Agrees s := by
  obtain ⟨passes, eq⟩ := last
  obtain ⟨precision, strict, storable, found, current⟩ :=
    mirrors.stored ⟨passes, List.mem_of_getLast? eq⟩
  obtain rfl := current ⟨passes, eq⟩
  obtain ⟨values, s, all, -, agrees⟩ := mirrors.replayed precision _ strictly
  refine ⟨_, s, ?_, StoredSession.rebuild_iff.mpr ⟨precision, values, storable, all⟩, agrees⟩
  simp [SessionStore.load, mirrors.present, found]

end Prompt

/-! ## Runs from the beginning -/

section

variable {o : Options} {rates : RateTable} {fileText : String → Except FileProblem String}
variable {store : SessionStore} {printed : List String} {p : Prompt} {typed : List Typed}

theorem Options.eq_of_newSession? {s : Session} (given : o.newSession? = some s) :
    ∃ precision : Precision, precision.Storable ∧ s = { precision, strict := o.strict } := by
  obtain ⟨n, _, made⟩ := Option.bind_eq_some_iff.mp given
  obtain ⟨precision, settings, rfl⟩ := map_ok_iff.mp (eq_ok_of_toOption made)
  exact ⟨precision, Precision.storable_of_ofJson settings, rfl⟩

/-- The prompt of a session that is not stored yet. -/
theorem Options.eq_of_begin (named : o.session.isEmpty = false)
    (new : store.sessions.lookup o.session = none)
    (begun : o.begin rates fileText store = .ok (.prompt printed p)) :
    ∃ precision : Precision, precision.Storable ∧
      p = { session := { precision, strict := o.strict }, rates, store,
            kept := some (o.session, []) } := by
  have absent : store.load o.session = .ok none := by simp [SessionStore.load, new]
  unfold begin at begun
  split at begun
  · cases begun
  · next s given =>
    obtain ⟨precision, storable, rfl⟩ := eq_of_newSession? given
    refine ⟨precision, storable, ?_⟩
    split at begun
    · obtain ⟨_, _, begun⟩ := bind_ok_iff.mp begun
      obtain ⟨_, _, begun⟩ := bind_ok_iff.mp begun
      cases begun
    · split at begun
      · unfold openFile at begun
        split at begun
        · cases begun
        · split at begun
          · cases begun
          · obtain ⟨_, _, begun⟩ := map_ok_iff.mp begun
            cases begun
      · simp only [openPrompt, named, absent] at begun
        cases begun
        rfl

/-- A session that is new at the beginning of a run comes back as it is from what is stored of it,
if storing it was the last thing that a line did. But it must not have been cleared once a line was
stored, and if it is strict at the end then no line that was stored may be one that would come to a
problem in strict mode. -/
theorem kept_session_comes_back (named : o.session.isEmpty = false)
    (present : store.missing = false) (new : store.sessions.lookup o.session = none)
    (begun : o.begin rates fileText store = .ok (.prompt printed p))
    (last : ∃ strictly, (p.effects typed).getLast? = some (.saves strictly))
    (clearsFirst : ClearsFirst (p.effects typed))
    (strictly : (p.reached typed).session.strict = true → .saves false ∉ p.effects typed) :
    ∃ stored s, (p.reached typed).store.load o.session = .ok (some stored) ∧
      stored.rebuild rates = .ok s ∧
      s.bindings = (p.reached typed).session.bindings ∧
      s.previous = (p.reached typed).session.previous ∧
      s.total = (p.reached typed).session.total := by
  obtain ⟨precision, storable, eq⟩ := Options.eq_of_begin named new begun
  have start : p.Mirrors o.session [] [] := by
    subst eq
    exact {
      present
      kept := rfl
      settings := storable
      fresh := fun _ => rfl
      stored := by simp
      replayed := fun precision strict _ => ⟨[], _, rfl, rfl, rfl, rfl, rfl⟩ }
  obtain ⟨lines, mirrors⟩ := start.run clearsFirst
  obtain ⟨stored, s, loaded, rebuilt, agrees⟩ := mirrors.comesBack last strictly
  have rates : (p.reached typed).rates = rates := by
    rw [Prompt.rates_reached, eq]
  exact ⟨stored, s, loaded, rates ▸ rebuilt, agrees.bindings.symm, agrees.previous.symm,
    agrees.total.symm⟩

end

/-! ## The same line twice -/

/-- The prompt in the new session `S`. -/
def exOpened : Prompt := { rates := [], store := {}, kept := some ("S", []) }

/-- The prompt with lines stored at the default settings. -/
def exStored (s : Session) (lines : List String) : Prompt where
  session := s
  rates := []
  store := { sessions := [("S", { lines := .texts lines })] }
  kept := some ("S", lines)

/-- A session after the line `2`. -/
def exWithTwo (s : Session) : Session :=
  { s.record { raw := "2", value := .number 2 } with previous := .number 2 }

theorem begin_exOpened : ∃ printed, ({ session := "S" } : Options).begin []
    (fun _ => .error .missing) {} = .ok (.prompt printed exOpened) :=
  ⟨_, rfl⟩

theorem eval_exWithTwo (s : Session) (rates : RateTable) :
    s.eval rates "2" = .ok (.number 2, exWithTwo s) :=
  Session.eval_of_expr parse_exNumber rfl rfl

namespace Prompt

variable {p : Prompt} {text : String}

theorem taken_of_command {c : Command} {s : Session} {out : List String}
    (nonblank : (Text.trim text).isEmpty = false) (command : Command.ofLine? text = some c)
    (stays : c ≠ .exit) (done : c.run p.session p.rates = .ok (out, s)) :
    p.after? text = some { p with session := s } ∧ p.effect? text = c.effect? p.session := by
  constructor
  · rw [after?, take, if_neg (by simp [nonblank]), command]
    cases c with
    | exit => exact absurd rfl stays
    | help | showVariables | total | clear | precision | strict => simp only [done]; rfl
  · rw [effect?, if_neg (by simp [nonblank]), command]

theorem exWithTwo_taken (storable : p.session.precision.Storable) :
    p.after? "2" = some (({ p with session := exWithTwo p.session } : Prompt).keep "2") ∧
      p.effect? "2" = some (.saves true) := by
  have nonblank : (Text.trim "2").isEmpty = false := by decide +kernel
  have calculation : Command.ofLine? "2" = none := by decide +kernel
  have value (s : Session) : s.preview p.rates "2" = .ok (.number 2) :=
    Session.preview_of_eval (eval_exWithTwo s p.rates)
  constructor
  · obtain ⟨out, done⟩ := evaluate_of_eval storable (eval_exWithTwo p.session p.rates)
    rw [after?, take, if_neg (by simp [nonblank]), calculation, done]
    rfl
  · rw [effect?, if_neg (by simp [nonblank]), calculation]
    simp only [value, Session.passesStrictly]
    rfl

theorem exClear_taken : p.after? "clear" = some { p with session := p.session.clear } ∧
    p.effect? "clear" = some .clears :=
  taken_of_command (c := .clear) (by decide +kernel) (by decide +kernel) nofun rfl

end Prompt

/-- Between the two lines strict mode is turned on. -/
theorem kept_session_comes_back_exWithTwo :
    let typed := [.line "clear", .line "2", .line "strict on", .line "2"]
    (∃ printed, ({ session := "S" } : Options).begin [] (fun _ => .error .missing) {} =
        .ok (.prompt printed exOpened)) ∧
      exOpened.effects typed = [.clears, .saves true, .sets, .saves true] ∧
      (exOpened.reached typed).session.strict = true ∧
      ∃ stored s, (exOpened.reached typed).store.load "S" = .ok (some stored) ∧
        stored.rebuild [] = .ok s ∧
        s.bindings = (exOpened.reached typed).session.bindings ∧
        s.previous = (exOpened.reached typed).session.previous ∧
        s.total = (exOpened.reached typed).session.total := by
  intro typed
  have clear : exOpened.after? "clear" = some exOpened ∧ exOpened.effect? "clear" = some .clears :=
    Prompt.exClear_taken
  have first : exOpened.after? "2" = some (exStored (exWithTwo {}) ["2"]) ∧
      exOpened.effect? "2" = some (.saves true) := Prompt.exWithTwo_taken rfl
  let strict : Prompt := exStored { exWithTwo {} with strict := true } ["2"]
  have turn : (exStored (exWithTwo {}) ["2"]).after? "strict on" = some strict ∧
      (exStored (exWithTwo {}) ["2"]).effect? "strict on" = some .sets :=
    Prompt.taken_of_command (c := .strict true) (by decide +kernel) (by decide +kernel) nofun rfl
  have second := Prompt.exWithTwo_taken (p := strict) rfl
  have effects : exOpened.effects typed = [.clears, .saves true, .sets, .saves true] := by
    rw [Prompt.effects_line clear.1, Prompt.effects_line first.1, Prompt.effects_line turn.1,
      Prompt.effects_line second.1, clear.2, first.2, turn.2, second.2]
    rfl
  have strictly : (exOpened.reached typed).session.strict = true := by
    rw [Prompt.reached_line clear.1, Prompt.reached_line first.1, Prompt.reached_line turn.1,
      Prompt.reached_line second.1, Prompt.reached, Prompt.session_keep]
    rfl
  obtain ⟨printed, begun⟩ := begin_exOpened
  refine ⟨⟨printed, begun⟩, effects, strictly,
    kept_session_comes_back rfl rfl rfl begun ?_ ?_ ?_⟩
  · rw [effects]
    exact ⟨true, rfl⟩
  · rw [effects]
    simp [ClearsFirst]
  · rw [effects]
    simp

/-- The line that was stored before the session was cleared comes back with the one after it. -/
theorem cleared_lines_come_back :
    let typed := [.line "2", .line "clear", .line "2"]
    (∃ printed, ({ session := "S" } : Options).begin [] (fun _ => .error .missing) {} =
        .ok (.prompt printed exOpened)) ∧
      exOpened.effects typed = [.saves true, .clears, .saves true] ∧
      ∃ stored s, (exOpened.reached typed).store.load "S" = .ok (some stored) ∧
        stored.rebuild [] = .ok s ∧
        (exOpened.reached typed).session.total = .number 2 ∧ s.total = .number 4 := by
  intro typed
  have first : exOpened.after? "2" = some (exStored (exWithTwo {}) ["2"]) ∧
      exOpened.effect? "2" = some (.saves true) := Prompt.exWithTwo_taken rfl
  have clear : (exStored (exWithTwo {}) ["2"]).after? "clear" = some (exStored {} ["2"]) ∧
      (exStored (exWithTwo {}) ["2"]).effect? "clear" = some .clears := Prompt.exClear_taken
  have second : (exStored {} ["2"]).after? "2" = some (exStored (exWithTwo {}) ["2", "2"]) ∧
      (exStored {} ["2"]).effect? "2" = some (.saves true) := Prompt.exWithTwo_taken rfl
  have reached : exOpened.reached typed = exStored (exWithTwo {}) ["2", "2"] := by
    rw [Prompt.reached_line first.1, Prompt.reached_line clear.1, Prompt.reached_line second.1,
      Prompt.reached]
  refine ⟨begin_exOpened, ?_, { lines := .texts ["2", "2"] }, exWithTwo (exWithTwo {}), ?_, ?_, ?_⟩
  · rw [Prompt.effects_line first.1, Prompt.effects_line clear.1, Prompt.effects_line second.1,
      first.2, clear.2, second.2]
    rfl
  · rw [reached]
    rfl
  · refine StoredSession.rebuild_iff.mpr ⟨.default, [.number 2, .number 2], rfl, ?_⟩
    simp only [Session.evalAll, eval_exWithTwo]
    rfl
  · rw [reached]
    decide +kernel

end LineCalc
