import LineCalc.Proofs.Rates.Writes
import LineCalc.Workspace

/-!
# Operations on sessions

What can be asked of a session, and what it answers. In a workspace the operations on its sessions
come in any order, and in between the rates change that all sessions share.

Results:
1. `unwinding`: if an action that is none of one's own shows in nothing that one sees, then the run
   without such actions gives the same answers and leaves the same to see.
2. `Workspace.unwinding_session`: this for one session of a workspace, which sees itself and the
   rates.
3. `Workspace.exists_operations`: every session of a workspace is one that operations on a new
   session lead to.
-/

namespace LineCalc

/-! ## Runs -/

section

variable {σ τ α β : Type} {act : σ → α → β × σ} {act' : τ → α → β × τ} {s : σ} {t : τ}

/-- The state after actions, one after another. -/
def afterActions (act : σ → α → β × σ) (s : σ) (actions : List α) : σ :=
  actions.foldl (fun s a => (act s a).2) s

/-- Actions, one after another, with what they are answered. -/
def transcript (act : σ → α → β × σ) (s : σ) : List α → List (α × β)
  | [] => []
  | a :: rest => (a, (act s a).1) :: transcript act (act s a).2 rest

theorem afterActions_append (act : σ → α → β × σ) (s : σ) (first rest : List α) :
    afterActions act s (first ++ rest) = afterActions act (afterActions act s first) rest :=
  List.foldl_append

/-- What every action keeps is kept by a run. -/
theorem afterActions_preserves {P : σ → Prop} {actions : List α}
    (step : ∀ s, ∀ a ∈ actions, P s → P (act s a).2) (h : P s) :
    P (afterActions act s actions) :=
  List.foldlRecOn actions _ h fun s h a mem => step s a mem h

/-- What answers each action like another, and stays related to it, answers all actions like it. -/
theorem simulation {R : σ → τ → Prop}
    (step : ∀ s t a, R s t → (act s a).1 = (act' t a).1 ∧ R (act s a).2 (act' t a).2)
    (h : R s t) (actions : List α) :
    transcript act s actions = transcript act' t actions ∧
      R (afterActions act s actions) (afterActions act' t actions) := by
  induction actions generalizing s t with
  | nil => exact ⟨rfl, h⟩
  | cons a rest ih =>
    obtain ⟨answer, next⟩ := step s t a h
    obtain ⟨answers, last⟩ := ih next
    exact ⟨by rw [transcript, transcript, answer, answers], last⟩

/-- If an action that is none of one's own changes nothing that one sees, and one's own actions give
the same where one sees the same, then nothing is seen of the other actions in a run. -/
theorem unwinding {Same : σ → σ → Prop} {own : α → Bool} {s' : σ}
    (others : ∀ s s' a, own a = false → Same s s' → Same (act s a).2 s')
    (mine : ∀ s s' a, own a = true → Same s s' →
      (act s a).1 = (act s' a).1 ∧ Same (act s a).2 (act s' a).2)
    (h : Same s s') (actions : List α) :
    (transcript act s actions).filter (own ·.1) = transcript act s' (actions.filter own) ∧
      Same (afterActions act s actions) (afterActions act s' (actions.filter own)) := by
  induction actions generalizing s s' with
  | nil => exact ⟨rfl, h⟩
  | cons a rest ih =>
    cases owned : own a with
    | false =>
      obtain ⟨answers, last⟩ := ih (others s s' a owned h)
      simp only [transcript, List.filter_cons, owned, Bool.false_eq_true, if_false]
      exact ⟨answers, last⟩
    | true =>
      obtain ⟨answer, next⟩ := mine s s' a owned h
      obtain ⟨answers, last⟩ := ih next
      simp only [transcript, List.filter_cons, owned, if_true, answer, answers, true_and]
      exact last

end

/-! ## Sessions -/

/-- What can be asked of a session. -/
inductive Session.Operation
  | eval (text : String)
  | preview (text : String)
  | setVariable (name : String) (v : Value)
  | deleteVariable (name : String)
  | setPrecision (given : Json)
  | setStrict (strict : Bool)
  | clear
  | clearVariables
  | clearLines
  | clone

/-- What a session answers. -/
inductive Session.Answer
  | value (outcome : Except Fault Value)
  | accepted (yes : Bool)
  | set (outcome : Except Fault Unit)
  | done
  | copy (s : Session)

/-- An outcome without its value. -/
def withoutValue {α : Type} (outcome : Except Fault α) : Except Fault Unit :=
  outcome.map fun _ => ()

namespace Session

/-- An operation on a session: its answer, and the session after it. What is refused or meets a
fault changes nothing. -/
def perform (s : Session) (rates : RateTable) : Operation → Answer × Session
  | .eval text =>
    match s.eval rates text with
    | .ok (v, s) => (.value (.ok v), s)
    | .error f => (.value (.error f), s)
  | .preview text => (.value (s.preview rates text), s)
  | .setVariable name v =>
    let set := s.setVariable? name v
    (.accepted set.isSome, set.getD s)
  | .deleteVariable name =>
    let deleted := s.deleteVariable? name
    (.accepted deleted.isSome, deleted.getD s)
  | .setPrecision given =>
    let set := s.setPrecision given
    (.set (withoutValue set), set.toOption.getD s)
  | .setStrict strict => (.done, { s with strict })
  | .clear => (.done, s.clear)
  | .clearVariables => (.done, s.clearVariables)
  | .clearLines => (.done, s.clearLines)
  | .clone => (.copy s, s)

/-- The operation evaluates a line without recording it. -/
def Operation.isPreview : Operation → Bool
  | .preview _ => true
  | _ => false

/-- The copies that an operation on a session makes. -/
def Operation.copies (s : Session) : Operation → List Session
  | .clone => [s]
  | _ => []

/-- Operations, each at some rates. -/
abbrev Operations := List (RateTable × Operation)

/-- The session after operations. -/
def performAll (s : Session) (ops : Operations) : Session :=
  afterActions (fun s op => s.perform op.1 op.2) s ops

theorem perform_preview (s : Session) (rates : RateTable) {op : Operation}
    (preview : op.isPreview = true) : (s.perform rates op).2 = s := by
  cases op with
  | preview text => rfl
  | _ => cases preview

end Session

/-! ## Workspaces -/

/-- What can be done in a workspace. -/
inductive Workspace.Action
  | ask (i : Nat) (op : Session.Operation)
  | rates (a : RateAction)

/-- What is answered in a workspace. -/
inductive Workspace.Answer
  | noSession
  | session (a : Session.Answer)
  | rates (outcome : Except Fault Unit)

namespace Workspace

/-- An action in a workspace: its answer, and the workspace after it. -/
def take (w : Workspace) : Action → Answer × Workspace
  | .ask i op =>
    if i < w.sessions.length then
      let w := w.activate i
      let done := w.session.perform w.rates.table op
      let w := w.setSession done.2
      (.session done.1, match op with
        | .clone => w.clone
        | _ => w)
    else (.noSession, w)
  | .rates a => (.rates (withoutValue (w.rates.perform a)), { w with rates := w.rates.after a })

/-- The workspace after actions. -/
def run (w : Workspace) (actions : List Action) : Workspace := afterActions take w actions

/-- Actions in a workspace with what they are answered. -/
def told (w : Workspace) (actions : List Action) : List (Action × Answer) :=
  transcript take w actions

/-- The action is one on the rates, or on this session and no preview. -/
def Action.concerns (i : Nat) : Action → Bool
  | .ask j op => j == i && !op.isPreview
  | .rates _ => true

variable {w w' : Workspace} {i j : Nat} {op : Session.Operation}

theorem session_activate {s : Session} (found : w.sessions[i]? = some s) :
    (w.activate i).session = s := by
  rw [session, activate, List.getD_eq_getElem?_getD, found]
  rfl

/-- An operation on a session changes that session, and adds a copy of it if it is to be cloned. -/
theorem sessions_take {s : Session} (found : w.sessions[i]? = some s) (op : Session.Operation) :
    (w.take (.ask i op)).1 = .session (s.perform w.rates.table op).1 ∧
    (w.take (.ask i op)).2.sessions =
      w.sessions.set i (s.perform w.rates.table op).2 ++ op.copies s ∧
    (w.take (.ask i op)).2.rates = w.rates := by
  obtain ⟨there, -⟩ := List.getElem?_eq_some_iff.mp found
  have active := session_activate found
  have opened : w.take (.ask i op) = (.session (s.perform w.rates.table op).1,
      match op with
      | .clone => ((w.activate i).setSession (s.perform w.rates.table op).2).clone
      | _ => (w.activate i).setSession (s.perform w.rates.table op).2) := by
    rw [← active, take, if_pos there]
    rfl
  rw [opened]
  cases op with
  | clone =>
    refine ⟨rfl, ?_, rfl⟩
    have copied : ((w.activate i).setSession s).session = s := by
      simp [session, setSession, activate, there]
    show w.sessions.set i s ++ [((w.activate i).setSession s).session] = _
    rw [copied]
    rfl
  | _ => exact ⟨rfl, (List.append_nil _).symm, rfl⟩

theorem take_of_absent (absent : w.sessions[i]? = none) :
    w.take (.ask i op) = (.noSession, w) :=
  if_neg (Nat.not_lt.mpr (List.getElem?_eq_none_iff.mp absent))

/-! ## One session of many -/

/-- A session and the rates are the same in two workspaces. -/
structure SameSession (i : Nat) (w w' : Workspace) : Prop where
  there : i < w.sessions.length
  session : w'.sessions[i]? = w.sessions[i]?
  rates : w'.rates = w.rates

/-- What is asked of another session does not show in this one, nor does a preview. -/
theorem SameSession.others (same : SameSession i w w') {a : Action} (other : a.concerns i = false) :
    SameSession i (w.take a).2 w' := by
  cases a with
  | rates a => cases other
  | ask j op =>
    cases found : w.sessions[j]? with
    | none =>
      rw [take_of_absent found]
      exact same
    | some s =>
      obtain ⟨-, sessions, rates⟩ := sessions_take found op
      refine ⟨?_, ?_, same.rates.trans rates.symm⟩
      · rw [sessions, List.length_append, List.length_set]
        exact Nat.lt_add_right _ same.there
      · rw [same.session, sessions,
          List.getElem?_append_left (by rw [List.length_set]; exact same.there)]
        by_cases own : j = i
        · -- Of the session itself only a preview is none of its own operations.
          subst own
          have preview : op.isPreview = true := by simpa [Action.concerns] using other
          rw [Session.perform_preview s _ preview, found,
            List.getElem?_set_self same.there]
        · rw [List.getElem?_set_ne own]

/-- What is asked of the session itself, and a change of the rates, gives the same in both. -/
theorem SameSession.mine (same : SameSession i w w') {a : Action} (own : a.concerns i = true) :
    (w.take a).1 = (w'.take a).1 ∧ SameSession i (w.take a).2 (w'.take a).2 := by
  cases a with
  | rates a =>
    have same' := same.rates
    exact ⟨by rw [take, take, same'], same.there, same.session, by rw [take, take, same']⟩
  | ask j op =>
    obtain ⟨rfl, -⟩ : j = i ∧ op.isPreview = false := by simpa [Action.concerns] using own
    have found := List.getElem?_eq_getElem same.there
    have found' := same.session.trans found
    obtain ⟨there', -⟩ := List.getElem?_eq_some_iff.mp found'
    obtain ⟨answer, sessions, rates⟩ := sessions_take found op
    obtain ⟨answer', sessions', rates'⟩ := sessions_take found' op
    have same' := same.rates
    refine ⟨by rw [answer, answer', same'], ?_, ?_, by rw [rates, rates', same']⟩
    · rw [sessions, List.length_append, List.length_set]
      exact Nat.lt_add_right _ same.there
    · rw [sessions, sessions', same',
        List.getElem?_append_left (by rw [List.length_set]; exact there'),
        List.getElem?_append_left (by rw [List.length_set]; exact same.there),
        List.getElem?_set_self there', List.getElem?_set_self same.there]

/-- One session and the rates, in the run of all actions and in that of those that concern it. -/
theorem unwinding_session (there : i < w.sessions.length) (actions : List Action) :
    (w.told actions).filter (·.1.concerns i) = w.told (actions.filter (·.concerns i)) ∧
      SameSession i (w.run actions) (w.run (actions.filter (·.concerns i))) :=
  unwinding (fun _ _ _ other same => same.others other) (fun _ _ _ own same => same.mine own)
    (show SameSession i w w from ⟨there, rfl, rfl⟩) actions

/-! ## The operations behind a session -/

/-- What all sessions of a workspace are, and an operation makes of one that is, all sessions are
after an action. -/
theorem sessions_take_invariant {P : Session → Prop} {a : Action} (h : ∀ s ∈ w.sessions, P s)
    (step : ∀ i op s, a = .ask i op → P s → P (s.perform w.rates.table op).2) :
    ∀ s ∈ (w.take a).2.sessions, P s := by
  cases a with
  | rates a => exact h
  | ask i op =>
    cases found : w.sessions[i]? with
    | none =>
      rw [take_of_absent found]
      exact h
    | some s =>
      have held : P s := h s (List.mem_of_getElem? found)
      rw [(sessions_take found op).2.1]
      intro t mem
      rcases List.mem_append.mp mem with mem | mem
      · rcases List.mem_or_eq_of_mem_set mem with mem | rfl
        · exact h t mem
        · exact step i op s rfl held
      · -- Only a copy is added.
        cases op with
        | clone => exact List.mem_singleton.mp mem ▸ held
        | _ => cases mem

/-- Every session of a workspace is one that operations on a new session lead to, be they asked of
it or of those that it was copied from. -/
theorem exists_operations (rates : RateCache) (actions : List Action) :
    ∀ s ∈ ((ofRates rates).run actions).sessions,
      ∃ ops : Session.Operations, ({} : Session).performAll ops = s ∧
        ∀ op ∈ ops, ∃ i, Action.ask i op.2 ∈ actions := by
  refine afterActions_preserves
    (P := fun w : Workspace => ∀ s ∈ w.sessions, ∃ ops : Session.Operations,
      ({} : Session).performAll ops = s ∧ ∀ op ∈ ops, ∃ i, Action.ask i op.2 ∈ actions)
    (fun w a asked held => sessions_take_invariant held ?_) ?_
  · rintro i op s rfl ⟨ops, rfl, origin⟩
    refine ⟨ops ++ [(w.rates.table, op)], afterActions_append _ _ _ _, ?_⟩
    intro op' mem
    rcases List.mem_append.mp mem with mem | mem
    · exact origin op' mem
    · exact ⟨i, List.mem_singleton.mp mem ▸ asked⟩
  · exact List.forall_mem_singleton.mpr ⟨[], rfl, List.forall_mem_nil _⟩

end Workspace

end LineCalc
