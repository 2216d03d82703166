import Mathlib
import LineCalc.Proofs.Expr.Computed
import LineCalc.Proofs.Session.Reachable

/-!
# Consumed lines

The history, the previous result and the marks of consumed lines are kept apart, but in a reachable
session the history determines the other two: the previous result is the latest amount, and a line
is consumed exactly if it has an amount and the next line with an amount goes on from it.

So the lines with amounts fall into chains, each a line with the continuations that go on from it,
and of each chain only the last line counts.

Results:
1. `Session.Consistent.step`: every step keeps the two facts.
2. `history_consistent`: they hold of every session of a reachable workspace, with the total as the
   sum over the chains.
-/

namespace LineCalc

/-! ## Marks -/

/-- The next line with an amount goes on from the previous result. -/
def takenUp (later : List LineRecord) : Bool :=
  (later.find? (·.value.isValid)).any (·.continuation)

/-- A line is consumed exactly if it has an amount that the next line with an amount takes up. -/
def RightlyMarked : List LineRecord → Prop
  | [] => True
  | r :: later => r.consumed = (r.value.isValid && takenUp later) ∧ RightlyMarked later

/-- The latest amount. -/
def latestAmount (rs : List LineRecord) : Value :=
  ((rs.findRev? (·.value.isValid)).map (·.value)).getD .empty

theorem rightlyMarked_iff {rs : List LineRecord} :
    RightlyMarked rs ↔ ∀ before r after, rs = before ++ r :: after →
      r.consumed = (r.value.isValid && takenUp after) := by
  induction rs with
  | nil => simp [RightlyMarked]
  | cons x later ih =>
    rw [RightlyMarked, ih]
    constructor
    · rintro ⟨first, others⟩ before r after split
      cases before with
      | nil =>
        obtain ⟨rfl, rfl⟩ := List.cons.inj split
        exact first
      | cons y before => exact others before r after (List.cons.inj split).2
    · intro all
      refine ⟨all [] x later rfl, fun before r after split => all (x :: before) r after ?_⟩
      rw [split, List.cons_append]

/-! ## The mark of the latest amount -/

theorem consumeLatest?_eq_none_iff {rs : List LineRecord} :
    consumeLatest? rs = none ↔ ∀ r ∈ rs, r.value.isValid = false := by
  induction rs with
  | nil => simp [consumeLatest?]
  | cons r rest ih =>
    rw [consumeLatest?, List.forall_mem_cons, ← ih]
    cases consumeLatest? rest <;> simp

/-- Only the latest line with an amount is marked. -/
theorem eq_of_consumeLatest? {rs rs' : List LineRecord} (h : consumeLatest? rs = some rs') :
    ∃ before r after, rs = before ++ r :: after ∧ r.value.isValid = true ∧
      (∀ a ∈ after, a.value.isValid = false) ∧
      rs' = before ++ { r with consumed := true } :: after := by
  induction rs generalizing rs' with
  | nil => cases h
  | cons x rest ih =>
    rw [consumeLatest?] at h
    split at h
    · next rest' later =>
      cases h
      obtain ⟨before, r, after, rfl, valid, invalid, rfl⟩ := ih later
      exact ⟨x :: before, r, after, rfl, valid, invalid, rfl⟩
    · next none =>
      split at h
      · next valid =>
        cases h
        exact ⟨[], x, rest, rfl, valid, consumeLatest?_eq_none_iff.mp none, rfl⟩
      · cases h

/-! ## A line comes to the history -/

theorem takenUp_of_invalid {rs : List LineRecord} (invalid : ∀ r ∈ rs, r.value.isValid = false) :
    takenUp rs = false := by
  have none : rs.find? (·.value.isValid) = none := by simpa using invalid
  rw [takenUp, none]
  rfl

/-- A line is taken up by the new one if it is the latest with an amount, and else as before. -/
theorem takenUp_append (rs : List LineRecord) (r : LineRecord) :
    takenUp (rs ++ [r]) =
      if rs.any (·.value.isValid) then takenUp rs else r.value.isValid && r.continuation := by
  induction rs with
  | nil => cases valid : r.value.isValid <;> simp [takenUp, valid]
  | cons x rest ih =>
    cases valid : x.value.isValid with
    | true => simp [takenUp, valid]
    | false => simpa [takenUp, valid] using ih

/-- Being consumed itself does not change what is taken up. -/
theorem takenUp_consumed (before after : List LineRecord) (r : LineRecord) :
    takenUp (before ++ { r with consumed := true } :: after) = takenUp (before ++ r :: after) := by
  cases found : before.find? (·.value.isValid) <;> cases valid : r.value.isValid <;>
    simp [takenUp, List.find?_append, found, valid]

theorem RightlyMarked.append {rs : List LineRecord} (h : RightlyMarked rs) {r : LineRecord}
    (fresh : r.consumed = false) (apart : (r.value.isValid && r.continuation) = false) :
    RightlyMarked (rs ++ [r]) := by
  induction rs with
  | nil => simp [RightlyMarked, fresh, takenUp]
  | cons x rest ih =>
    obtain ⟨mark, marks⟩ := h
    rw [List.cons_append]
    refine ⟨?_, ih marks⟩
    rw [takenUp_append, mark]
    split
    · rfl
    · next none => rw [apart, takenUp_of_invalid (by simpa using none)]

/-- A continuation takes up the latest amount, whose line becomes consumed. -/
theorem RightlyMarked.resume {rs : List LineRecord} (h : RightlyMarked rs) {r : LineRecord}
    (fresh : r.consumed = false) (taken : (r.value.isValid && r.continuation) = true) :
    RightlyMarked ((consumeLatest? rs).getD rs ++ [r]) := by
  induction rs with
  | nil => simp [RightlyMarked, consumeLatest?, fresh, takenUp]
  | cons x rest ih =>
    obtain ⟨mark, marks⟩ := h
    have ih := ih marks
    rw [consumeLatest?]
    cases later : consumeLatest? rest with
    | some rest' =>
      -- The latest amount comes after `x`, which is taken up or not as before.
      rw [later] at ih
      obtain ⟨before, y, after, rfl, valid, -, rfl⟩ := eq_of_consumeLatest? later
      rw [Option.getD_some, List.cons_append]
      refine ⟨?_, ih⟩
      rw [takenUp_append, takenUp_consumed, mark]
      simp [valid]
    | none =>
      -- `x` is the latest line that may have an amount.
      rw [later] at ih
      have invalid := consumeLatest?_eq_none_iff.mp later
      have next : takenUp (rest ++ [r]) = true := by
        rw [takenUp_append, taken, if_neg (by simpa using invalid)]
      cases valid : x.value.isValid with
      | true => exact ⟨by simp [valid, next], ih⟩
      | false =>
        refine ⟨?_, ih⟩
        rw [mark, valid]
        rfl

/-! ## The latest amount -/

theorem latestAmount_append (rs : List LineRecord) (r : LineRecord) :
    latestAmount (rs ++ [r]) = if r.value.isValid then r.value else latestAmount rs := by
  cases valid : r.value.isValid <;>
    simp [latestAmount, List.findRev?_eq_find?_reverse, valid]

/-! ## Chains -/

/-- The lines with amounts in chains: each line that goes on from the one before it is in its
chain. -/
def chains (rs : List LineRecord) : List (List LineRecord) :=
  (rs.filter (·.value.isValid)).splitBy fun _ r => r.continuation

/-- An element that the next one is related to comes first in the part of that one. -/
theorem splitBy_cons_of_rel {α : Type} {R : α → α → Bool} {x y : α} {l : List α}
    (related : R x y = true) : ∃ c cs, (y :: l).splitBy R = (y :: c) :: cs ∧
      (x :: y :: l).splitBy R = (x :: y :: c) :: cs := by
  cases parts : (y :: l).splitBy R with
  | nil => exact absurd parts (List.splitBy_ne_nil.mpr (List.cons_ne_nil y l))
  | cons part cs =>
    obtain ⟨joined, nonempty, within, between⟩ := List.splitBy_eq_iff.mp parts
    cases part with
    | nil => exact absurd List.mem_cons_self nonempty
    | cons z c =>
      obtain ⟨rfl, joined⟩ := List.cons.inj joined
      refine ⟨c, cs, rfl, List.splitBy_eq_iff.mpr ⟨by rw [joined]; rfl, ?_, ?_, ?_⟩⟩
      · simpa using nonempty
      · rw [List.forall_mem_cons] at within ⊢
        exact ⟨List.isChain_cons_cons.mpr ⟨related, within.1⟩, within.2⟩
      · cases cs with
        | nil => exact List.isChain_singleton _
        | cons d cs => simpa [List.isChain_cons_cons] using between

/-- Of each chain exactly the last line counts. -/
theorem filter_counts_eq {rs : List LineRecord} (h : RightlyMarked rs) :
    rs.filter (·.counts) = (chains rs).filterMap List.getLast? := by
  induction rs with
  | nil => rfl
  | cons r later ih =>
    obtain ⟨mark, marks⟩ := h
    have ih := ih marks
    cases valid : r.value.isValid with
    | false => simpa [chains, LineRecord.counts, valid] using ih
    | true =>
      rw [valid, Bool.true_and, takenUp, ← List.head?_filter] at mark
      have first : (r :: later).filter (·.value.isValid) = r :: later.filter (·.value.isValid) :=
        List.filter_cons_of_pos valid
      unfold chains at ih ⊢
      rw [first]
      cases amounts : later.filter (·.value.isValid) with
      | nil =>
        rw [amounts] at ih mark
        have counted : r.counts = true := by simp [LineRecord.counts, valid, mark]
        rw [List.filter_cons, if_pos counted, ih]
        rfl
      | cons next rest =>
        rw [amounts] at ih mark
        cases continues : next.continuation with
        | true =>
          -- The line is consumed, and the chain of the next one has the same last line.
          have uncounted : ¬ r.counts = true := by simp [LineRecord.counts, mark, continues]
          obtain ⟨c, cs, parts, joined⟩ :=
            splitBy_cons_of_rel (R := fun _ r => r.continuation) (x := r) (l := rest) continues
          rw [List.filter_cons, if_neg uncounted, ih, parts, joined]
          simp [List.filterMap_cons, List.getLast?_cons_cons]
        | false =>
          -- The line is a chain of its own.
          have counted : r.counts = true := by simp [LineRecord.counts, valid, mark, continues]
          have apart := List.splitBy_append_cons (r := fun _ r => r.continuation) (l := [r])
            (a := next) rest (by simpa using continues)
          rw [List.singleton_append] at apart
          rw [List.filter_cons, if_pos counted, ih, apart]
          rfl

/-! ## Sessions -/

/-- The amounts whose lines are marked as continuations are those of continuations. -/
def RightlyFlagged (rs : List LineRecord) : Prop :=
  ∀ r ∈ rs, r.value.isValid = true → ∃ line, Line.parse r.raw = .ok (line, []) ∧
    r.continuation = line.statement.isContinuation

theorem RightlyFlagged.append {rs : List LineRecord} (h : RightlyFlagged rs) {r : LineRecord}
    (flag : r.value.isValid = true → ∃ line, Line.parse r.raw = .ok (line, []) ∧
      r.continuation = line.statement.isContinuation) : RightlyFlagged (rs ++ [r]) :=
  List.forall_mem_append.mpr ⟨h, List.forall_mem_singleton.mpr flag⟩

theorem RightlyFlagged.consume {rs : List LineRecord} (h : RightlyFlagged rs) :
    RightlyFlagged ((consumeLatest? rs).getD rs) := by
  cases latest : consumeLatest? rs with
  | none => exact h
  | some rs' =>
    obtain ⟨before, r, after, rfl, -, -, rfl⟩ := eq_of_consumeLatest? latest
    obtain ⟨front, back⟩ := List.forall_mem_append.mp h
    obtain ⟨mid, back⟩ := List.forall_mem_cons.mp back
    exact List.forall_mem_append.mpr ⟨front, List.forall_mem_cons.mpr ⟨mid, back⟩⟩

/-- The history says what the previous result is and which lines are consumed. -/
structure Session.Consistent (s : Session) : Prop where
  previous : s.previous = latestAmount s.history
  marks : RightlyMarked s.history
  flags : RightlyFlagged s.history

namespace Session

variable {rates : RateTable} {s t : Session} {text : String} {v : Value}

theorem Consistent.outcome (h : s.Consistent) (done : s.Outcome rates text v t) :
    t.Consistent := by
  cases done with
  | @noted r raw invalid fresh _ =>
    refine ⟨?_, h.marks.append fresh (by simp [invalid]), h.flags.append (by simp [invalid])⟩
    show s.previous = latestAmount (s.history ++ [r])
    rw [latestAmount_append, invalid, h.previous]
    rfl
  | @assigned name e line v parsed statement _ _ valid =>
    refine ⟨?_, h.marks.append rfl (Bool.and_false _), h.flags.append fun _ => ?_⟩
    · show v = latestAmount (s.history ++ [_])
      rw [latestAmount_append, if_pos valid]
    · exact ⟨line, parsed, by rw [statement]; rfl⟩
  | @result e line v parsed statement _ valid =>
    have flag : ∃ line, Line.parse text = .ok (line, []) ∧
        e.isContinuation = line.statement.isContinuation :=
      ⟨line, parsed, by rw [statement]; rfl⟩
    cases continuation : e.isContinuation with
    | false =>
      refine ⟨?_, h.marks.append rfl (Bool.and_false _),
        h.flags.append fun _ => continuation ▸ flag⟩
      show v = latestAmount (s.history ++ [_])
      rw [latestAmount_append, if_pos valid]
    | true =>
      refine ⟨?_, h.marks.resume rfl (by simp [valid]), ?_⟩
      · show v = latestAmount (s.consume.history ++ [_])
        rw [latestAmount_append, if_pos valid]
      · exact h.flags.consume.append fun _ => continuation ▸ flag

theorem Consistent.edit (h : s.Consistent) (act : s.Edit t) : t.Consistent := by
  cases act with
  | setVariable set =>
    unfold setVariable? at set
    split at set <;> cases set
    exact ⟨h.previous, h.marks, h.flags⟩
  | deleteVariable deleted =>
    unfold deleteVariable? at deleted
    split at deleted <;> cases deleted
    exact ⟨h.previous, h.marks, h.flags⟩
  | setPrecision set =>
    obtain ⟨precision, -, rfl⟩ := map_ok_iff.mp set
    exact ⟨h.previous, h.marks, h.flags⟩
  | setStrict => exact ⟨h.previous, h.marks, h.flags⟩
  | clearVariables => exact ⟨h.previous, h.marks, h.flags⟩
  | clear | clearLines => exact ⟨rfl, trivial, List.forall_mem_nil _⟩

theorem Consistent.step (h : s.Consistent) (act : s.Step rates t) : t.Consistent :=
  act.preserves (fun done h => h.outcome (outcome_of_eval done)) (fun act h => h.edit act) h

end Session

theorem Workspace.Reachable.consistent {w : Workspace} (h : w.Reachable) :
    ∀ s ∈ w.sessions, s.Consistent :=
  h.invariant ⟨rfl, trivial, List.forall_mem_nil _⟩ fun act h => h.step act

/-- In every session that clients can come to, the previous result is the latest amount of the
history, and a line is consumed exactly if it has an amount and the next line with an amount is a
continuation. So of each chain of continuations the total counts the last line, and no other. -/
theorem history_consistent {w : Workspace} (reachable : w.Reachable) {s : Session}
    (mem : s ∈ w.sessions) :
    s.previous = ((s.history.findRev? (·.value.isValid)).map (·.value)).getD .empty ∧
    (∀ before r after, s.history = before ++ r :: after →
      (r.consumed = true ↔ r.value.isValid = true ∧
        ∃ next, after.find? (·.value.isValid) = some next ∧ next.continuation = true)) ∧
    (∀ r ∈ s.history, r.value.isValid = true → ∃ line, Line.parse r.raw = .ok (line, []) ∧
      r.continuation = line.statement.isContinuation) ∧
    s.total = .number
      (((chains s.history).filterMap List.getLast?).foldl (fun sum r => sum + r.value.magnitude) 0)
    := by
  have h := reachable.consistent s mem
  refine ⟨h.previous, fun before r after split => ?_, h.flags, ?_⟩
  · rw [rightlyMarked_iff.mp h.marks before r after split, Bool.and_eq_true, takenUp,
      Option.any_eq_true]
  · rw [Session.total, filter_counts_eq h.marks]

/-! ## A number taken up -/

/-- A session in which a number was given. -/
def exNumber : Session where
  previous := .number 2
  history := [{ raw := "2", value := .number 2 }]

/-- The session after a comment. -/
def exNoted : Session where
  previous := .number 2
  history := [{ raw := "2", value := .number 2 }, { raw := "# two", value := .empty }]

/-- The session after a continuation of the number. -/
def exResumed : Session where
  previous := .number 5
  history := [{ raw := "2", value := .number 2, consumed := true },
    { raw := "# two", value := .empty }, { raw := "+ 3", value := .number 5, continuation := true }]

theorem parse_exNumber :
    Line.parse "2" = .ok (⟨.expr (.literal 2 .plain "2"), none, "2"⟩, []) :=
  Parser.parse_of_walkLine (by decide +kernel)

theorem parse_exNote :
    Line.parse "# two" = .ok (⟨.comment "# two", some "# two", "# two"⟩, []) :=
  Parser.parse_of_walkLine (by decide +kernel)

theorem parse_exContinuation : Line.parse "+ 3" =
    .ok (⟨.expr (.resume .add (.literal 3 .plain "3")), none, "+ 3"⟩, []) :=
  Parser.parse_of_walkLine (by decide +kernel)

theorem eval_exNumber : ({} : Session).eval [] "2" = .ok (.number 2, exNumber) :=
  Session.eval_of_expr parse_exNumber rfl rfl

theorem eval_exNote : exNumber.eval [] "# two" = .ok (.empty, exNoted) := by
  rw [Session.eval_of_parse parse_exNote]
  rfl

theorem eval_exContinuation : exNoted.eval [] "+ 3" = .ok (.number 5, exResumed) := by
  have sum : (Expr.resume .add (.literal 3 .plain "3")).eval (exNoted.scope []) =
      .ok (.number 5) := eq_ok_of_toOption (by decide +kernel)
  exact Session.eval_of_expr parse_exContinuation rfl sum

theorem exNoted_reachable : Workspace.Reachable { sessions := [exNoted], rates := .empty 60 } :=
  .step (.step (.ofRates (.empty 60)) (.eval eval_exNumber)) (.eval eval_exNote)

theorem exResumed_reachable : Workspace.Reachable { sessions := [exResumed], rates := .empty 60 } :=
  .step exNoted_reachable (.eval eval_exContinuation)

/-- Of the number and its continuation only the latter counts. -/
theorem history_consistent_resumed :
    (Workspace.Reachable { sessions := [exResumed], rates := .empty 60 } ∧
      exResumed ∈ [exResumed]) ∧
    exResumed.previous =
      ((exResumed.history.findRev? (·.value.isValid)).map (·.value)).getD .empty ∧
    (∀ before r after, exResumed.history = before ++ r :: after →
      (r.consumed = true ↔ r.value.isValid = true ∧
        ∃ next, after.find? (·.value.isValid) = some next ∧ next.continuation = true)) ∧
    (∀ r ∈ exResumed.history, r.value.isValid = true → ∃ line, Line.parse r.raw = .ok (line, []) ∧
      r.continuation = line.statement.isContinuation) ∧
    exResumed.total = .number (((chains exResumed.history).filterMap List.getLast?).foldl
      (fun sum r => sum + r.value.magnitude) 0) :=
  ⟨⟨exResumed_reachable, List.mem_singleton_self _⟩,
    history_consistent exResumed_reachable (List.mem_singleton_self _)⟩

end LineCalc
