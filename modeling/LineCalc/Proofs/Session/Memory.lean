import Mathlib.Data.List.Nodup
import LineCalc.Proofs.Session.Consumption
import LineCalc.Proofs.Session.Operations

/-!
# Sessions kept in memory

To its clients a session is a value. Kept in memory it is a table of variables, a list of lines and
the records of these lines, all of them changed in place: a continuation marks a record that is
there, an assignment writes into a table that is there. A copy, and a preview, which is a line
evaluated on a copy, stay without effect on the original only because a copy shares no table, no
list and no record with it.

Results:
1. `Heap.Writes.changes`: an operation that writes only what its session has, or what is new, leaves
   every session as it is that is apart from this one.
2. `Memory.refines`: sessions kept in memory give the same answers as the sessions of a workspace,
   and hold the same.
3. `sessions_do_not_interfere`: of any number of sessions, each is left by the operations on the
   others as it would be without them.
-/

namespace LineCalc

/-! ## Memory -/

/-- Where a session is kept, with what it has by value. -/
structure Handle where
  /-- The address of its variables. -/
  table : Nat
  /-- The address of the list of its lines. -/
  lines : Nat
  previous : Value := .empty
  precision : Precision := .default
  strict : Bool := false

/-- A value becomes the previous result, if it is an amount. -/
def Handle.setPrevious (h : Handle) (v : Value) : Handle :=
  if v.isValid then { h with previous := v } else h

/-- What is changed in place. An address is an index. -/
structure Heap where
  tables : List (Entries String Value)
  /-- Lists of addresses of records. -/
  lists : List (List Nat)
  records : List LineRecord

namespace Heap

/-- The addresses of the lines of a session, the oldest first. -/
def places (m : Heap) (h : Handle) : List Nat := m.lists.getD h.lines []

/-- The session that is kept at a place. -/
def session (m : Heap) (h : Handle) : Session where
  bindings := m.tables.getD h.table []
  previous := h.previous
  history := (m.places h).filterMap (m.records[·]?)
  precision := h.precision
  strict := h.strict

/-! ### Writing -/

/-- A new record, at the end of the list of a session. -/
def record (m : Heap) (h : Handle) (r : LineRecord) : Heap :=
  { m with
    lists := m.lists.modify h.lines (· ++ [m.records.length])
    records := m.records ++ [r] }

/-- The line at an address has an amount. -/
def isValidAt (m : Heap) (a : Nat) : Bool := m.records[a]?.any (·.value.isValid)

/-- Marks the latest line with an amount. -/
def consume (m : Heap) (h : Handle) : Heap :=
  match (m.places h).reverse.find? m.isValidAt with
  | none => m
  | some a => { m with records := m.records.modify a fun r => { r with consumed := true } }

/-- Writes into the variables of a session. -/
def changeTable (m : Heap) (h : Handle) (f : Entries String Value → Entries String Value) : Heap :=
  { m with tables := m.tables.modify h.table f }

def setVariable? (m : Heap) (h : Handle) (name : String) (v : Value) : Option Heap :=
  if isReservedName name || v.isError then none else some (m.changeTable h (·.set name v))

def deleteVariable? (m : Heap) (h : Handle) (name : String) : Option Heap :=
  if ((m.session h).bindings.lookup name).isSome then
    some (m.changeTable h (·.filter (·.1 != name)))
  else none

/-- A new table for the variables. The old one is left as it is. -/
def newTable (m : Heap) (h : Handle) : Heap × Handle :=
  ({ m with tables := m.tables ++ [[]] }, { h with table := m.tables.length })

/-- A new list for the lines. The old one is left as it is. -/
def newLines (m : Heap) (h : Handle) : Heap × Handle :=
  ({ m with lists := m.lists ++ [[]] }, { h with lines := m.lists.length, previous := .empty })

/-- A copy of a session: of its table, of its list, and of each of its records. -/
def copy (m : Heap) (h : Handle) : Heap × Handle :=
  let s := m.session h
  ({ tables := m.tables ++ [s.bindings]
     lists := m.lists ++ [List.range' m.records.length s.history.length]
     records := m.records ++ s.history },
    { h with table := m.tables.length, lines := m.lists.length })

/-! ### Lines -/

/-- A line is recorded, and its value becomes the previous result if it is an amount. -/
def note (m : Heap) (h : Handle) (r : LineRecord) : Value × Heap × Handle :=
  (r.value, m.record h r, h.setPrevious r.value)

/-- Evaluates a statement and records it. -/
def evalStatement (m : Heap) (h : Handle) (rates : RateTable) (raw : String) :
    Statement → Except Fault (Value × Heap × Handle)
  | .empty | .comment _ => .ok (m.note h { raw, value := .empty })
  | .assign name e =>
    if isReservedName name then .ok (m.note h { raw, value := .error (.reservedName name) })
    else do
      let value ← e.eval ((m.session h).scope rates)
      if value.isValid then
        return ((m.setVariable? h name value).getD m).note h
          { raw, value, assigned := some name }
      else return m.note h { raw, value }
  | .expr e => do
    let value ← e.eval ((m.session h).scope rates)
    let continuation := e.isContinuation
    return (if continuation && value.isValid then m.consume h else m).note h
      { raw, value, continuation }

/-- Evaluates a line and records it. -/
def eval (m : Heap) (h : Handle) (rates : RateTable) (text : String) :
    Except Fault (Value × Heap × Handle) := do
  let (line, problems) ← Line.parse text
  match problems with
  | d :: _ => return m.note h { raw := text, value := .error d.problem }
  | [] => m.evalStatement h rates text line.statement

/-! ### Operations -/

/-- What an operation answers and leaves behind. -/
structure Done where
  answer : Session.Answer
  heap : Heap
  handle : Handle
  /-- Where a copy is kept. -/
  added : List Handle := []

/-- An operation on a session. A preview is a line evaluated on a copy that nobody keeps. -/
def perform (m : Heap) (h : Handle) (rates : RateTable) : Session.Operation → Done
  | .eval text =>
    match m.eval h rates text with
    | .ok (v, heap, handle) => { answer := .value (.ok v), heap, handle }
    | .error f => { answer := .value (.error f), heap := m, handle := h }
  | .preview text =>
    let copied := m.copy h
    match copied.1.eval copied.2 rates text with
    | .ok (v, heap, _) => { answer := .value (.ok v), heap, handle := h }
    | .error f => { answer := .value (.error f), heap := copied.1, handle := h }
  | .setVariable name v =>
    let set := m.setVariable? h name v
    { answer := .accepted set.isSome, heap := set.getD m, handle := h }
  | .deleteVariable name =>
    let deleted := m.deleteVariable? h name
    { answer := .accepted deleted.isSome, heap := deleted.getD m, handle := h }
  | .setPrecision given =>
    let precision := Precision.ofJson given
    { answer := .set (withoutValue precision)
      heap := m
      handle := { h with precision := precision.toOption.getD h.precision } }
  | .setStrict strict => { answer := .done, heap := m, handle := { h with strict } }
  | .clear =>
    let (m, h) := m.newTable h
    let (m, h) := m.newLines h
    { answer := .done, heap := m, handle := h }
  | .clearVariables =>
    let (m, h) := m.newTable h
    { answer := .done, heap := m, handle := h }
  | .clearLines =>
    let (m, h) := m.newLines h
    { answer := .done, heap := m, handle := h }
  | .clone =>
    let (m, copy) := m.copy h
    { answer := .copy (m.session copy), heap := m, handle := h, added := [copy] }

end Heap

/-- Sessions kept in one memory, with the rates that they share. -/
structure Memory where
  heap : Heap
  handles : List Handle
  rates : RateCache

namespace Memory

/-- A memory with one new session. -/
def ofRates (rates : RateCache) : Memory where
  heap := { tables := [[]], lists := [[]], records := [] }
  handles := [{ table := 0, lines := 0 }]
  rates := rates

/-- The sessions in the order in which they came in. -/
def sessions (m : Memory) : List Session := m.handles.map m.heap.session

/-- An action: its answer, and the memory after it. -/
def take (m : Memory) : Workspace.Action → Workspace.Answer × Memory
  | .ask i op =>
    match m.handles[i]? with
    | none => (.noSession, m)
    | some h =>
      let done := m.heap.perform h m.rates.table op
      (.session done.answer,
        { m with heap := done.heap, handles := m.handles.set i done.handle ++ done.added })
  | .rates a => (.rates (withoutValue (m.rates.perform a)), { m with rates := m.rates.after a })

/-- The memory after actions. -/
def run (m : Memory) (actions : List Workspace.Action) : Memory := afterActions take m actions

/-- Actions with what they are answered. -/
def told (m : Memory) (actions : List Workspace.Action) :
    List (Workspace.Action × Workspace.Answer) :=
  transcript take m actions

end Memory

/-! ## What is written where -/

namespace Heap

variable {m m' m'' : Heap} {h h' h'' k : Handle} {s t : Session} {rates : RateTable}
  {text raw : String}

/-- What the session is kept in is there, and none of its lines is there twice. -/
structure Holds (m : Heap) (h : Handle) : Prop where
  table : h.table < m.tables.length
  lines : h.lines < m.lists.length
  records : ∀ a ∈ m.places h, a < m.records.length
  distinct : (m.places h).Nodup

/-- Two sessions have nothing in common that is changed in place. -/
structure Apart (m : Heap) (h k : Handle) : Prop where
  table : h.table ≠ k.table
  lines : h.lines ≠ k.lines
  records : ∀ a ∈ m.places h, a ∉ m.places k

/-- A session stays where it is and as it is. -/
structure Kept (m m' : Heap) (k : Handle) : Prop where
  holds : m'.Holds k
  places : m'.places k = m.places k
  session : m'.session k = m.session k

/-- The session becomes `t`. Those that are apart from it stay as they are, and apart from it. -/
structure Changes (m : Heap) (h : Handle) (t : Session) (m' : Heap) (h' : Handle) : Prop where
  holds : m'.Holds h'
  session : m'.session h' = t
  others : ∀ k, m.Holds k → m.Apart h k → m.Kept m' k ∧ m'.Apart h' k

/-- A session `t` comes in that is apart from all that are there. -/
structure Adds (m : Heap) (t : Session) (m' : Heap) (h' : Handle) : Prop where
  holds : m'.Holds h'
  session : m'.session h' = t
  others : ∀ k, m.Holds k → m.Kept m' k ∧ m'.Apart h' k

/-- What is written is the session's own, and what it then has was its own or is new. -/
structure Writes (m : Heap) (h : Handle) (m' : Heap) (h' : Handle) : Prop where
  tables : ∀ a < m.tables.length, a ≠ h.table → m'.tables[a]? = m.tables[a]?
  lists : ∀ a < m.lists.length, a ≠ h.lines → m'.lists[a]? = m.lists[a]?
  records : ∀ a < m.records.length, a ∉ m.places h → m'.records[a]? = m.records[a]?
  table : h'.table = h.table ∨ m.tables.length ≤ h'.table
  lines : h'.lines = h.lines ∨ m.lists.length ≤ h'.lines
  places : ∀ a ∈ m'.places h', a ∈ m.places h ∨ m.records.length ≤ a

theorem places_congr (lines : m'.lists[k.lines]? = m.lists[k.lines]?) :
    m'.places k = m.places k := by
  rw [places, places, List.getD_eq_getElem?_getD, List.getD_eq_getElem?_getD, lines]

theorem Apart.symm (apart : m.Apart h k) : m.Apart k h :=
  ⟨apart.table.symm, apart.lines.symm, fun a mem mem' => apart.records a mem' mem⟩

theorem Kept.trans (first : m.Kept m' k) (next : m'.Kept m'' k) : m.Kept m'' k :=
  ⟨next.holds, next.places.trans first.places, next.session.trans first.session⟩

theorem Kept.apart (keptH : m.Kept m' h) (keptK : m.Kept m' k) (apart : m.Apart h k) :
    m'.Apart h k :=
  ⟨apart.table, apart.lines, by rw [keptH.places, keptK.places]; exact apart.records⟩

theorem Kept.of_same (held : m.Holds k) (table : m'.tables[k.table]? = m.tables[k.table]?)
    (lines : m'.lists[k.lines]? = m.lists[k.lines]?)
    (records : ∀ a ∈ m.places k, m'.records[a]? = m.records[a]?) : m.Kept m' k := by
  have places : m'.places k = m.places k := places_congr lines
  refine ⟨⟨?_, ?_, ?_, places ▸ held.distinct⟩, places, ?_⟩
  · exact (List.getElem?_eq_some_iff.mp (table.trans (List.getElem?_eq_getElem held.table))).1
  · exact (List.getElem?_eq_some_iff.mp (lines.trans (List.getElem?_eq_getElem held.lines))).1
  · intro a mem
    rw [places] at mem
    have there := List.getElem?_eq_getElem (held.records a mem)
    exact (List.getElem?_eq_some_iff.mp ((records a mem).trans there)).1
  · rw [Heap.session, Heap.session, places, List.getD_eq_getElem?_getD,
      List.getD_eq_getElem?_getD, table, List.filterMap_congr records]

theorem Changes.trans (first : m.Changes h s m' h') (next : m'.Changes h' t m'' h'') :
    m.Changes h t m'' h'' where
  holds := next.holds
  session := next.session
  others k held apart := by
    obtain ⟨kept, apart⟩ := first.others k held apart
    obtain ⟨kept', apart⟩ := next.others k kept.holds apart
    exact ⟨kept.trans kept', apart⟩

theorem Writes.changes (w : m.Writes h m' h') (holds : m'.Holds h') (session : m'.session h' = t) :
    m.Changes h t m' h' where
  holds := holds
  session := session
  others k held apart := by
    have kept : m.Kept m' k := .of_same held (w.tables _ held.table apart.table.symm)
      (w.lists _ held.lines apart.lines.symm)
      fun a mem => w.records a (held.records a mem) fun own => apart.records a own mem
    refine ⟨kept, ?_, ?_, ?_⟩
    · rcases w.table with same | new
      · exact same ▸ apart.table
      · exact (Nat.lt_of_lt_of_le held.table new).ne'
    · rcases w.lines with same | new
      · exact same ▸ apart.lines
      · exact (Nat.lt_of_lt_of_le held.lines new).ne'
    · intro a mem
      rw [kept.places]
      rcases w.places a mem with own | new
      · exact apart.records a own
      · exact fun other => Nat.not_lt.mpr new (held.records a other)

/-- Only what a session has by value is another. -/
theorem Changes.of_handle (held : m.Holds h) (h' : Handle) (table : h'.table = h.table)
    (lines : h'.lines = h.lines) : m.Changes h (m.session h') m h' := by
  have places : m.places h' = m.places h := by rw [Heap.places, Heap.places, lines]
  refine Writes.changes ⟨fun _ _ _ => rfl, fun _ _ _ => rfl, fun _ _ _ => rfl, .inl table,
    .inl lines, fun a mem => .inl (places ▸ mem)⟩ ?_ rfl
  exact ⟨table ▸ held.table, lines ▸ held.lines, places ▸ held.records, places ▸ held.distinct⟩

/-! ### Each write -/

theorem places_record (held : m.Holds h) (r : LineRecord) :
    (m.record h r).places h = m.places h ++ [m.records.length] := by
  simp [places, record, List.getD_eq_getElem?_getD, held.lines]

theorem record_changes (held : m.Holds h) (r : LineRecord) :
    m.Changes h ((m.session h).record r) (m.record h r) h := by
  have places := places_record held r
  have earlier : ∀ a < m.records.length, (m.record h r).records[a]? = m.records[a]? :=
    fun a lt => List.getElem?_append_left lt
  refine Writes.changes ⟨fun _ _ _ => rfl, ?_, fun a lt _ => earlier a lt, .inl rfl, .inl rfl, ?_⟩
    ⟨held.table, ?_, ?_, ?_⟩ ?_
  · intro a _ other
    exact List.getElem?_modify_ne _ _ other.symm
  · rw [places]
    intro a mem
    exact (List.mem_append.mp mem).imp_right fun last => (List.mem_singleton.mp last).ge
  · simpa [record] using held.lines
  · rw [places]
    intro a mem
    have length : (m.record h r).records.length = m.records.length + 1 := by simp [record]
    rw [length]
    rcases List.mem_append.mp mem with mem | mem
    · exact Nat.lt_succ_of_lt (held.records a mem)
    · exact (List.mem_singleton.mp mem) ▸ Nat.lt_succ_self _
  · rw [places]
    refine List.nodup_append.mpr ⟨held.distinct, List.nodup_singleton _, ?_⟩
    rintro a mem b last rfl
    exact (held.records a mem).ne (List.mem_singleton.mp last)
  · have history : ((m.record h r).places h).filterMap ((m.record h r).records[·]?) =
        (m.places h).filterMap (m.records[·]?) ++ [r] := by
      rw [places, List.filterMap_append,
        List.filterMap_congr fun a mem => earlier a (held.records a mem)]
      simp [record]
    rw [session, history]
    rfl

/-- Among records at different addresses, marking the latest one with an amount is what
`consumeLatest?` does. -/
theorem consumeLatest?_read (m : Heap) {places : List Nat} (distinct : places.Nodup)
    (there : ∀ a ∈ places, a < m.records.length) :
    consumeLatest? (places.filterMap (m.records[·]?)) =
      (places.reverse.find? m.isValidAt).map fun a =>
        places.filterMap ((m.records.modify a fun r => { r with consumed := true })[·]?) := by
  induction places with
  | nil => rfl
  | cons a rest ih =>
    obtain ⟨fresh, distinct⟩ := List.nodup_cons.mp distinct
    have ih := ih distinct fun b mem => there b (List.mem_cons_of_mem _ mem)
    obtain ⟨r, read⟩ : ∃ r, m.records[a]? = some r :=
      ⟨_, List.getElem?_eq_getElem (there a List.mem_cons_self)⟩
    rw [List.filterMap_cons, read, List.reverse_cons, List.find?_append]
    simp only [consumeLatest?, ih]
    cases later : rest.reverse.find? m.isValidAt with
    | some b =>
      -- The record that is marked is another one than the first.
      have other : b ≠ a := by
        rintro rfl
        exact fresh (List.mem_reverse.mp (List.mem_of_find?_eq_some later))
      simp [List.filterMap_cons, List.getElem?_modify_ne _ _ other, read]
    | none =>
      have valid : m.isValidAt a = r.value.isValid := by
        rw [isValidAt, read, Option.any_some]
      have kept : rest.filterMap
            ((m.records.modify a fun r => { r with consumed := true })[·]?) =
          rest.filterMap (m.records[·]?) :=
        List.filterMap_congr fun b mem =>
          List.getElem?_modify_ne _ _ fun (same : a = b) => fresh (same ▸ mem)
      cases amount : m.isValidAt a with
      | true => simp [amount, ← valid, read, kept]
      | false => simp [amount, ← valid]

theorem consume_changes (held : m.Holds h) :
    m.Changes h (m.session h).consume (m.consume h) h := by
  have consumed := consumeLatest?_read m held.distinct held.records
  cases latest : (m.places h).reverse.find? m.isValidAt with
  | none =>
    have same : m.consume h = m := by rw [consume, latest]
    have nothing : (m.session h).consume = m.session h := by
      rw [latest] at consumed
      simp [Session.consume, session, consumed]
    rw [same, nothing]
    exact .of_handle held h rfl rfl
  | some a =>
    have marked : m.consume h =
        { m with records := m.records.modify a fun r => { r with consumed := true } } := by
      rw [consume, latest]
    have own : a ∈ m.places h := List.mem_reverse.mp (List.mem_of_find?_eq_some latest)
    rw [marked]
    refine Writes.changes ⟨fun _ _ _ => rfl, fun _ _ _ => rfl, ?_, .inl rfl, .inl rfl,
      fun _ mem => .inl mem⟩ ⟨held.table, held.lines, ?_, held.distinct⟩ ?_
    · intro b _ other
      exact List.getElem?_modify_ne _ _ fun (same : a = b) => other (same ▸ own)
    · intro b mem
      simpa using held.records b mem
    · rw [latest] at consumed
      simp only [Option.map_some] at consumed
      simp [Session.consume, session, consumed]
      rfl

theorem changeTable_changes (held : m.Holds h) (f : Entries String Value → Entries String Value) :
    m.Changes h { m.session h with bindings := f (m.session h).bindings }
      (m.changeTable h f) h := by
  refine Writes.changes ⟨fun a _ other => List.getElem?_modify_ne _ _ other.symm, fun _ _ _ => rfl,
    fun _ _ _ => rfl, .inl rfl, .inl rfl, fun _ mem => .inl mem⟩
    ⟨?_, held.lines, held.records, held.distinct⟩ ?_
  · simpa [changeTable] using held.table
  · have table := List.getElem?_eq_getElem held.table
    simp [session, changeTable, List.getD_eq_getElem?_getD, places, table]

theorem newTable_changes (held : m.Holds h) :
    m.Changes h (m.session h).clearVariables (m.newTable h).1 (m.newTable h).2 := by
  refine Writes.changes ⟨fun a lt _ => List.getElem?_append_left lt, fun _ _ _ => rfl,
    fun _ _ _ => rfl, .inr (Nat.le_refl _), .inl rfl, fun _ mem => .inl mem⟩
    ⟨?_, held.lines, held.records, held.distinct⟩ ?_
  · simp [newTable]
  · simp [session, newTable, Session.clearVariables, places]

theorem newLines_changes (held : m.Holds h) :
    m.Changes h (m.session h).clearLines (m.newLines h).1 (m.newLines h).2 := by
  have places : (m.newLines h).1.places (m.newLines h).2 = [] := by simp [places, newLines]
  refine Writes.changes ⟨fun _ _ _ => rfl, fun a lt _ => List.getElem?_append_left lt,
    fun _ _ _ => rfl, .inl rfl, .inr (Nat.le_refl _), ?_⟩ ⟨held.table, ?_, ?_, ?_⟩ ?_
  · rw [places]
    exact List.forall_mem_nil _
  · simp [newLines]
  · rw [places]
    exact List.forall_mem_nil _
  · rw [places]
    exact List.nodup_nil
  · rw [session, places]
    rfl

/-- Records put behind others are read back from the addresses behind these. -/
theorem read_range' (old new : List LineRecord) :
    (List.range' old.length new.length).filterMap ((old ++ new)[·]?) = new := by
  induction new generalizing old with
  | nil => rfl
  | cons r rest ih =>
    have behind := ih (old ++ [r])
    rw [List.length_append, List.length_singleton, List.append_assoc] at behind
    rw [List.length_cons, List.range'_succ, List.filterMap_cons]
    simpa using behind

theorem copy_adds (m : Heap) (h : Handle) : m.Adds (m.session h) (m.copy h).1 (m.copy h).2 := by
  have places : (m.copy h).1.places (m.copy h).2 =
      List.range' m.records.length (m.session h).history.length := by simp [places, copy]
  refine ⟨⟨?_, ?_, ?_, ?_⟩, ?_, fun k there => ?_⟩
  · simp [copy]
  · simp [copy]
  · rw [places]
    intro a mem
    simpa [copy] using (List.mem_range'_1.mp mem).2
  · rw [places]
    exact List.nodup_range'
  · rw [session, places]
    simp only [copy]
    rw [read_range']
    simp [session]
  · have kept : m.Kept (m.copy h).1 k := .of_same there (List.getElem?_append_left there.table)
      (List.getElem?_append_left there.lines)
      fun a mem => List.getElem?_append_left (there.records a mem)
    refine ⟨kept, there.table.ne', there.lines.ne', ?_⟩
    rw [places, kept.places]
    intro a mem other
    exact Nat.not_lt.mpr (List.mem_range'_1.mp mem).1 (there.records a other)

/-! ### Lines -/

/-- A run in memory gives what the run on the session gives, or meets the same fault, and changes
nothing but the session. -/
inductive Agrees (m : Heap) (h : Handle) :
    Except Fault (Value × Heap × Handle) → Except Fault (Value × Session) → Prop
  | ok {v : Value} {t : Session} {m' : Heap} {h' : Handle} :
      m.Changes h t m' h' → Agrees m h (.ok (v, m', h')) (.ok (v, t))
  | fault (f : Fault) : Agrees m h (.error f) (.error f)

theorem note_agrees (changed : m.Changes h s m' h) (r : LineRecord) :
    m.Agrees h (.ok (m'.note h r)) (.ok (r.value, (s.record r).setPrevious r.value)) := by
  have recorded := changed.trans (record_changes changed.holds r)
  rw [changed.session] at recorded
  have previous : (m'.record h r).session (h.setPrevious r.value) =
      (s.record r).setPrevious r.value := by
    rw [← recorded.session, Handle.setPrevious, Session.setPrevious]
    split <;> rfl
  rw [← previous]
  refine .ok (recorded.trans (.of_handle recorded.holds _ ?_ ?_)) <;>
    · rw [Handle.setPrevious]
      split <;> rfl

theorem setVariable_changes (held : m.Holds h) (name : String) (v : Value) :
    m.Changes h (((m.session h).setVariable? name v).getD (m.session h))
      ((m.setVariable? h name v).getD m) h := by
  rw [setVariable?, Session.setVariable?]
  split
  · exact .of_handle held h rfl rfl
  · exact changeTable_changes held _

theorem deleteVariable_changes (held : m.Holds h) (name : String) :
    m.Changes h (((m.session h).deleteVariable? name).getD (m.session h))
      ((m.deleteVariable? h name).getD m) h := by
  rw [deleteVariable?, Session.deleteVariable?]
  split
  · exact changeTable_changes held _
  · exact .of_handle held h rfl rfl

theorem evalStatement_agrees (held : m.Holds h) (rates : RateTable) (raw : String)
    (st : Statement) :
    m.Agrees h (m.evalStatement h rates raw st)
      ((m.session h).evalStatement rates raw st) := by
  have same : m.Changes h (m.session h) m h := .of_handle held h rfl rfl
  cases st with
  | empty | comment => exact note_agrees same _
  | assign name e =>
    rw [evalStatement, Session.evalStatement, Session.runStatement]
    split
    · exact note_agrees same _
    · cases e.eval ((m.session h).scope rates) with
      | error f => exact .fault f
      | ok v =>
        change m.Agrees h (if v.isValid then Except.ok _ else Except.ok _)
          (Except.map _ (if v.isValid then Except.ok (_, _) else Except.ok (_, _)))
        split
        · exact note_agrees (setVariable_changes held name v) _
        · exact note_agrees same _
  | expr e =>
    rw [evalStatement, Session.evalStatement, Session.runStatement]
    cases e.eval ((m.session h).scope rates) with
    | error f => exact .fault f
    | ok v =>
      have consumed : m.Changes h
          (if e.isContinuation && v.isValid then (m.session h).consume else m.session h)
          (if e.isContinuation && v.isValid then m.consume h else m) h := by
        split
        · exact consume_changes held
        · exact same
      exact note_agrees consumed _

theorem eval_agrees (held : m.Holds h) (rates : RateTable) (text : String) :
    m.Agrees h (m.eval h rates text) ((m.session h).eval rates text) := by
  rw [eval, Session.eval]
  cases Line.parse text with
  | error f => exact .fault f
  | ok parsed =>
    obtain ⟨line, problems⟩ := parsed
    cases problems with
    | nil => exact evalStatement_agrees held rates text line.statement
    | cons d rest => exact note_agrees (.of_handle held h rfl rfl) _

/-! ### Operations -/

theorem Adds.then (added : m.Adds s m' h') (changed : m'.Changes h' t m'' h'') :
    m.Adds t m'' h'' where
  holds := changed.holds
  session := changed.session
  others k held := by
    obtain ⟨kept, apart⟩ := added.others k held
    obtain ⟨kept', apart⟩ := changed.others k kept.holds apart
    exact ⟨kept.trans kept', apart⟩

/-- A session that comes in changes none. -/
theorem Adds.changes (added : m.Adds s m' h') (held : m.Holds h) :
    m.Changes h (m.session h) m' h where
  holds := (added.others h held).1.holds
  session := (added.others h held).1.session
  others k there apart :=
    have kept := (added.others k there).1
    ⟨kept, (added.others h held).1.apart kept apart⟩

/-- An operation changes the session in place, or adds a copy and leaves the session as it is. -/
inductive Serves (m : Heap) (h : Handle) : Session → List Session → Done → Prop
  | changes {t : Session} {done : Done} :
      m.Changes h t done.heap done.handle → done.added = [] → Serves m h t [] done
  | adds {copy : Handle} {done : Done} :
      m.Adds (m.session h) done.heap copy → done.handle = h → done.added = [copy] →
      Serves m h (m.session h) [m.session h] done

theorem perform_serves (held : m.Holds h) (rates : RateTable) (op : Session.Operation) :
    (m.perform h rates op).answer = ((m.session h).perform rates op).1 ∧
    m.Serves h ((m.session h).perform rates op).2 (op.copies (m.session h))
      (m.perform h rates op) := by
  have same : m.Changes h (m.session h) m h := .of_handle held h rfl rfl
  have copied := copy_adds m h
  cases op with
  | eval text =>
    have agrees := eval_agrees held rates text
    rw [perform, Session.perform]
    generalize m.eval h rates text = inPlace, (m.session h).eval rates text = pure at agrees ⊢
    cases agrees with
    | ok changes => exact ⟨rfl, .changes changes rfl⟩
    | fault f => exact ⟨rfl, .changes same rfl⟩
  | preview text =>
    have agrees := eval_agrees copied.holds rates text
    rw [copied.session] at agrees
    rw [perform, Session.perform, Session.preview]
    generalize (m.copy h).1.eval (m.copy h).2 rates text = inPlace,
      (m.session h).eval rates text = pure at agrees ⊢
    cases agrees with
    | ok changes => exact ⟨rfl, .changes ((copied.then changes).changes held) rfl⟩
    | fault f => exact ⟨rfl, .changes (copied.changes held) rfl⟩
  | setVariable name v =>
    refine ⟨?_, .changes (setVariable_changes held name v) rfl⟩
    rw [perform, Session.perform, setVariable?, Session.setVariable?]
    split <;> rfl
  | deleteVariable name =>
    refine ⟨?_, .changes (deleteVariable_changes held name) rfl⟩
    rw [perform, Session.perform, deleteVariable?, Session.deleteVariable?]
    split <;> rfl
  | setPrecision given =>
    rw [perform, Session.perform, Session.setPrecision]
    cases Precision.ofJson given with
    | error f => exact ⟨rfl, .changes same rfl⟩
    | ok precision => exact ⟨rfl, .changes (.of_handle held { h with precision } rfl rfl) rfl⟩
  | setStrict strict => exact ⟨rfl, .changes (.of_handle held { h with strict } rfl rfl) rfl⟩
  | clear =>
    have unbound := newTable_changes held
    have lines := newLines_changes unbound.holds
    rw [unbound.session] at lines
    exact ⟨rfl, .changes (unbound.trans lines) rfl⟩
  | clearVariables => exact ⟨rfl, .changes (newTable_changes held) rfl⟩
  | clearLines => exact ⟨rfl, .changes (newLines_changes held) rfl⟩
  | clone => exact ⟨congrArg _ copied.session, .adds copied rfl rfl⟩

/-! ### Many sessions -/

/-- Sessions are there and apart from each other. -/
structure Sound (m : Heap) (handles : List Handle) : Prop where
  holds : ∀ (i : Nat) h, handles[i]? = some h → m.Holds h
  apart : ∀ (i j : Nat) h k, handles[i]? = some h → handles[j]? = some k → i ≠ j → m.Apart h k

variable {handles : List Handle} {i : Nat}

theorem Sound.change (sound : m.Sound handles) (found : handles[i]? = some h)
    (changes : m.Changes h t m' h') :
    m'.Sound (handles.set i h') ∧
      (handles.set i h').map m'.session = (handles.map m.session).set i t := by
  have there := (List.getElem?_eq_some_iff.mp found).1
  have others : ∀ j k, handles[j]? = some k → i ≠ j → m.Kept m' k ∧ m'.Apart h' k :=
    fun j k other ne =>
      changes.others k (sound.holds j k other) (sound.apart i j h k found other ne)
  have own : (handles.set i h')[i]? = some h' := List.getElem?_set_self there
  have rest : ∀ j, i ≠ j → (handles.set i h')[j]? = handles[j]? := fun j ne =>
    List.getElem?_set_ne ne
  refine ⟨⟨fun j k other => ?_, fun a b k k' first second ne => ?_⟩, ?_⟩
  · by_cases same : i = j
    · subst same
      rw [own] at other
      exact Option.some.inj other ▸ changes.holds
    · rw [rest j same] at other
      exact (others j k other same).1.holds
  · by_cases fst : i = a
    · subst fst
      rw [own] at first
      rw [rest b ne] at second
      exact Option.some.inj first ▸ (others b k' second ne).2
    · rw [rest a fst] at first
      by_cases snd : i = b
      · subst snd
        rw [own] at second
        exact Option.some.inj second ▸ (others a k first fst).2.symm
      · rw [rest b snd] at second
        exact (others a k first fst).1.apart (others b k' second snd).1
          (sound.apart a b k k' first second ne)
  · rw [List.map_set, changes.session]
    refine List.ext_getElem? fun j => ?_
    by_cases same : i = j
    · subst same
      rw [List.getElem?_set_self (by simpa using there),
        List.getElem?_set_self (by simpa using there)]
    · rw [List.getElem?_set_ne same, List.getElem?_set_ne same, List.getElem?_map,
        List.getElem?_map]
      cases other : handles[j]? with
      | none => rfl
      | some k => exact congrArg some (others j k other same).1.session

theorem Sound.add (sound : m.Sound handles) (added : m.Adds t m' h') :
    m'.Sound (handles ++ [h']) ∧
      (handles ++ [h']).map m'.session = handles.map m.session ++ [t] := by
  have others : ∀ j k, handles[j]? = some k → m.Kept m' k ∧ m'.Apart h' k :=
    fun j k other => added.others k (sound.holds j k other)
  have cases : ∀ j k, (handles ++ [h'])[j]? = some k →
      handles[j]? = some k ∨ j = handles.length ∧ k = h' := by
    intro j k other
    rcases Nat.lt_or_ge j handles.length with lt | ge
    · exact .inl (by rwa [List.getElem?_append_left lt] at other)
    · rw [List.getElem?_append_right ge, List.getElem?_singleton] at other
      split at other
      · exact .inr ⟨by omega, (Option.some.inj other).symm⟩
      · cases other
  refine ⟨⟨fun j k other => ?_, fun a b k k' first second ne => ?_⟩, ?_⟩
  · rcases cases j k other with other | ⟨-, rfl⟩
    · exact (others j k other).1.holds
    · exact added.holds
  · rcases cases a k first with old | ⟨last, new⟩ <;>
      rcases cases b k' second with old' | ⟨last', new'⟩
    · exact (others a k old).1.apart (others b k' old').1 (sound.apart a b k k' old old' ne)
    · exact new' ▸ (others a k old).2.symm
    · exact new ▸ (others b k' old').2
    · exact absurd (last.trans last'.symm) ne
  · rw [List.map_append, List.map_singleton, added.session]
    refine congrArg (· ++ [t]) (List.map_congr_left fun k mem => ?_)
    obtain ⟨j, other⟩ := List.mem_iff_getElem?.mp mem
    exact (others j k other).1.session

theorem Sound.serve {copies : List Session} {done : Done} (sound : m.Sound handles)
    (found : handles[i]? = some h) (serves : m.Serves h t copies done) :
    done.heap.Sound (handles.set i done.handle ++ done.added) ∧
      (handles.set i done.handle ++ done.added).map done.heap.session =
        (handles.map m.session).set i t ++ copies := by
  cases serves with
  | changes changes none =>
    rw [none, List.append_nil, List.append_nil]
    exact sound.change found changes
  | adds adds same one =>
    have unchanged : handles.set i h = handles := by
      obtain ⟨there, rfl⟩ := List.getElem?_eq_some_iff.mp found
      exact List.set_getElem_self there
    rw [same, one, ← List.map_set, unchanged]
    exact sound.add adds

end Heap

/-! ## The sessions of a workspace in memory -/

namespace Memory

/-- The memory keeps the sessions of the workspace, apart from each other, and its rates. -/
structure Keeps (m : Memory) (w : Workspace) : Prop where
  sound : m.heap.Sound m.handles
  sessions : m.sessions = w.sessions
  rates : m.rates = w.rates

theorem keeps_ofRates (rates : RateCache) : (ofRates rates).Keeps (.ofRates rates) where
  sound := by
    have one : ∀ (i : Nat) (h : Handle), (ofRates rates).handles[i]? = some h →
        i = 0 ∧ h = { table := 0, lines := 0 } := by
      intro i h found
      cases i with
      | zero => exact ⟨rfl, (Option.some.inj found).symm⟩
      | succ i => cases found
    refine ⟨fun i h found => ?_, fun i j h k found found' ne => ?_⟩
    · rw [(one i h found).2]
      exact ⟨Nat.zero_lt_one, Nat.zero_lt_one, List.forall_mem_nil _, List.nodup_nil⟩
    · exact absurd ((one i h found).1.trans (one j k found').1.symm) ne
  sessions := rfl
  rates := rfl

theorem Keeps.take {m : Memory} {w : Workspace} (keeps : m.Keeps w) (a : Workspace.Action) :
    (m.take a).1 = (w.take a).1 ∧ (m.take a).2.Keeps (w.take a).2 := by
  have sessions := keeps.sessions
  have rates := keeps.rates
  cases a with
  | rates a =>
    exact ⟨by rw [Memory.take, Workspace.take, rates], keeps.sound, sessions,
      by rw [Memory.take, Workspace.take, rates]⟩
  | ask i op =>
    have found : w.sessions[i]? = m.handles[i]?.map m.heap.session := by
      rw [← sessions, Memory.sessions, List.getElem?_map]
    rw [Memory.take]
    cases there : m.handles[i]? with
    | none =>
      rw [there] at found
      rw [Workspace.take_of_absent found]
      exact ⟨rfl, keeps⟩
    | some h =>
      rw [there] at found
      obtain ⟨answer, sessions', rates'⟩ := Workspace.sessions_take found op
      obtain ⟨answer', serves⟩ :=
        Heap.perform_serves (keeps.sound.holds i h there) m.rates.table op
      rw [← sessions] at sessions'
      rw [← rates] at answer sessions' rates'
      obtain ⟨sound, kept⟩ := keeps.sound.serve there serves
      exact ⟨by rw [answer, ← answer'], sound, kept.trans sessions'.symm, rates'.symm⟩

/-- Sessions kept in memory answer as the sessions of a workspace, and stay the same sessions. -/
theorem Keeps.refines {m : Memory} {w : Workspace} (keeps : m.Keeps w)
    (actions : List Workspace.Action) :
    m.told actions = w.told actions ∧ (m.run actions).Keeps (w.run actions) :=
  simulation (fun _ _ a keeps => keeps.take a) keeps actions

theorem refines (rates : RateCache) (actions : List Workspace.Action) :
    (ofRates rates).told actions = (Workspace.ofRates rates).told actions ∧
      ((ofRates rates).run actions).Keeps ((Workspace.ofRates rates).run actions) :=
  (keeps_ofRates rates).refines actions

end Memory

/-! ## Sessions that share rates -/

/-- In any run of any number of sessions that are copies of one another and share rates, a session
answers as in the run of its own operations and the changes of the rates alone, without what is
asked of the other sessions and without previews, and it is the same session afterwards. So do
sessions that are kept in one memory and changed in place. -/
theorem sessions_do_not_interfere (rates : RateCache) (before after : List Workspace.Action)
    {i : Nat} (there : i < ((Workspace.ofRates rates).run before).sessions.length) :
    let w := (Workspace.ofRates rates).run before
    let m := (Memory.ofRates rates).run before
    let own := after.filter (·.concerns i)
    (w.told after).filter (·.1.concerns i) = w.told own ∧
    (∃ s, (w.run after).sessions[i]? = some s ∧ (w.run own).sessions[i]? = some s) ∧
    (w.run after).rates = (w.run own).rates ∧
    ∀ actions, m.told actions = w.told actions ∧
      (m.run actions).sessions = (w.run actions).sessions ∧
      (m.run actions).rates = (w.run actions).rates := by
  intro w m own
  obtain ⟨answers, same⟩ := Workspace.unwinding_session there after
  have kept : m.Keeps w := (Memory.refines rates before).2
  refine ⟨answers, ⟨_, List.getElem?_eq_getElem same.there, ?_⟩, same.rates.symm, fun actions => ?_⟩
  · exact same.session.trans (List.getElem?_eq_getElem same.there)
  · obtain ⟨answers, kept⟩ := kept.refines actions
    exact ⟨answers, kept.sessions, kept.rates⟩

theorem run_exCopied : (Workspace.ofRates (.empty 60)).run [.ask 0 (.eval "2"), .ask 0 .clone] =
    { sessions := [exNumber, exNumber], rates := .empty 60 } := by
  have line : ({} : Session).perform [] (.eval "2") = (.value (.ok (.number 2)), exNumber) := by
    rw [Session.perform, eval_exNumber]
  calc (Workspace.ofRates (.empty 60)).run [.ask 0 (.eval "2"), .ask 0 .clone]
    _ = (({ sessions := [(({} : Session).perform [] (.eval "2")).2], rates := .empty 60 } :
          Workspace).take (.ask 0 .clone)).2 := rfl
    _ = { sessions := [exNumber, exNumber], rates := .empty 60 } := by
      rw [line]
      rfl

/-- A copy is made of a session with one line. What then goes on from that line in the original, and
in a preview of the copy, does not show in the copy. -/
theorem sessions_do_not_interfere_exCopy :
    let w := (Workspace.ofRates (.empty 60)).run [.ask 0 (.eval "2"), .ask 0 .clone]
    let own : List Workspace.Action := [.rates (.set "USD" "EUR" 0.5), .ask 1 (.setStrict true)]
    let after := .ask 0 (.eval "+ 3") :: .ask 1 (.preview "+ 4") :: own ++ [.ask 0 .clear]
    1 < w.sessions.length ∧
    (w.told after).filter (·.1.concerns 1) = w.told own ∧
    (w.run after).sessions[1]? = some { exNumber with strict := true } := by
  intro w own after
  have there : 1 < w.sessions.length := by
    simp only [w, run_exCopied]
    exact Nat.one_lt_two
  obtain ⟨answers, ⟨s, session, alone⟩, -⟩ :=
    sessions_do_not_interfere (.empty 60) [.ask 0 (.eval "2"), .ask 0 .clone] after there
  refine ⟨there, answers, session.trans (alone.symm.trans ?_)⟩
  rw [run_exCopied]
  rfl

end LineCalc
