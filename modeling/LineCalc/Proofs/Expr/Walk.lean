import LineCalc.Proofs.Expr.Extent

/-!
# The parser with a cursor

The parser again, as a walk over a row of tokens that the mark of the end is the last of. A cursor
stands on one of the tokens. It is moved on by one token at a time, but not from the mark of the
end. Problems are noted as they are met. The walk stops where the cursor is read or moved where
there is no token, where a numeral has no amount, and where it has made more calls within calls than
it was given fuel for.

Results:
1. `Stands.current`, `Stands.peek`: what the cursor reads are the tokens that the parser is given.
2. `Runs.bind`, `Runs.advance`, `Runs.amount`: steps one after another.
-/

namespace LineCalc.Parser

variable {α β : Type}

/-! ## Walks -/

/-- Where the cursor stands, and the problems noted so far. -/
structure Walker where
  pos : Nat
  problems : List Diagnostic

/-- Why a walk stops. -/
inductive Stop
  /-- The cursor is read or moved where there is no token. -/
  | offTheTokens
  | outOfFuel
  | fault (f : Fault)

/-- A walk over tokens. -/
abbrev Walk (α : Type) := StateT Walker (Except Stop) α

namespace Walk

variable (tokens : List Token) (src : Source)

/-- The token at a position. -/
def tokenAt (i : Nat) : Walk Token := fun s =>
  match tokens[i]? with
  | some t => .ok (t, s)
  | none => .error .offTheTokens

/-- The token that the cursor stands on. -/
def current : Walk Token := fun s => tokenAt tokens s.pos s

/-- The token after that, the last one at the end. -/
def peek : Walk Token := fun s => tokenAt tokens (min (s.pos + 1) (tokens.length - 1)) s

/-- The cursor is moved on to the next token. -/
def moveOn : Walk Unit := fun s =>
  if s.pos + 1 < tokens.length then .ok ((), { s with pos := s.pos + 1 })
  else .error .offTheTokens

/-- The token that the cursor stands on. The cursor is moved on, but not from the mark of the
end. -/
def advance : Walk Token := do
  let t ← current tokens
  if t.kind == .finish then return t
  else
    moveOn tokens
    return t

/-- A problem at a token. -/
def note (cause : SyntaxProblem) (t : Token) : Walk Unit :=
  modify fun s => { s with problems := s.problems ++ [.ofSyntax cause t.pos] }

/-- The cursor is moved on from a token of a kind; otherwise there is a problem. -/
def expect (kind : TokenKind) (cause : SyntaxProblem) : Walk Unit := do
  let t ← current tokens
  if t.kind == kind then
    let _ ← advance tokens
    return ()
  else note cause t

/-- The amount that a numeral names. -/
def amount (numeral : String) : Walk Float := fun s =>
  match amountOf numeral with
  | .ok x => .ok (x, s)
  | .error f => .error (.fault f)

/-- The number `t`, worth `x`, with the denomination that the token after it gives, if it does. -/
def denominated (t next : Token) (x : Float) (d? : Option Denomination) : Walk Expr :=
  match d? with
  | some d => do
    let _ ← advance tokens
    return .literal x d (rawBetween src t next)
  | none => return .literal x .plain t.text

/-- A number and the denomination after it. -/
def number : Walk Expr := do
  let t ← advance tokens
  let x ← amount t.text
  let next ← current tokens
  let second ← peek tokens
  if next.kind == .word && second.kind != .leftParen then
    denominated tokens src t next x (Denomination.ofName? next.text)
  else if next.kind.isSymbol then
    denominated tokens src t next x (Denomination.ofSymbol? next.text)
  else return .literal x .plain t.text

/-- The amount of a symbol, which is a number that the cursor stands on. -/
def amountOfSymbol (symbol : Token) (negative : Bool) : Walk Expr := do
  let t ← current tokens
  if t.kind == .number then
    let _ ← advance tokens
    let x ← amount t.text
    match Denomination.ofSymbol? symbol.text with
    | some d => return .literal (if negative then -x else x) d (rawBetween src symbol t)
    | none =>
      note (.unknownSymbol symbol.text) symbol
      return .literal (if negative then -x else x) .plain t.text
  else
    note (.missingAmount symbol.text) symbol
    return placeholder

/-- A symbol, perhaps a minus sign, and a number. -/
def symbol : Walk Expr := do
  let symbol ← advance tokens
  let first ← current tokens
  let second ← peek tokens
  if first.kind == .minus && second.kind == .number then
    let _ ← advance tokens
    amountOfSymbol tokens src symbol true
  else amountOfSymbol tokens src symbol false

/-- The target of a conversion. -/
def target : Walk String := do
  let t ← current tokens
  if t.kind == .word || t.kind.isSymbol then
    let _ ← advance tokens
    return t.text
  else
    note .missingTarget t
    return ""

/-- A walk for which no fuel is left. -/
def exhausted : Walk α := fun _ => .error .outOfFuel

mutual

/-- An expression, perhaps with a conversion. -/
def expression : Nat → Walk Expr
  | 0 => exhausted
  | fuel + 1 => do
    let left ← operators fuel 1
    let t ← current tokens
    if t.kind == .inWord then
      let _ ← advance tokens
      let target ← target tokens
      return .conversion left target
    else return left

/-- An operand and the operators after it that bind at least as close as `least`. -/
def operators : Nat → Nat → Walk Expr
  | 0, _ => exhausted
  | fuel + 1, least => do
    let left ← operand fuel
    climbing fuel least left

/-- The operators after `left` that bind at least as close as `least`. -/
def climbing : Nat → Nat → Expr → Walk Expr
  | 0, _, _ => exhausted
  | fuel + 1, least, left => do
    let t ← current tokens
    match binaryOp? t.kind with
    | none => return left
    | some op =>
      if op.precedence < least then return left
      else
        let _ ← advance tokens
        let right ← operators fuel op.rightPrecedence
        climbing fuel least (.binary left op right)

/-- An operand with the signs in front of it. -/
def operand : Nat → Walk Expr
  | 0 => exhausted
  | fuel + 1 => do
    let t ← current tokens
    match signOp? t.kind with
    | some sign =>
      let _ ← advance tokens
      let e ← operand fuel
      return .signed sign e
    | none => withBase fuel

/-- An operand without signs. A percentage may have a base. -/
def withBase : Nat → Walk Expr
  | 0 => exhausted
  | fuel + 1 => do
    let e ← primary fuel
    match e with
    | .literal x .percent raw =>
      let t ← current tokens
      if t.kind == .ofWord then
        let _ ← advance tokens
        let base ← operand fuel
        return .percentOf x raw base
      else return e
    | _ => return e

/-- An operand without signs and without a base. -/
def primary : Nat → Walk Expr
  | 0 => exhausted
  | fuel + 1 => do
    let t ← current tokens
    if t.kind == .number then number tokens src
    else if t.kind == .percent then
      let _ ← advance tokens
      let x ← amount t.text
      return .literal (x / 100) .percent t.text
    else if t.kind.isSymbol then symbol tokens src
    else if t.kind == .word then
      let second ← peek tokens
      if second.kind == .leftParen then call fuel
      else
        let _ ← advance tokens
        return nameExpr t.text
    else if t.kind == .leftParen then
      let _ ← advance tokens
      let next ← current tokens
      if next.kind == .rightParen then
        let _ ← advance tokens
        return emptyGroup
      else
        let e ← expression fuel
        let _ ← expect tokens .rightParen .unclosedGroup
        return .group e
    else if t.kind == .finish then
      note .unexpectedEnd t
      return placeholder
    else
      note (.unexpectedToken t.text) t
      let _ ← advance tokens
      return placeholder

/-- A call of a function. -/
def call : Nat → Walk Expr
  | 0 => exhausted
  | fuel + 1 => do
    let function ← advance tokens
    let _ ← advance tokens
    let t ← current tokens
    if t.kind == .rightParen then
      let _ ← advance tokens
      return .call function.text []
    else
      let args ← arguments fuel
      let _ ← expect tokens .rightParen (.unclosedCall function.text)
      return .call function.text args

/-- Arguments with commas between them. -/
def arguments : Nat → Walk (List Expr)
  | 0 => exhausted
  | fuel + 1 => do
    let first ← expression fuel
    let t ← current tokens
    if t.kind == .comma then
      let _ ← advance tokens
      let others ← arguments fuel
      return first :: others
    else return [first]

end

/-- What a line with at least one token says. -/
def statement (fuel : Nat) : Walk Statement := do
  let t ← current tokens
  let second ← peek tokens
  if t.kind == .word && second.kind == .equals then
    let _ ← advance tokens
    let _ ← advance tokens
    let e ← expression tokens src fuel
    return .assign t.text e
  else
    match binaryOp? t.kind with
    | some op =>
      let _ ← advance tokens
      let e ← expression tokens src fuel
      return .expr (.resume op e)
    | none =>
      if t.kind == .inWord then
        let _ ← advance tokens
        let target ← target tokens
        return .expr (.resumeConversion target)
      else
        let e ← expression tokens src fuel
        return .expr e

end Walk

/-! ## The tokens in front of the mark -/

variable {tokens ts rest : List Token} {src : Source} {pos : Nat} {t u : Token} {s : Walker}

/-- At a position of the tokens stand some that are no mark of the end, and then the mark. -/
def Stands (tokens : List Token) (src : Source) (pos : Nat) (ts : List Token) : Prop :=
  ∃ front last, tokens = front ++ (ts ++ [last]) ∧ front.length = pos ∧ last.kind = .finish ∧
    last.pos = src.endPos ∧ ∀ t ∈ ts, t.kind ≠ .finish

/-- The kind of the first token, that of the mark of the end if there is none. -/
def kindOf : List Token → TokenKind
  | t :: _ => t.kind
  | [] => .finish

theorem kindOf_beq {kind : TokenKind} (inner : kind ≠ .finish) :
    (kindOf ts == kind) = startsWith kind ts := by
  cases ts with
  | nil => exact beq_eq_false_iff_ne.mpr inner.symm
  | cons t ts => rfl

/-- What is known of a token that a cursor looks at with some tokens in front of the mark. -/
structure IsFirst (tokens : List Token) (src : Source) (ts : List Token) (t : Token) : Prop where
  mem : t ∈ tokens
  kind : t.kind = kindOf ts
  pos : t.pos = posOf src ts
  first : ∀ u ∈ ts.head?, t = u

theorem IsFirst.eq (h : IsFirst tokens src (u :: ts) t) : t = u := h.first u rfl

theorem Stands.tail (h : Stands tokens src pos (t :: ts)) : Stands tokens src (pos + 1) ts := by
  obtain ⟨front, last, eq, count, finish, endPos, inner⟩ := h
  refine ⟨front ++ [t], last, by simp [eq], by simp [count], finish, endPos, ?_⟩
  exact fun u mem => inner u (List.mem_cons_of_mem t mem)

theorem Stands.drop (h : Stands tokens src pos ts) {n : Nat} (le : n ≤ ts.length) :
    Stands tokens src (pos + n) (ts.drop n) := by
  induction n generalizing pos ts with
  | zero => exact h
  | succ n ih =>
    cases ts with
    | nil => exact absurd le (Nat.not_succ_le_zero n)
    | cons t ts =>
      have later := ih h.tail (Nat.le_of_succ_le_succ le)
      rwa [Nat.add_assoc, Nat.add_comm 1] at later

theorem Stands.inner (h : Stands tokens src pos (t :: ts)) : t.kind ≠ .finish := by
  obtain ⟨front, last, -, -, -, -, inner⟩ := h
  exact inner t List.mem_cons_self

theorem Stands.length (h : Stands tokens src pos ts) : tokens.length = pos + ts.length + 1 := by
  obtain ⟨front, last, rfl, rfl, -⟩ := h
  simp [Nat.add_assoc]

theorem Stands.isPart (h : Stands tokens src pos ts) (worth : AreWorth tokens) :
    IsPart tokens src ts := by
  obtain ⟨front, last, rfl, -, -, endPos, -⟩ := h
  have mem : ∀ t ∈ ts, t ∈ front ++ (ts ++ [last]) := fun t mem => by simp [mem]
  exact ⟨mem, fun t among => worth t (mem t among), last, by simp, endPos⟩

/-- The cursor stands on a token, which is the first one in front of the mark, or the mark. -/
theorem Stands.get (h : Stands tokens src pos ts) :
    ∃ t, tokens[pos]? = some t ∧ IsFirst tokens src ts t := by
  obtain ⟨front, last, eq, rfl, finish, endPos, inner⟩ := h
  cases ts with
  | nil =>
    refine ⟨last, by simp [eq], by simp [eq], finish, endPos, nofun⟩
  | cons t ts =>
    refine ⟨t, by simp [eq], by simp [eq], rfl, rfl, ?_⟩
    rintro u ⟨⟩
    rfl

theorem Stands.current (h : Stands tokens src s.pos ts) :
    ∃ t, Walk.current tokens s = .ok (t, s) ∧ IsFirst tokens src ts t := by
  obtain ⟨t, found, first⟩ := h.get
  refine ⟨t, ?_, first⟩
  rw [Walk.current, Walk.tokenAt, found]

/-- The token after that on which the cursor stands. -/
theorem Stands.peek (h : Stands tokens src s.pos ts) :
    ∃ t, Walk.peek tokens s = .ok (t, s) ∧ IsFirst tokens src (ts.drop 1) t := by
  cases ts with
  | nil =>
    have last : min (s.pos + 1) (tokens.length - 1) = s.pos := by
      rw [h.length]
      simp
    obtain ⟨t, found, first⟩ := h.get
    refine ⟨t, ?_, first⟩
    rw [Walk.peek, last, Walk.tokenAt, found]
  | cons u ts =>
    have next : min (s.pos + 1) (tokens.length - 1) = s.pos + 1 := by
      rw [h.length, List.length_cons]
      omega
    obtain ⟨t, found, first⟩ := h.tail.get
    refine ⟨t, ?_, first⟩
    rw [Walk.peek, next, Walk.tokenAt, found]

/-! ## Steps one after another -/

/-- The walker after a part. -/
def Walker.after (s : Walker) (p : Parsed α) : Walker := ⟨s.pos + p.used, s.problems ++ p.problems⟩

/-- The walk reads a part and leaves the cursor behind it, or else has `short` of fuel. -/
def Runs (short : Prop) (walk : Walk α) (s : Walker) (p : Parsed α) : Prop :=
  walk s = .ok (p.value, s.after p) ∨ short ∧ walk s = .error .outOfFuel

variable {short short' : Prop} {walk : Walk α} {p : Parsed α} {q : Parsed β}

theorem Walk.bind_of_ok {next : α → Walk β} {a : α} {s' : Walker} (first : walk s = .ok (a, s')) :
    (walk >>= next) s = next a s' := by
  show (walk s >>= fun r => next r.1 r.2) = _
  rw [first]
  rfl

theorem Walk.bind_of_error {next : α → Walk β} {e : Stop} (first : walk s = .error e) :
    (walk >>= next) s = .error e := by
  show (walk s >>= fun r => next r.1 r.2) = _
  rw [first]
  rfl

theorem Runs.mono (h : Runs short walk s p) (weaker : short → short') : Runs short' walk s p :=
  h.imp_right (.imp_left weaker)

theorem Runs.exhausted (h : short) : Runs short Walk.exhausted s p := .inr ⟨h, rfl⟩

theorem Runs.pure (a : α) : Runs short (Pure.pure a : Walk α) s ⟨a, 0, []⟩ := by
  refine .inl ?_
  show Except.ok (a, s) = .ok (a, s.after _)
  simp [Walker.after]

theorem Runs.bind {next : α → Walk β} (first : Runs short walk s p)
    (second : Runs short (next p.value) (s.after p) q) :
    Runs short (walk >>= next) s (q.behind p.used p.problems id) := by
  rcases first with first | ⟨h, first⟩
  · rcases second with second | ⟨h, second⟩
    · refine .inl ?_
      rw [Walk.bind_of_ok first, second]
      simp [Walker.after, Parsed.behind, Nat.add_assoc]
    · exact .inr ⟨h, (Walk.bind_of_ok first).trans second⟩
  · exact .inr ⟨h, Walk.bind_of_error first⟩

theorem Runs.map (h : Runs short walk s p) (f : α → β) :
    Runs short (walk >>= fun a => Pure.pure (f a)) s ⟨f p.value, p.used, p.problems⟩ := by
  have both : Runs short (walk >>= fun a => Pure.pure (f a)) s _ := h.bind (.pure (f p.value))
  simpa [Parsed.behind] using both

/-- A step that only looks has the walk after it as the whole. -/
theorem Runs.look {look : Walk β} {b : β} {next : β → Walk α} (looks : look s = .ok (b, s))
    (h : Runs short (next b) s p) : Runs short (look >>= next) s p := by
  rwa [Runs, Walk.bind_of_ok looks]

theorem Runs.current {next : Token → Walk α} (h : Stands tokens src s.pos ts)
    (k : ∀ t, IsFirst tokens src ts t → Runs short (next t) s p) :
    Runs short (Walk.current tokens >>= next) s p := by
  obtain ⟨t, looks, first⟩ := h.current
  exact .look looks (k t first)

theorem Runs.peek {next : Token → Walk α} (h : Stands tokens src s.pos ts)
    (k : ∀ t, IsFirst tokens src (ts.drop 1) t → Runs short (next t) s p) :
    Runs short (Walk.peek tokens >>= next) s p := by
  obtain ⟨t, looks, first⟩ := h.peek
  exact .look looks (k t first)

theorem Runs.amount {numeral : String} {x : Float} {next : Float → Walk α}
    (worth : amountOf numeral = .ok x) (h : Runs short (next x) s p) :
    Runs short (Walk.amount numeral >>= next) s p := by
  refine .look ?_ h
  rw [Walk.amount, worth]

theorem Runs.note (cause : SyntaxProblem) (t : Token) :
    Runs short (Walk.note cause t) s ⟨(), 0, [.ofSyntax cause t.pos]⟩ :=
  .inl rfl

/-- A problem, and something in the place of what is missing. -/
theorem Runs.noting (cause : SyntaxProblem) (t : Token) (a : α) :
    Runs short (Walk.note cause t >>= fun _ => Pure.pure a) s ⟨a, 0, [.ofSyntax cause t.pos]⟩ :=
  (Runs.note cause t).map fun _ => a

/-- A problem where the cursor stands. -/
theorem IsFirst.note (first : IsFirst tokens src ts t) (cause : SyntaxProblem) :
    Runs short (Walk.note cause t) s ⟨(), 0, [.ofSyntax cause (posOf src ts)]⟩ :=
  first.pos ▸ .note cause t

/-- The cursor is moved on from a token in front of the mark. -/
theorem Stands.advance (h : Stands tokens src s.pos (t :: ts)) :
    Walk.advance tokens s = .ok (t, { s with pos := s.pos + 1 }) := by
  obtain ⟨u, looks, first⟩ := h.current
  obtain rfl := first.eq
  have inner : (u.kind == .finish) = false := beq_eq_false_iff_ne.mpr h.inner
  have room : s.pos + 1 < tokens.length := by
    rw [h.length, List.length_cons]
    omega
  have moves : Walk.moveOn tokens s = .ok ((), { s with pos := s.pos + 1 }) := by
    rw [Walk.moveOn, if_pos room]
  rw [Walk.advance, Walk.bind_of_ok looks, inner, if_neg Bool.false_ne_true, Walk.bind_of_ok moves]
  rfl

theorem Runs.advance {next : Token → Walk α} (h : Stands tokens src s.pos (t :: ts))
    (k : ∀ s', Stands tokens src s'.pos ts → Runs short (next t) s' p) :
    Runs short (Walk.advance tokens >>= next) s (p.behind 1 [] id) := by
  have first : Runs short (Walk.advance tokens) s ⟨t, 1, []⟩ := by
    refine .inl ?_
    rw [h.advance, Walker.after, List.append_nil]
  exact first.bind (k _ h.tail)

end LineCalc.Parser
