import LineCalc.Expr.Parser

/-!
# The parser as parts one after another

The functions of the parser again, each as a sequence of its parts: a part is read from what the one
before has left, and a fault in a part is that of the whole.
-/

namespace LineCalc.Parser

variable {src : Source} {t : Token} {ts : List Token}

/-! ## Amounts -/

theorem parseNumber_eq : parseNumber src t ts = (amountOf t.text).bind fun x =>
    match ts with
    | next :: rest =>
      match suffixOf next rest with
      | some d => .ok ⟨.literal x d (rawBetween src t next), 1, []⟩
      | none => .ok ⟨.literal x .plain t.text, 0, []⟩
    | [] => .ok ⟨.literal x .plain t.text, 0, []⟩ := by
  unfold parseNumber
  cases amountOf t.text <;> rfl

/-- The number `t`, worth `x`, as the amount of a symbol, apart from the tokens used. -/
def amountBeside (src : Source) (symbol : Token) (negative : Bool) (t : Token) (x : Float) :
    Parsed Expr :=
  match Denomination.ofSymbol? symbol.text with
  | some d => ⟨.literal (if negative then -x else x) d (rawBetween src symbol t), 0, []⟩
  | none =>
    ⟨.literal (if negative then -x else x) .plain t.text, 0,
      [.ofSyntax (.unknownSymbol symbol.text) symbol.pos]⟩

theorem symbolAmount_eq {symbol : Token} {negative : Bool} {used : Nat} :
    symbolAmount src symbol negative t used =
      ((amountOf t.text).bind fun x => .ok (amountBeside src symbol negative t x)).map
        (·.behind used [] id) := by
  unfold symbolAmount amountBeside
  cases amountOf t.text with
  | error fault => rfl
  | ok x => cases Denomination.ofSymbol? symbol.text <;> rfl

theorem parsePercent_eq : parsePercent t = (amountOf t.text).bind fun x =>
    .ok ⟨.literal (x / 100) .percent t.text, 0, []⟩ := by
  rw [parsePercent, fractionOf]
  cases amountOf t.text <;> rfl

theorem percentOf_eq {base : Outcome Expr} : percentOf t base = (amountOf t.text).bind fun x =>
    base.map (·.behind 1 [] (.percentOf (x / 100) t.text)) := by
  unfold percentOf fractionOf
  cases amountOf t.text <;> cases base <;> rfl

/-! ## Expressions -/

/-- The conversion after an expression, if there is one. -/
def withTarget (src : Source) (ts : List Token) (e : Parsed Expr) : Parsed Expr :=
  if startsWith .inWord (ts.drop e.used) then
    (parseTarget src ((ts.drop e.used).drop 1)).behind (e.used + 1) e.problems (.conversion e.value)
  else e

theorem parseExpression_eq : parseExpression src ts =
    (parseOperators src 1 ts).map (withTarget src ts) := by
  rw [parseExpression]
  cases parseOperators src 1 ts with
  | error fault => rfl
  | ok left =>
    simp only [Except.map, withTarget]
    split <;> rfl

theorem parseOperators_eq {least : Nat} : parseOperators src least ts =
    (parseOperand src ts).bind fun left =>
      (climb src least left.value (ts.drop left.used)).map
        (·.behind left.used left.problems id) := by
  rw [parseOperators]
  cases parseOperand src ts with
  | error fault => rfl
  | ok left => simp only [Except.bind]; cases climb src least left.value (ts.drop left.used) <;> rfl

theorem climb_eq {least : Nat} {left : Expr} {op : BinaryOp} (h : binaryOp? t.kind = some op)
    (close : ¬ op.precedence < least) : climb src least left (t :: ts) =
      ((parseOperators src op.rightPrecedence ts).bind fun right =>
        (climb src least (.binary left op right.value) (ts.drop right.used)).map
          (·.behind right.used right.problems id)).map (·.behind 1 [] id) := by
  rw [climb, h]
  simp only [close, if_false]
  cases parseOperators src op.rightPrecedence ts with
  | error fault => rfl
  | ok right =>
    simp only [Except.bind]
    cases climb src least (.binary left op right.value) (ts.drop right.used) with
    | error fault => rfl
    | ok all =>
      simp only [Except.map, Parsed.behind, List.nil_append, id, Except.ok.injEq, Parsed.mk.injEq,
        true_and, and_true]
      omega

/-- The arguments after the first one. -/
def parseMoreArgs (src : Source) (ts : List Token) : Outcome (List Expr) :=
  match ts with
  | t :: more =>
    if t.kind == .comma then (parseArgs src more).map (·.behind 1 [] id) else .ok ⟨[], 0, []⟩
  | [] => .ok ⟨[], 0, []⟩

theorem parseArgs_eq : parseArgs src ts = (parseExpression src ts).bind fun first =>
    (parseMoreArgs src (ts.drop first.used)).map
      (·.behind first.used first.problems (first.value :: ·)) := by
  rw [parseArgs]
  cases parseExpression src ts with
  | error fault => rfl
  | ok first =>
    simp only [Except.bind]
    split
    · next t more eq =>
      rw [eq, parseMoreArgs]
      split
      · cases parseArgs src more with
        | error fault => rfl
        | ok others => simp [Except.map, Parsed.behind, Nat.add_assoc]
      · simp [Except.map, Parsed.behind]
    · next eq =>
      rw [eq]
      simp [parseMoreArgs, Except.map, Parsed.behind]

theorem parseCall_eq {function : String} : parseCall src function ts =
    if startsWith .rightParen ts then .ok ⟨.call function [], 1, []⟩
    else (parseArgs src ts).map fun args =>
      (parseClosing src (.unclosedCall function) (ts.drop args.used)
        (.call function args.value)).behind args.used args.problems id := by
  rw [parseCall]
  split
  · rfl
  · cases parseArgs src ts <;> rfl

theorem parsePrimary_eq : parsePrimary src t ts =
    if t.kind == .leftParen then
      if startsWith .rightParen ts then .ok ⟨emptyGroup, 1, []⟩
      else (parseExpression src ts).map fun e =>
        (parseClosing src .unclosedGroup (ts.drop e.used) (.group e.value)).behind
          e.used e.problems id
    else match ts with
      | u :: rest =>
        if t.kind == .percent && u.kind == .ofWord then percentOf t (parseOperand src rest)
        else if t.kind == .word && u.kind == .leftParen then
          (parseCall src t.text rest).map (·.behind 1 [] id)
        else parseSimple src t ts
      | [] => parseSimple src t ts := by
  unfold parsePrimary
  split
  · split
    · rfl
    · cases parseExpression src ts <;> rfl
  · cases ts with
    | nil => rfl
    | cons u rest =>
      simp only
      split
      · rfl
      · split
        · cases parseCall src t.text rest <;> rfl
        · rfl

theorem parseOperand_eq_signed {sign : SignOp} (h : signOp? t.kind = some sign) :
    parseOperand src (t :: ts) = (parseOperand src ts).map (·.behind 1 [] (.signed sign)) := by
  rw [parseOperand, h]
  cases parseOperand src ts <;> rfl

theorem parseOperand_eq_primary (h : signOp? t.kind = none) :
    parseOperand src (t :: ts) = (parsePrimary src t ts).map (·.behind 1 [] id) := by
  rw [parseOperand, h]
  cases parsePrimary src t ts <;> rfl

end LineCalc.Parser
