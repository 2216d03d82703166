import LineCalc.Proofs.Expr.Origin
import LineCalc.Proofs.Expr.Walk

/-!
# Parts of a line with the cursor

The walk over a row of tokens reads what the parser reads of the tokens in front of the mark of the
end. Each part of the walk is compared with the part of the parser, by induction on the fuel. The
fuel that it takes grows with the tokens left: eight calls within calls are enough for each.

Results:
1. `number_runs`, `symbol_runs`, `target_runs`, `expect_runs`: parts without expressions inside.
2. `expression_runs`, `operand_runs`: parts with expressions inside.
-/

namespace LineCalc.Parser

variable {α : Type} {tokens ts rest : List Token} {src : Source} {t u : Token} {s : Walker}
  {short : Prop} {p : Parsed Expr} {fuel : Nat}

/-! ## Parts without expressions inside -/

theorem denominated_runs {x : Float} {d? : Option Denomination}
    (h : Stands tokens src s.pos (u :: rest))
    (eq : (match d? with
      | some d => .ok ⟨.literal x d (rawBetween src t u), 1, []⟩
      | none => .ok ⟨.literal x .plain t.text, 0, []⟩ : Outcome Expr) = .ok p) :
    Runs short (Walk.denominated tokens src t u x d?) s p := by
  cases d? with
  | none =>
    obtain rfl := Except.ok.inj eq
    exact .pure _
  | some d =>
    obtain rfl := Except.ok.inj eq
    exact Runs.advance (p := ⟨_, 0, []⟩) h fun _ _ => .pure _

/-- The denomination that the token after a number gives it, looked for as the walk does. -/
theorem denominated_eq {x : Float} {second : Token} (after : second.kind = kindOf rest) :
    (if u.kind == .word && second.kind != .leftParen then
      Walk.denominated tokens src t u x (Denomination.ofName? u.text)
    else if u.kind.isSymbol then
      Walk.denominated tokens src t u x (Denomination.ofSymbol? u.text)
    else return .literal x .plain t.text) =
      Walk.denominated tokens src t u x (suffixOf u rest) := by
  have opens : (second.kind == .leftParen) = startsWith .leftParen rest := by
    rw [after]
    exact kindOf_beq (by decide)
  unfold suffixOf
  by_cases word : u.kind = .word
  · cases call : startsWith .leftParen rest with
    | true => simp [word, bne, opens, call, TokenKind.isSymbol, Walk.denominated]
    | false => simp [word, bne, opens, call]
  · have noWord : (u.kind == .word) = false := beq_eq_false_iff_ne.mpr word
    by_cases symbol : u.kind.isSymbol = true
    · simp [noWord, symbol]
    · simp [noWord, symbol, Walk.denominated]

theorem number_runs (h : Stands tokens src s.pos (t :: ts))
    (eq : parseNumber src t ts = .ok p) :
    Runs short (Walk.number tokens src) s (p.behind 1 [] id) := by
  rw [parseNumber_eq] at eq
  obtain ⟨x, worth, eq⟩ := bind_ok_iff.mp eq
  refine .advance h fun s h => .amount worth ?_
  refine .current h fun next first => .peek h fun _ after => ?_
  cases ts with
  | nil =>
    obtain rfl := Except.ok.inj eq
    have kind : next.kind = .finish := first.kind
    rw [kind]
    exact .pure _
  | cons u rest =>
    obtain rfl := first.eq
    rw [denominated_eq after.kind]
    exact denominated_runs h eq

/-- The amount of a symbol, if a number is at the front. -/
def amountAfter (src : Source) (symbol : Token) (negative : Bool) (ts : List Token) :
    Outcome Expr :=
  match ts with
  | t :: _ =>
    if t.kind == .number then symbolAmount src symbol negative t 1 else .ok (withoutAmount symbol)
  | [] => .ok (withoutAmount symbol)

theorem amountAfter_runs {symbol : Token} {negative : Bool} (h : Stands tokens src s.pos ts)
    (eq : amountAfter src symbol negative ts = .ok p) :
    Runs short (Walk.amountOfSymbol tokens src symbol negative) s p := by
  refine .current h fun u first => ?_
  rw [first.kind]
  cases ts with
  | nil =>
    obtain rfl := Except.ok.inj eq
    exact .noting _ symbol _
  | cons t rest =>
    obtain rfl := first.eq
    rw [amountAfter] at eq
    rw [kindOf]
    by_cases number : (u.kind == .number) = true
    · rw [if_pos number, symbolAmount_eq] at eq
      obtain ⟨q, found, rfl⟩ := map_ok_iff.mp eq
      obtain ⟨x, worth, beside⟩ := bind_ok_iff.mp found
      obtain rfl := Except.ok.inj beside
      rw [if_pos number]
      refine .advance h fun s _ => .amount worth ?_
      unfold amountBeside
      cases Denomination.ofSymbol? symbol.text with
      | some d => exact .pure _
      | none => exact .noting _ symbol _
    · rw [if_neg number] at eq
      obtain rfl := Except.ok.inj eq
      rw [if_neg number]
      exact .noting _ symbol _

theorem symbolAmount_two {symbol : Token} {negative : Bool} :
    symbolAmount src symbol negative t 2 =
      (symbolAmount src symbol negative t 1).map (·.behind 1 [] id) := by
  rw [symbolAmount_eq, symbolAmount_eq]
  cases amountOf t.text with
  | error fault => rfl
  | ok x => simp [Except.map, Except.bind, Parsed.behind, ← Nat.add_assoc]

/-- A minus sign counts in front of a number only. -/
theorem parseSymbol_eq {symbol : Token} : parseSymbol src symbol ts =
    if startsWith .minus ts && startsWith .number (ts.drop 1) then
      (amountAfter src symbol true (ts.drop 1)).map (·.behind 1 [] id)
    else amountAfter src symbol false ts := by
  match ts with
  | [] => rfl
  | [u] => simp [parseSymbol, amountAfter, startsWith]
  | u :: v :: rest =>
    by_cases number : u.kind = .number
    · simp [parseSymbol, amountAfter, startsWith, number]
    · by_cases minus : u.kind = .minus <;> by_cases second : v.kind = .number <;>
        simp [parseSymbol, amountAfter, startsWith, number, minus, second, symbolAmount_two]

theorem symbol_runs (h : Stands tokens src s.pos (t :: ts)) (eq : parseSymbol src t ts = .ok p) :
    Runs short (Walk.symbol tokens src) s (p.behind 1 [] id) := by
  refine .advance h fun s h => .current h fun first at1 => .peek h fun second at2 => ?_
  rw [at1.kind, at2.kind, kindOf_beq (by decide), kindOf_beq (by decide)]
  rw [parseSymbol_eq] at eq
  split at eq
  · next signed =>
    rw [if_pos signed]
    obtain ⟨q, found, rfl⟩ := map_ok_iff.mp eq
    cases ts with
    | nil => cases signed
    | cons u rest => exact .advance h fun s h => amountAfter_runs h found
  · next unsigned =>
    rw [if_neg unsigned]
    exact amountAfter_runs h eq

theorem target_runs (h : Stands tokens src s.pos ts) :
    Runs short (Walk.target tokens) s (parseTarget src ts) := by
  refine .current h fun t first => ?_
  cases ts with
  | nil =>
    have kind : t.kind = .finish := first.kind
    rw [kind]
    exact (first.note _).map fun _ => _
  | cons u rest =>
    obtain rfl := first.eq
    simp only [parseTarget]
    split
    · exact Runs.advance (p := ⟨_, 0, []⟩) h fun _ _ => .pure _
    · exact (first.note _).map fun _ => _

/-- The closing parenthesis of a part, and its value after that. -/
theorem expect_runs {cause : SyntaxProblem} {value : α} (h : Stands tokens src s.pos ts) :
    Runs short (Walk.expect tokens .rightParen cause >>= fun _ => Pure.pure value) s
      (parseClosing src cause ts value) := by
  have closing : Runs short (Walk.expect tokens .rightParen cause) s
      (parseClosing src cause ts ()) := by
    refine .current h fun t first => ?_
    rw [first.kind, kindOf_beq (by decide)]
    unfold parseClosing
    split
    · next closes =>
      cases ts with
      | nil => cases closes
      | cons u rest => exact Runs.advance (p := ⟨_, 0, []⟩) h fun _ _ => .pure _
    · exact first.note _
  have both := closing.map fun _ => value
  rw [parseClosing] at both ⊢
  split <;> simp_all

/-! ## Percentages -/

/-- Only of a percentage the denomination is per cent. -/
theorem ne_percentage {e : Expr} (h : Grammar.Operand (t :: ts) e rest) (kind : t.kind ≠ .percent)
    (x : Float) (raw : String) : e ≠ .literal x .percent raw := by
  intro eq
  have listed : ∀ {d : Denomination}, d ∈ Denomination.listed → d ≠ .percent :=
    fun mem => (Denomination.ne_of_mem_listed mem).2
  have symbol : Grammar.symbolDenomination t ≠ .percent := by
    unfold Grammar.symbolDenomination
    cases found : Denomination.ofSymbol? t.text with
    | none => exact nofun
    | some d => exact listed (Denomination.mem_listed_of_ofSymbol? found)
  cases h with
  | leaf leaf =>
    cases leaf with
    | quantity _ _ suffix => exact listed (mem_listed_of_suffixOf suffix) (Expr.literal.inj eq).2.1
    | symbol | negative => exact symbol (Expr.literal.inj eq).2.1
    | percent percent => exact kind percent
    | name =>
      unfold nameExpr at eq
      split at eq <;> cases eq
    | _ => cases eq
  | _ => cases eq

/-- A percentage is read alone; whether it has a base is looked at behind it. -/
theorem primary_percent_runs {x : Float} (h : Stands tokens src s.pos (t :: ts))
    (percent : t.kind = .percent) (worth : amountOf t.text = .ok x) (least : short ∨ 0 < fuel) :
    Runs short (Walk.primary tokens src fuel) s ⟨.literal (x / 100) .percent t.text, 1, []⟩ := by
  cases fuel with
  | zero => exact .exhausted (least.resolve_right (Nat.lt_irrefl 0))
  | succ fuel =>
    rw [Walk.primary]
    refine .current h fun u first => ?_
    obtain rfl := first.eq
    rw [percent]
    exact Runs.advance (p := ⟨_, 0, []⟩) h fun _ _ => .amount worth (.pure _)

/-- A percentage has a base exactly if `of` follows. -/
theorem parsePrimary_percent (percent : t.kind = .percent) : parsePrimary src t ts =
    if startsWith .ofWord ts then percentOf t (parseOperand src (ts.drop 1))
    else parsePercent t := by
  rw [parsePrimary_eq]
  cases ts with
  | nil => simp [parseSimple, percent, startsWith]
  | cons u rest => simp [parseSimple, percent, startsWith]

/-- What is no percentage is a group, a call or a single operand. -/
theorem parsePrimary_other (kind : t.kind ≠ .percent) : parsePrimary src t ts =
    if t.kind == .leftParen then
      if startsWith .rightParen ts then .ok ⟨emptyGroup, 1, []⟩
      else (parseExpression src ts).map fun e =>
        (parseClosing src .unclosedGroup (ts.drop e.used) (.group e.value)).behind
          e.used e.problems id
    else if t.kind == .word && startsWith .leftParen ts then
      (parseCall src t.text (ts.drop 1)).map (·.behind 1 [] id)
    else parseSimple src t ts := by
  rw [parsePrimary_eq]
  cases ts with
  | nil => simp [startsWith]
  | cons u rest => simp [startsWith, kind]

theorem parseSimple_runs (h : Stands tokens src s.pos (t :: ts)) (noPercent : t.kind ≠ .percent)
    (noGroup : t.kind ≠ .leftParen) (noCall : ¬(t.kind == .word && startsWith .leftParen ts) = true)
    (eq : parseSimple src t ts = .ok p) :
    Runs short (Walk.primary tokens src (fuel + 1)) s (p.behind 1 [] id) := by
  rw [Walk.primary]
  refine .current h fun u first => ?_
  obtain rfl := first.eq
  unfold parseSimple at eq
  have percent : ¬(u.kind == .percent) = true := by simpa using noPercent
  have group : ¬(u.kind == .leftParen) = true := by simpa using noGroup
  have finish : ¬(u.kind == .finish) = true := by simpa using h.inner
  rw [if_neg percent, if_neg group, if_neg finish]
  split
  · next number =>
    rw [if_pos number] at eq
    exact number_runs h eq
  next number =>
  rw [if_neg number, if_neg percent] at eq
  split
  · next symbol =>
    rw [if_pos symbol] at eq
    exact symbol_runs h eq
  next symbol =>
  rw [if_neg symbol] at eq
  split
  · next word =>
    rw [if_pos word] at eq
    obtain rfl := Except.ok.inj eq
    have opens : startsWith .leftParen ts = false := by simpa [word] using noCall
    refine .peek h fun second after => ?_
    rw [after.kind, kindOf_beq (by decide), List.drop_one, List.tail_cons, opens,
      if_neg Bool.false_ne_true]
    exact .advance h fun s _ => .pure _
  · next word =>
    rw [if_neg word] at eq
    obtain rfl := Except.ok.inj eq
    refine Runs.bind (q := ⟨placeholder, 1, []⟩) (.note _ u) ?_
    exact Runs.advance (p := ⟨_, 0, []⟩) h fun s _ => .pure _

theorem primary_end_runs (h : Stands tokens src s.pos []) :
    Runs (fuel < 1) (Walk.primary tokens src fuel) s
      ⟨placeholder, 0, [.ofSyntax .unexpectedEnd src.endPos]⟩ := by
  cases fuel with
  | zero => exact .exhausted Nat.one_pos
  | succ fuel =>
    rw [Walk.primary]
    refine .current h fun t first => ?_
    have kind : t.kind = .finish := first.kind
    rw [kind]
    exact (first.note _).map fun _ => _

/-- At the end an operand is missing. -/
theorem operand_end_runs (h : Stands tokens src s.pos []) :
    Runs (fuel < 3) (Walk.operand tokens src fuel) s
      ⟨placeholder, 0, [.ofSyntax .unexpectedEnd src.endPos]⟩ := by
  cases fuel with
  | zero => exact .exhausted (by decide)
  | succ fuel =>
    rw [Walk.operand]
    refine .current h fun t first => ?_
    have kind : t.kind = .finish := first.kind
    rw [kind]
    cases fuel with
    | zero => exact .exhausted (by decide)
    | succ fuel =>
      show Runs _ (Walk.withBase tokens src (fuel + 1)) s _
      rw [Walk.withBase]
      have missing : Runs (fuel + 1 + 1 < 3) (Walk.primary tokens src fuel) s _ :=
        (primary_end_runs h).mono (by omega)
      exact Runs.bind (q := ⟨placeholder, 0, []⟩) missing (.pure _)

/-! ## Parts with expressions inside -/

@[simp] theorem Parsed.behind_lone (p : Parsed α) :
    Parsed.behind ⟨p.value, 0, []⟩ p.used p.problems id = p := by
  simp [Parsed.behind]

theorem Parsed.behind_eq {β : Type} (p : Parsed α) (n : Nat) (earlier : List Diagnostic)
    (f : α → β) :
    p.behind n earlier f = Parsed.behind ⟨f p.value, p.used, p.problems⟩ n earlier id :=
  rfl

/-- The conversion of what has been read, if `in` follows. -/
def conversionOf (src : Source) (left : Expr) (ts : List Token) : Parsed Expr :=
  if startsWith .inWord ts then (parseTarget src (ts.drop 1)).behind 1 [] (.conversion left)
  else ⟨left, 0, []⟩

theorem withTarget_eq : withTarget src ts p =
    (conversionOf src p.value (ts.drop p.used)).behind p.used p.problems id := by
  unfold withTarget conversionOf
  split
  · simp [Parsed.behind, Nat.add_assoc]
  · rw [Parsed.behind_lone]

/-- The walk after an operand with operators. -/
theorem conversionOf_runs {left : Expr} (h : Stands tokens src s.pos ts) :
    Runs short (do
      let t ← Walk.current tokens
      if t.kind == .inWord then
        let _ ← Walk.advance tokens
        let target ← Walk.target tokens
        return .conversion left target
      else return left) s (conversionOf src left ts) := by
  refine .current h fun t first => ?_
  rw [first.kind, kindOf_beq (by decide)]
  unfold conversionOf
  split
  · next converts =>
    cases ts with
    | nil => cases converts
    | cons u rest =>
      rw [Parsed.behind_eq]
      exact .advance h fun s h => (target_runs h).map (Expr.conversion left)
  · exact .pure _

-- The induction is on the fuel, which is one less in each call within a call. The numbers beside
-- `8 * ts.length` go down along the calls between which no token is used, from 7 for arguments to 1
-- for a call of a function; a call after a token has eight more to spend.

mutual

theorem expression_runs (worth : AreWorth tokens) (fuel : Nat) {s : Walker} {ts : List Token}
    {p : Parsed Expr} (h : Stands tokens src s.pos ts) (eq : parseExpression src ts = .ok p) :
    Runs (fuel < 8 * ts.length + 6) (Walk.expression tokens src fuel) s p := by
  match fuel with
  | 0 => exact .exhausted (by omega)
  | fuel + 1 =>
    rw [parseExpression_eq] at eq
    obtain ⟨left, found, rfl⟩ := map_ok_iff.mp eq
    have within := (parseOperators_isRead src 1 ts (h.isPart worth)).within found
    rw [Walk.expression, withTarget_eq]
    refine .bind ((operators_runs worth fuel h found).mono (by omega)) ?_
    exact conversionOf_runs (h.drop within.most)
termination_by fuel

theorem operators_runs (worth : AreWorth tokens) (fuel : Nat) {least : Nat} {s : Walker}
    {ts : List Token} {p : Parsed Expr} (h : Stands tokens src s.pos ts)
    (eq : parseOperators src least ts = .ok p) :
    Runs (fuel < 8 * ts.length + 5) (Walk.operators tokens src fuel least) s p := by
  match fuel with
  | 0 => exact .exhausted (by omega)
  | fuel + 1 =>
    rw [parseOperators_eq] at eq
    obtain ⟨left, found, eq⟩ := bind_ok_iff.mp eq
    obtain ⟨all, climbed, rfl⟩ := map_ok_iff.mp eq
    have within := (parseOperand_isRead src ts (h.isPart worth)).within found
    rw [Walk.operators]
    refine .bind ((operand_runs worth fuel h found).mono (by omega)) ?_
    refine (climbing_runs worth fuel (h.drop within.most) climbed).mono ?_
    rw [List.length_drop]
    omega
termination_by fuel

theorem climbing_runs (worth : AreWorth tokens) (fuel : Nat) {least : Nat} {left : Expr}
    {s : Walker} {ts : List Token} {p : Parsed Expr} (h : Stands tokens src s.pos ts)
    (eq : climb src least left ts = .ok p) :
    Runs (fuel < 8 * ts.length + 4) (Walk.climbing tokens src fuel least left) s p := by
  match fuel with
  | 0 => exact .exhausted (by omega)
  | fuel + 1 =>
    rw [Walk.climbing]
    refine .current h fun u first => ?_
    match ts with
    | [] =>
      have kind : u.kind = .finish := first.kind
      rw [climb] at eq
      obtain rfl := Except.ok.inj eq
      rw [kind]
      exact .pure _
    | t :: rest =>
      obtain rfl := first.eq
      cases op? : binaryOp? u.kind with
      | none =>
        rw [climb, op?] at eq
        obtain rfl := Except.ok.inj eq
        exact .pure _
      | some op =>
        by_cases loose : op.precedence < least
        · rw [climb, op?] at eq
          simp only [loose, if_true] at eq ⊢
          obtain rfl := Except.ok.inj eq
          exact .pure _
        · rw [climb_eq op? loose] at eq
          obtain ⟨all, chain, rfl⟩ := map_ok_iff.mp eq
          obtain ⟨right, found, more⟩ := bind_ok_iff.mp chain
          obtain ⟨others, climbed, rfl⟩ := map_ok_iff.mp more
          have part := h.tail.isPart worth
          have within := (parseOperators_isRead src op.rightPrecedence rest part).within found
          simp only [loose, if_false, List.length_cons]
          refine .advance h fun s h => ?_
          refine .bind ((operators_runs worth fuel h found).mono (by omega)) ?_
          refine (climbing_runs worth fuel (h.drop within.most) climbed).mono ?_
          rw [List.length_drop]
          omega
termination_by fuel

theorem operand_runs (worth : AreWorth tokens) (fuel : Nat) {s : Walker} {ts : List Token}
    {p : Parsed Expr} (h : Stands tokens src s.pos ts) (eq : parseOperand src ts = .ok p) :
    Runs (fuel < 8 * ts.length + 4) (Walk.operand tokens src fuel) s p := by
  match ts with
  | [] =>
    rw [parseOperand] at eq
    obtain rfl := Except.ok.inj eq
    exact (operand_end_runs h).mono (by omega)
  | t :: rest =>
    match fuel with
    | 0 => exact .exhausted (by omega)
    | fuel + 1 =>
      rw [Walk.operand]
      refine .current h fun u first => ?_
      obtain rfl := first.eq
      cases sign? : signOp? u.kind with
      | some sign =>
        rw [parseOperand_eq_signed sign?] at eq
        obtain ⟨operand, found, rfl⟩ := map_ok_iff.mp eq
        rw [Parsed.behind_eq]
        refine .advance h fun s h => ?_
        refine ((operand_runs worth fuel h found).map (Expr.signed sign)).mono ?_
        rw [List.length_cons]
        omega
      | none =>
        rw [parseOperand_eq_primary sign?] at eq
        obtain ⟨operand, found, rfl⟩ := map_ok_iff.mp eq
        exact (withBase_runs worth fuel h sign? found).mono (by omega)
termination_by fuel

theorem withBase_runs (worth : AreWorth tokens) (fuel : Nat) {s : Walker} {t : Token}
    {ts : List Token} {p : Parsed Expr} (h : Stands tokens src s.pos (t :: ts))
    (noSign : signOp? t.kind = none) (eq : parsePrimary src t ts = .ok p) :
    Runs (fuel < 8 * (t :: ts).length + 3) (Walk.withBase tokens src fuel) s
      (p.behind 1 [] id) := by
  match fuel with
  | 0 => exact .exhausted (by omega)
  | fuel + 1 =>
    rw [Walk.withBase]
    by_cases percent : t.kind = .percent
    · rw [parsePrimary_percent percent] at eq
      obtain ⟨x, amount⟩ := (h.isPart worth).worth t List.mem_cons_self (.inr percent)
      refine .bind (primary_percent_runs h percent amount (by omega)) ?_
      refine .current h.tail fun u second => ?_
      rw [second.kind, kindOf_beq (by decide)]
      split at eq
      · next based =>
        cases ts with
        | nil => cases based
        | cons v rest =>
          rw [percentOf_eq, amount] at eq
          obtain ⟨base, found, rfl⟩ := map_ok_iff.mp eq
          rw [if_pos based, Parsed.behind_eq]
          refine .advance h.tail fun s h => ?_
          refine ((operand_runs worth fuel h found).map (Expr.percentOf (x / 100) t.text)).mono ?_
          simp only [List.length_cons]
          omega
      · next alone =>
        rw [parsePercent_eq, amount] at eq
        obtain rfl := Except.ok.inj eq
        rw [if_neg alone]
        exact .pure _
    · have operand := (parsePrimary_grammar src t ts noSign p eq).1
      have first := (primary_runs worth fuel h percent eq).mono
        (show _ → fuel + 1 < 8 * (t :: ts).length + 3 by omega)
      -- What is read is no percentage, so nothing is looked at behind it.
      rw [← Parsed.behind_lone (p.behind 1 [] id)]
      refine .bind first ?_
      split
      · next x raw percentage => exact absurd percentage (ne_percentage operand percent x raw)
      · exact .pure _
termination_by fuel

theorem primary_runs (worth : AreWorth tokens) (fuel : Nat) {s : Walker} {t : Token}
    {ts : List Token} {p : Parsed Expr} (h : Stands tokens src s.pos (t :: ts))
    (noPercent : t.kind ≠ .percent) (eq : parsePrimary src t ts = .ok p) :
    Runs (fuel < 8 * (t :: ts).length + 2) (Walk.primary tokens src fuel) s (p.behind 1 [] id) := by
  match fuel with
  | 0 => exact .exhausted (by omega)
  | fuel + 1 =>
    rw [parsePrimary_other noPercent] at eq
    split at eq
    · next group =>
      rw [Walk.primary]
      refine .current h fun u first => ?_
      obtain rfl := first.eq
      rw [beq_iff_eq.mp group]
      refine .advance h fun s h => .current h fun v next => ?_
      rw [next.kind, kindOf_beq (by decide)]
      split at eq
      · next closes =>
        obtain rfl := Except.ok.inj eq
        rw [if_pos closes]
        cases ts with
        | nil => cases closes
        | cons w rest => exact Runs.advance (p := ⟨_, 0, []⟩) h fun _ _ => .pure _
      · next opens =>
        obtain ⟨e, found, rfl⟩ := map_ok_iff.mp eq
        have within := (parseExpression_isRead src ts (h.isPart worth)).within found
        rw [if_neg opens]
        refine .bind ((expression_runs worth fuel h found).mono ?_)
          (expect_runs (h.drop within.most))
        rw [List.length_cons]
        omega
    · next noGroup =>
      split at eq
      · next call =>
        obtain ⟨word, opens⟩ := Bool.and_eq_true_iff.mp call
        obtain ⟨e, found, rfl⟩ := map_ok_iff.mp eq
        rw [Walk.primary]
        refine .current h fun u first => ?_
        obtain rfl := first.eq
        rw [beq_iff_eq.mp word]
        refine .peek h fun v next => ?_
        rw [next.kind, kindOf_beq (by decide), List.drop_one, List.tail_cons, if_pos opens]
        cases ts with
        | nil => cases opens
        | cons w rest => exact (call_runs worth fuel h found).mono (by omega)
      · next noCall =>
        exact parseSimple_runs h noPercent (by simpa using noGroup) noCall eq
termination_by fuel

theorem call_runs (worth : AreWorth tokens) (fuel : Nat) {s : Walker} {t u : Token}
    {ts : List Token} {p : Parsed Expr} (h : Stands tokens src s.pos (t :: u :: ts))
    (eq : parseCall src t.text ts = .ok p) :
    Runs (fuel < 8 * (t :: u :: ts).length + 1) (Walk.call tokens src fuel) s
      ((p.behind 1 [] id).behind 1 [] id) := by
  match fuel with
  | 0 => exact .exhausted (by omega)
  | fuel + 1 =>
    rw [Walk.call]
    refine .advance h fun s h => .advance h fun s h => .current h fun v first => ?_
    rw [first.kind, kindOf_beq (by decide)]
    rw [parseCall_eq] at eq
    split at eq
    · next closes =>
      obtain rfl := Except.ok.inj eq
      rw [if_pos closes]
      cases ts with
      | nil => cases closes
      | cons w rest => exact Runs.advance (p := ⟨_, 0, []⟩) h fun _ _ => .pure _
    · next opens =>
      obtain ⟨args, found, rfl⟩ := map_ok_iff.mp eq
      have within := (parseArgs_isRead src ts (h.isPart worth)).within found
      rw [if_neg opens]
      refine .bind ((arguments_runs worth fuel h found).mono ?_) (expect_runs (h.drop within.most))
      simp only [List.length_cons]
      omega
termination_by fuel

theorem arguments_runs (worth : AreWorth tokens) (fuel : Nat) {s : Walker} {ts : List Token}
    {p : Parsed (List Expr)} (h : Stands tokens src s.pos ts) (eq : parseArgs src ts = .ok p) :
    Runs (fuel < 8 * ts.length + 7) (Walk.arguments tokens src fuel) s p := by
  match fuel with
  | 0 => exact .exhausted (by omega)
  | fuel + 1 =>
    rw [parseArgs_eq] at eq
    obtain ⟨first, found, eq⟩ := bind_ok_iff.mp eq
    obtain ⟨others, more, rfl⟩ := map_ok_iff.mp eq
    have within := (parseExpression_isRead src ts (h.isPart worth)).within found
    have behind := h.drop within.most
    have shorter := List.length_drop (i := first.used) (l := ts)
    rw [Walk.arguments, Parsed.behind_eq]
    refine .bind ((expression_runs worth fuel h found).mono (by omega)) ?_
    refine .current behind fun u next => ?_
    rw [next.kind, kindOf_beq (by decide)]
    generalize ts.drop first.used = rest at *
    cases rest with
    | nil =>
      obtain rfl := Except.ok.inj more
      exact .pure _
    | cons v rest =>
      rw [parseMoreArgs] at more
      split at more
      · next comma =>
        obtain ⟨args, read, rfl⟩ := map_ok_iff.mp more
        rw [startsWith, if_pos comma]
        refine Runs.advance (p := ⟨first.value :: args.value, args.used, args.problems⟩) behind
          fun s h => ((arguments_runs worth fuel h read).map (first.value :: ·)).mono ?_
        rw [List.length_cons] at shorter
        omega
      · next last =>
        obtain rfl := Except.ok.inj more
        rw [startsWith, if_neg last]
        exact .pure _
termination_by fuel

end

end LineCalc.Parser
