import LineCalc.Expr.Parser

/-!
# The grammar of a line

Which tree a line stands for, said of the tokens and the tree without going through the parser. Two
things are said apart. The tokens of a line are its operands and operators in order: a chain of
operators and operands goes as far as an operator follows, and `in` converts the chain before it,
all of it. How the operators of one chain nest is a matter of their precedence, and is said of the
tree alone, by the place of each expression in it.

Results:
1. `Expr.Nested.eq_of_chain`: the order of a chain and the rules of nesting leave one tree.
-/

namespace LineCalc

open LineCalc.Parser

/-! ## Nesting -/

/-- Where an expression stands in a tree. -/
inductive Place
  /-- The root of a line without an assignment. -/
  | line
  /-- The right side of an assignment, the content of parentheses, an argument of a call, or what an
  operator at the beginning of a line applies to. -/
  | whole
  /-- In front of `in`. -/
  | converted
  | leftOf (op : BinaryOp)
  | rightOf (op : BinaryOp)
  /-- Behind a sign, or the base of a percentage. -/
  | operand

namespace Place

/-- An operator may be applied at a place, with no parentheses around. Of two operators the one of
higher precedence is applied first, of equal ones the left one, but of powers the right one. -/
def Admits : Place → BinaryOp → Prop
  | line, _ | whole, _ | converted, _ => True
  | leftOf outer, op => outer.precedence ≤ op.precedence ∧ outer ≠ .pow
  | rightOf outer, op => outer.precedence < op.precedence ∨ outer = .pow ∧ op = .pow
  | operand, _ => False

/-- Places where `in` may stand behind the expression. -/
def IsWhole (place : Place) : Prop := place = line ∨ place = whole

end Place

namespace Expr

/-- An expression may stand at a place, and each expression inside it at its own. -/
inductive Nested : Place → Expr → Prop
  | literal {place : Place} {x : Float} {d : Denomination} {raw : String} :
      Nested place (.literal x d raw)
  | name {place : Place} {n : String} : Nested place (.name n)
  | binary {place : Place} {left right : Expr} {op : BinaryOp} :
      place.Admits op → Nested (.leftOf op) left → Nested (.rightOf op) right →
      Nested place (.binary left op right)
  | signed {place : Place} {sign : SignOp} {e : Expr} :
      Nested .operand e → Nested place (.signed sign e)
  | percentOf {place : Place} {x : Float} {raw : String} {e : Expr} :
      Nested .operand e → Nested place (.percentOf x raw e)
  | conversion {place : Place} {e : Expr} {target : String} :
      place.IsWhole → Nested .converted e → Nested place (.conversion e target)
  | call {place : Place} {function : String} {args : List Expr} :
      (∀ e ∈ args, Nested .whole e) → Nested place (.call function args)
  | group {place : Place} {e : Expr} : Nested .whole e → Nested place (.group e)
  | resume {op : BinaryOp} {e : Expr} : Nested .whole e → Nested .line (.resume op e)
  | resumeConversion {target : String} : Nested .line (.resumeConversion target)

/-- The first operand of a chain; parentheses and signs end a chain. -/
def first : Expr → Expr
  | binary left _ _ => left.first
  | e => e

/-- The operators of a chain, each with the operand after it, from left to right. -/
def links : Expr → List (BinaryOp × Expr)
  | binary left op right => left.links ++ (op, right.first) :: right.links
  | _ => []

end Expr

/-- The expression of a statement is nested by the rules. -/
def Statement.Nested : Statement → Prop
  | .empty | .comment _ => True
  | .expr e => e.Nested .line
  | .assign _ e => e.Nested .whole

/-! ## The tree of a chain -/

/-- What may stand under an operator of a chain may stand where that operator does. -/
theorem Place.Admits.trans {place : Place} {op inner : BinaryOp} (outer : place.Admits op)
    (h : (leftOf op).Admits inner ∨ (rightOf op).Admits inner) : place.Admits inner := by
  cases place with
  | line | whole | converted => trivial
  | operand => cases outer
  | leftOf top =>
    obtain ⟨le, ne⟩ := outer
    refine ⟨?_, ne⟩
    rcases h with ⟨h, -⟩ | h | ⟨rfl, rfl⟩
    · exact Nat.le_trans le h
    · exact Nat.le_trans le (Nat.le_of_lt h)
    · exact le
  | rightOf top =>
    rcases outer with lt | ⟨rfl, rfl⟩
    · rcases h with ⟨h, -⟩ | h | ⟨rfl, rfl⟩
      · exact .inl (Nat.lt_of_lt_of_le lt h)
      · exact .inl (Nat.lt_trans lt h)
      · exact .inl lt
    · rcases h with ⟨-, no⟩ | h
      · exact absurd rfl no
      · exact h

namespace Expr

theorem first_eq_self {e : Expr} (h : e.links = []) : e.first = e := by
  cases e with
  | binary left op right => simp [links] at h
  | _ => rfl

theorem Nested.admits {place : Place} {e : Expr} (h : e.Nested place) :
    ∀ link ∈ e.links, place.Admits link.1 := by
  induction h with
  | @binary place left right op outer _ _ ihLeft ihRight =>
    intro link mem
    rw [links, List.mem_append, List.mem_cons] at mem
    rcases mem with mem | rfl | mem
    · exact outer.trans (.inl (ihLeft link mem))
    · exact outer
    · exact outer.trans (.inr (ihRight link mem))
  | _ => exact List.forall_mem_nil _

/-- Of two operators only one can be under the other on its side. -/
theorem not_admits_both {op op' : BinaryOp} (left : (Place.leftOf op).Admits op')
    (right : (Place.rightOf op').Admits op) : False := by
  rcases right with lt | ⟨rfl, rfl⟩
  · exact Nat.not_lt.mpr left.1 lt
  · exact left.2 rfl

/-- A chain stands for one tree: trees nested by the rules that have the same operands and operators
in the same order are equal. -/
theorem Nested.eq_of_chain {place place' : Place} {e e' : Expr} (h : e.Nested place)
    (h' : e'.Nested place') (first : e.first = e'.first) (links : e.links = e'.links) : e = e' := by
  induction h generalizing e' place' with
  | @binary place left right op outer hLeft hRight ihLeft ihRight =>
    cases h' with
    | @binary _ left' right' op' _ hLeft' hRight' =>
      rcases List.append_eq_append_iff.mp links with ⟨mid, eq, rest⟩ | ⟨mid, eq, rest⟩
      · cases mid with
        | nil =>
          obtain ⟨⟨rfl, head⟩, tail⟩ := by simpa using rest
          rw [ihLeft hLeft' first (by simpa using eq.symm), ihRight hRight' head tail]
        | cons link mid =>
          -- The operator of the first tree is on the left of the other one, which is on its right.
          simp only [List.cons_append, List.cons.injEq] at rest
          obtain ⟨rfl, rest⟩ := rest
          have below : (op, right.first) ∈ left'.links := by simp [eq]
          have above : (op', right'.first) ∈ right.links := by simp [rest]
          exact (not_admits_both (hLeft'.admits _ below) (hRight.admits _ above)).elim
      · cases mid with
        | nil =>
          obtain ⟨⟨rfl, head⟩, tail⟩ := by simpa using rest
          rw [ihLeft hLeft' first (by simpa using eq), ihRight hRight' head.symm tail.symm]
        | cons link mid =>
          simp only [List.cons_append, List.cons.injEq] at rest
          obtain ⟨rfl, rest⟩ := rest
          have below : (op', right'.first) ∈ left.links := by simp [eq]
          have above : (op, right.first) ∈ right'.links := by simp [rest]
          exact (not_admits_both (hLeft.admits _ below) (hRight'.admits _ above)).elim
    | _ => simp [Expr.links] at links
  | _ =>
    have lone := first_eq_self links.symm
    rw [lone] at first
    exact first

end Expr

/-! ## Tokens -/

namespace Grammar

/-- The operator at the front. -/
def nextOp? (ts : List Token) : Option BinaryOp := ts.head?.bind fun t => binaryOp? t.kind

/-- What is left behind a closing parenthesis. One that is missing is passed over. -/
def pastClosing (ts : List Token) : List Token :=
  if startsWith .rightParen ts then ts.drop 1 else ts

/-- A number is next, perhaps with a minus sign. -/
def startsAmount (ts : List Token) : Bool :=
  startsWith .number ts || startsWith .minus ts && startsWith .number (ts.drop 1)

/-- An operand may begin with a token of the kind. -/
def opensOperand (kind : TokenKind) : Bool :=
  kind == .number || kind == .percent || kind == .word || kind == .leftParen || kind.isSymbol ||
    (signOp? kind).isSome

/-- The denomination of a symbol in front of an amount. -/
def symbolDenomination (symbol : Token) : Denomination :=
  (Denomination.ofSymbol? symbol.text).getD .plain

/-- An amount or a name at the front, and what is left behind it. The text that an amount keeps is
left open. A symbol without an amount and a token that begins no operand count as zero. -/
inductive Leaf : List Token → Expr → List Token → Prop
  | number {t : Token} {ts : List Token} {x : Float} {raw : String} :
      t.kind = .number → amountOf t.text = .ok x →
      (∀ u rest, ts = u :: rest → suffixOf u rest = none) →
      Leaf (t :: ts) (.literal x .plain raw) ts
  | quantity {t u : Token} {ts : List Token} {x : Float} {d : Denomination} {raw : String} :
      t.kind = .number → amountOf t.text = .ok x → suffixOf u ts = some d →
      Leaf (t :: u :: ts) (.literal x d raw) ts
  | percent {t : Token} {ts : List Token} {x : Float} {raw : String} :
      t.kind = .percent → startsWith .ofWord ts = false → fractionOf t.text = .ok x →
      Leaf (t :: ts) (.literal x .percent raw) ts
  | symbol {t u : Token} {ts : List Token} {x : Float} {raw : String} :
      t.kind.isSymbol = true → u.kind = .number → amountOf u.text = .ok x →
      Leaf (t :: u :: ts) (.literal x (symbolDenomination t) raw) ts
  | negative {t minus u : Token} {ts : List Token} {x : Float} {raw : String} :
      t.kind.isSymbol = true → minus.kind = .minus → u.kind = .number → amountOf u.text = .ok x →
      Leaf (t :: minus :: u :: ts) (.literal (-x) (symbolDenomination t) raw) ts
  | bareSymbol {t : Token} {ts : List Token} :
      t.kind.isSymbol = true → startsAmount ts = false → Leaf (t :: ts) placeholder ts
  | name {t : Token} {ts : List Token} :
      t.kind = .word → startsWith .leftParen ts = false → Leaf (t :: ts) (nameExpr t.text) ts
  | unexpected {t : Token} {ts : List Token} :
      opensOperand t.kind = false → Leaf (t :: ts) placeholder ts

theorem Leaf.nested {ts rest : List Token} {e : Expr} (h : Leaf ts e rest) (place : Place) :
    e.Nested place := by
  cases h with
  | name =>
    unfold nameExpr
    split <;> exact .name
  | _ => exact .literal

/-- The target of a conversion at the front; it may be missing. -/
inductive Target : List Token → String → List Token → Prop
  | named {t : Token} {ts : List Token} :
      (t.kind == .word || t.kind.isSymbol) = true → Target (t :: ts) t.text ts
  | missing {ts : List Token} :
      (∀ t ∈ ts.head?, (t.kind == .word || t.kind.isSymbol) = false) → Target ts "" ts

mutual

/-- An operand at the front. A missing one at the end counts as zero. -/
inductive Operand : List Token → Expr → List Token → Prop
  | missing : Operand [] placeholder []
  | leaf {ts rest : List Token} {e : Expr} : Leaf ts e rest → Operand ts e rest
  | signed {t : Token} {ts rest : List Token} {sign : SignOp} {e : Expr} :
      signOp? t.kind = some sign → Operand ts e rest → Operand (t :: ts) (.signed sign e) rest
  | percentOf {t u : Token} {ts rest : List Token} {x : Float} {raw : String} {e : Expr} :
      t.kind = .percent → u.kind = .ofWord → fractionOf t.text = .ok x → Operand ts e rest →
      Operand (t :: u :: ts) (.percentOf x raw e) rest
  | emptyGroup {t u : Token} {ts : List Token} :
      t.kind = .leftParen → u.kind = .rightParen → Operand (t :: u :: ts) emptyGroup ts
  | group {t : Token} {ts rest : List Token} {e : Expr} :
      t.kind = .leftParen → startsWith .rightParen ts = false → Whole ts e rest →
      Operand (t :: ts) (.group e) (pastClosing rest)
  | emptyCall {t u closing : Token} {ts : List Token} :
      t.kind = .word → u.kind = .leftParen → closing.kind = .rightParen →
      Operand (t :: u :: closing :: ts) (.call t.text []) ts
  | call {t u : Token} {ts rest : List Token} {args : List Expr} :
      t.kind = .word → u.kind = .leftParen → startsWith .rightParen ts = false →
      Args ts args rest → Operand (t :: u :: ts) (.call t.text args) (pastClosing rest)

/-- Operators at the front, each with an operand after it. -/
inductive Links : List Token → List (BinaryOp × Expr) → List Token → Prop
  | nil {ts : List Token} : Links ts [] ts
  | cons {t : Token} {ts more rest : List Token} {op : BinaryOp} {e : Expr}
      {links : List (BinaryOp × Expr)} :
      binaryOp? t.kind = some op → Operand ts e more → Links more links rest →
      Links (t :: ts) ((op, e) :: links) rest

/-- A chain at the front, up to where no operator follows. The tree has the operands and operators
of the tokens in their order. -/
inductive Chain : List Token → Expr → List Token → Prop
  | intro {ts more rest : List Token} {e : Expr} :
      Operand ts e.first more → Links more e.links rest → nextOp? rest = none → Chain ts e rest

/-- A chain at the front with the conversion of all of it, if `in` follows. -/
inductive Whole : List Token → Expr → List Token → Prop
  | chain {ts rest : List Token} {e : Expr} :
      Chain ts e rest → startsWith .inWord rest = false → Whole ts e rest
  | conversion {t : Token} {ts more rest : List Token} {e : Expr} {target : String} :
      Chain ts e (t :: more) → t.kind = .inWord → Target more target rest →
      Whole ts (.conversion e target) rest

/-- Arguments with commas between them at the front. -/
inductive Args : List Token → List Expr → List Token → Prop
  | last {ts rest : List Token} {e : Expr} :
      Whole ts e rest → startsWith .comma rest = false → Args ts [e] rest
  | cons {t : Token} {ts more rest : List Token} {e : Expr} {es : List Expr} :
      Whole ts e (t :: more) → t.kind = .comma → Args more es rest → Args ts (e :: es) rest

end

theorem Links.append {ts more rest : List Token} {before after : List (BinaryOp × Expr)}
    (h : Links ts before more) (h' : Links more after rest) : Links ts (before ++ after) rest := by
  induction before generalizing ts with
  | nil =>
    cases h
    exact h'
  | cons link before ih =>
    cases h with
    | cons op operand links => exact .cons op operand (ih links)

/-- The statement that a line makes by its tokens. Tokens behind its expression are left over. -/
inductive Says : List Token → Statement → List Token → Prop
  | empty : Says [] .empty []
  | comment {text : String} : Says [] (.comment text) []
  | assign {t u : Token} {ts rest : List Token} {e : Expr} :
      t.kind = .word → u.kind = .equals → Whole ts e rest →
      Says (t :: u :: ts) (.assign t.text e) rest
  | resume {t : Token} {ts rest : List Token} {op : BinaryOp} {e : Expr} :
      binaryOp? t.kind = some op → Whole ts e rest → Says (t :: ts) (.expr (.resume op e)) rest
  | resumeConversion {t : Token} {ts rest : List Token} {target : String} :
      t.kind = .inWord → Target ts target rest →
      Says (t :: ts) (.expr (.resumeConversion target)) rest
  | expr {t : Token} {ts rest : List Token} {e : Expr} :
      binaryOp? t.kind = none → t.kind ≠ .inWord →
      (t.kind == .word && startsWith .equals ts) = false → Whole (t :: ts) e rest →
      Says (t :: ts) (.expr e) rest

end Grammar

end LineCalc
