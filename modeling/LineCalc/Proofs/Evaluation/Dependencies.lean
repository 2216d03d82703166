import LineCalc.Proofs.Expr.Computed
import LineCalc.Proofs.Expr.Parts
import LineCalc.Proofs.Expr.WrittenLine
import LineCalc.Session.Eval

/-!
# What the value of an expression depends on

Names are collected by one recursion on the tree and looked up by another. Both come to the same
parts, so the names that are listed are all that an expression reads of the variables and of the
history. What is left are the rates, strict mode and, where a part of the expression goes on from
the previous result, that result. In the tree of a line only the whole line does so.

Results:
1. `Expr.eval_of_children`: an expression, given the values of its children.
2. `Expr.eval_of_agreement`: scopes that agree in what an expression reads.
3. `value_fixed_by_identifiers`: this for sessions, and what the list of names is.
-/

namespace LineCalc

namespace Expr

/-- The expression or one in it goes on from the previous result. -/
def resumes (e : Expr) : Bool := e.parts.any isContinuation

variable {s t : Scope} {e : Expr}

/-! ## Continuations among the parts -/

theorem resumes_eq (e : Expr) : e.resumes = (e.children.any resumes || e.isContinuation) := by
  rw [resumes, parts_eq, List.any_append, List.any_flatMap]
  simp only [List.any_cons, List.any_nil, Bool.or_false]
  rfl

theorem resumes_of_fromText {whole : Bool} (h : e.FromText whole) : e.resumes = false := by
  induction h with
  | call _ _ ih =>
    rw [resumes_eq, Bool.or_eq_false_iff, List.any_eq_false]
    exact ⟨fun e mem => Bool.eq_false_iff.mp (ih e mem), rfl⟩
  | binary _ _ left right =>
    rw [resumes_eq]
    simp [children, isContinuation, left, right]
  | signed _ ih | percentOf _ _ ih | conversion _ _ ih | group _ ih =>
    rw [resumes_eq]
    simp [children, isContinuation, ih]
  | amount | percent | name => rfl

/-- In the tree of a line only the whole line goes on from the previous result. -/
theorem resumes_of_parse {text : String} {line : Line} (parsed : Line.parse text = .ok (line, []))
    (expression : line.statement.expr? = some e) : e.resumes = e.isContinuation := by
  have alone {e : Expr} (h : e.FromText true) : e.resumes = e.isContinuation :=
    (resumes_of_fromText h).trans (isContinuation_of_fromText h).symm
  cases line_of_parse parsed with
  | empty | comment => cases expression
  | statement made =>
    cases made with
    | expr h | assign _ h =>
      cases expression
      exact alone h
    | resume | resumeConversion =>
      cases expression
      rw [resumes_eq]
      exact Bool.or_true _

/-! ## Values of children -/

theorem evalArgs_of_values {es : List Expr} (values : ∀ e ∈ es, e.eval s = e.eval t) :
    evalArgs s es = evalArgs t es := by
  induction es with
  | nil => rfl
  | cons e es ih =>
    obtain ⟨first, others⟩ := List.forall_mem_cons.mp values
    rw [evalArgs, evalArgs, first, ih others]

/-- Beside the values of its children, an expression reads one name at most, the previous result
where it is a continuation, and the rates. -/
theorem eval_of_children (children : ∀ c ∈ e.children, c.eval s = c.eval t)
    (name : ∀ n, e.name? = some n → s.resolve n = t.resolve n)
    (previous : e.isContinuation = true → s.previous = t.previous) (rates : s.rates = t.rates) :
    e.eval s = e.eval t := by
  cases e with
  | literal => rw [Expr.eval, Expr.eval]
  | name n => rw [Expr.eval, Expr.eval, name n rfl]
  | binary left op right =>
    have first := children left (.head _)
    have second := children right (.tail _ (.head _))
    rw [Expr.eval, Expr.eval, first, second, rates]
  | signed sign e =>
    have operand := children e (List.mem_singleton_self e)
    cases sign with
    | plus => rw [Expr.eval, Expr.eval, operand]
    | minus => rw [Expr.eval, Expr.eval, operand]
  | percentOf fraction raw base =>
    rw [Expr.eval, Expr.eval, children base (List.mem_singleton_self base)]
  | conversion e target =>
    rw [Expr.eval, Expr.eval, children e (List.mem_singleton_self e), rates]
  | call function args =>
    have values : evalArgs s args = evalArgs t args := evalArgs_of_values children
    rw [Expr.eval, Expr.eval, values]
  | group e => rw [Expr.eval, Expr.eval, children e (List.mem_singleton_self e)]
  | resume op e =>
    have same : s.resume op = t.resume op := by
      funext operand
      rw [Scope.resume, Scope.resume, previous rfl, rates]
    rw [Expr.eval, Expr.eval, children e (List.mem_singleton_self e), same]
  | resumeConversion target => rw [Expr.eval, Expr.eval, previous rfl, rates]

/-! ## Agreement -/

/-- Two scopes agree in everything that an expression reads. -/
structure Agreement (e : Expr) (s t : Scope) : Prop where
  names : ∀ n, .name n ∈ e.parts → s.resolve n = t.resolve n
  previous : e.resumes = true → s.previous = t.previous
  rates : s.rates = t.rates

theorem Agreement.child {c : Expr} (h : e.Agreement s t) (mem : c ∈ e.children) :
    c.Agreement s t where
  names n part := h.names n (parts_subset_of_mem_children mem part)
  previous resumes := h.previous <| by
    rw [resumes_eq, List.any_eq_true.mpr ⟨c, mem, resumes⟩, Bool.true_or]
  rates := h.rates

/-- An expression comes to the same, be it a fault, wherever all that it reads is the same. -/
theorem eval_of_agreement (h : e.Agreement s t) : e.eval s = e.eval t := by
  induction e using childrenInduction with
  | step e ih =>
    refine eval_of_children (fun c mem => ih c mem (h.child mem)) ?_ ?_ h.rates
    · intro n isName
      cases e <;> cases isName
      exact h.names n (mem_parts_self _)
    · intro continues
      exact h.previous (by rw [resumes_eq, continues, Bool.or_true])

theorem name_mem_parts {n : String} : .name n ∈ e.parts ↔ n ∈ e.identifiers := by
  rw [identifiers, mem_firstOccurrences, mentions_eq, List.mem_filterMap]
  constructor
  · intro part
    exact ⟨_, part, rfl⟩
  · rintro ⟨p, part, isName⟩
    cases p <;> cases isName
    exact part

end Expr

/-- Sessions at the same rates, both strict or neither, give an expression the same value, a problem
or fault included, if the names that are listed for it have the same values in both, and also the
previous result is the same if a part of the expression goes on from it; in the tree of a line only
the line itself can do so. The list has each name in the expression once, in the order in which they
first occur in it. -/
theorem value_fixed_by_identifiers (e : Expr) :
    (∀ (s t : Session) (rates : RateTable), s.strict = t.strict →
        (∀ n ∈ e.identifiers, s.find? n = t.find? n) →
        (e.resumes = true → s.previous = t.previous) →
        e.eval (s.scope rates) = e.eval (t.scope rates)) ∧
      (∀ text line, Line.parse text = .ok (line, []) → line.statement.expr? = some e →
        e.resumes = e.isContinuation) ∧
      e.identifiers.Nodup ∧
      (∀ n, n ∈ e.identifiers ↔ .name n ∈ e.parts) ∧
      let names := e.parts.filterMap Expr.name?
      e.identifiers.Pairwise fun m n => names.idxOf m < names.idxOf n := by
  refine ⟨?_, fun text line => Expr.resumes_of_parse, Expr.nodup_firstOccurrences _,
    fun n => Expr.name_mem_parts.symm, ?_⟩
  · intro s t rates strict names previous
    refine Expr.eval_of_agreement ⟨fun n part => ?_, previous, rfl⟩
    have found : (s.scope rates).find n = (t.scope rates).find n :=
      names n (Expr.name_mem_parts.mp part)
    have mode : (s.scope rates).strict = (t.scope rates).strict := strict
    rw [Scope.resolve, Scope.resolve, found, mode]
  · rw [← Expr.mentions_eq]
    exact Expr.pairwise_firstOccurrences _

/-! ## A product of two names -/

/-- The product of two names, added to the previous result. -/
def exAddedProduct : Expr := .resume .add (.binary (.name "x") .mul (.name "y"))

/-- A session in which the names have values. -/
def exFactors : Session where
  bindings := [("x", .number 3), ("y", .number 4)]
  previous := .number 2

/-- A session in which they have the same values, with another name and a line. -/
def exMoreFactors : Session where
  bindings := [("z", .number 7), ("y", .number 4), ("x", .number 3)]
  previous := .number 2
  history := [{ raw := "2", value := .number 2 }]

/-- The line has the same value in both sessions, though they differ. -/
theorem value_fixed_by_identifiers_exAddedProduct :
    (Line.parse "+ x * y" = .ok (⟨.expr exAddedProduct, none, "+ x * y"⟩, []) ∧
      (∀ n ∈ exAddedProduct.identifiers, exFactors.find? n = exMoreFactors.find? n) ∧
      exFactors.find? "z" ≠ exMoreFactors.find? "z") ∧
    exAddedProduct.eval (exFactors.scope []) = exAddedProduct.eval (exMoreFactors.scope []) ∧
    exAddedProduct.resumes = true := by
  obtain ⟨same, lines, -⟩ := value_fixed_by_identifiers exAddedProduct
  have parsed : Line.parse "+ x * y" = .ok (⟨.expr exAddedProduct, none, "+ x * y"⟩, []) :=
    Parser.parse_of_walkLine (by decide +kernel)
  have names : ∀ n ∈ exAddedProduct.identifiers, exFactors.find? n = exMoreFactors.find? n := by
    decide +kernel
  exact ⟨⟨parsed, names, by decide +kernel⟩, same exFactors exMoreFactors [] rfl names fun _ => rfl,
    lines "+ x * y" _ parsed rfl⟩

end LineCalc
