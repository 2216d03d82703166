import LineCalc.Proofs.Catalog.Codes
import LineCalc.Proofs.Evaluation.TypeSoundness
import LineCalc.Proofs.Expr.WrittenLine
import LineCalc.Proofs.Session.Consumption
import LineCalc.Proofs.Session.Operations
import LineCalc.Proofs.Text.Case

/-!
# Codes with a meaning for rates

Money, metals and tokens are converted by their codes. Whatever a line comes to, there is something
with an exchange rate under its code, as all that a text can name is in the catalog, and a
conversion makes of a code only what the catalog has under it. A client can also bind a currency
that the catalog does not have to a variable. If it was made from a code, there is something with a
rate under it; otherwise there may be nothing.

Results:
1. `known_of_ofAnyCode?`: this for currencies that are made from a code.
2. `known_typeIn`: this for the types of expressions.
3. `Workspace.known_run`: this for the sessions of a workspace.
-/

namespace LineCalc

/-- Amounts of the kind are converted by exchange rates. -/
def ValueKind.isRated (k : ValueKind) : Bool := [.currency, .metal, .crypto].contains k

/-- If amounts of the type are converted by exchange rates, something has a rate under its code. -/
def ValueType.Known (t : ValueType) : Prop :=
  t.kind.isRated = true → ∃ d, Denomination.ofRateCode? t.code = some d ∧ d.code = t.code

/-- If the value is converted by exchange rates, something has a rate under its code. -/
def Value.Known (v : Value) : Prop :=
  v.isRated = true → ∃ d, Denomination.ofRateCode? v.code = some d ∧ d.code = v.code

/-! ## The catalog -/

theorem Value.isRated_eq (v : Value) : v.isRated = v.kind.isRated := by
  cases v with
  | empty | error => rfl
  | amount n d => cases d <;> rfl

theorem Value.known_iff {v : Value} : v.Known ↔ v.type.Known := by
  rw [Known, ValueType.Known, isRated_eq]
  rfl

theorem Value.known_of_invalid {v : Value} (invalid : v.isValid = false) : v.Known := by
  cases v with
  | empty | error => exact fun rated => Bool.noConfusion rated
  | amount => cases invalid

namespace Denomination

variable {d : Denomination}

/-- Something has an exchange rate under the code and has this code itself. -/
def hasRate (code : String) : Bool := (ofRateCode? code).any (·.code == code)

theorem known_of_hasRate (h : d.isRated = true → hasRate d.code = true) : d.type.Known := by
  intro rated
  obtain ⟨d', found, same⟩ :=
    (Option.any_eq_true _ _).mp (h ((Value.isRated_eq (.amount 0 d)).trans rated))
  exact ⟨d', found, beq_iff_eq.mp same⟩

set_option maxRecDepth 100000 in
theorem hasRate_codes : listed.all (fun d =>
    (!d.isRated || hasRate d.code) &&
      (ofRateCode? d.code).all (fun d' => hasRate d'.code)) = true := by
  -- Codes are compared as numbers, and a text is not put together to be taken apart again.
  simp only [hasRate, ofRateCode?, Crypto.ofCode?, Metal.ofCode?, Currency.ofAnyCode?,
    Currency.withCode?, Crypto.withCode?, Metal.withCode?, Name.asCode, Text.upper, Text.trim,
    String.toList_ofList, beq_eq_numberOf]
  decide +kernel

theorem known_of_mem_listed (mem : d ∈ listed) : d.type.Known := by
  have known := List.all_eq_true.mp hasRate_codes d mem
  rw [Bool.and_eq_true, Bool.or_eq_true, Bool.not_eq_true'] at known
  exact known_of_hasRate fun rated => known.1.resolve_left (by simp [rated])

/-- What has a rate under a code of the catalog, also one of a unit. -/
theorem known_of_ofRateCode? {d' : Denomination} (mem : d ∈ listed)
    (found : ofRateCode? d.code = some d') : d'.type.Known := by
  have known := List.all_eq_true.mp hasRate_codes d mem
  rw [found, Option.all_some, Bool.and_eq_true] at known
  exact known_of_hasRate fun _ => known.2

/-- A code of letters in the form in which codes are compared stays as it is. -/
theorem asCode_asCode {code : String}
    (letters : (Name.asCode code).toList.all Text.isLetter = true) :
    Name.asCode (Name.asCode code) = Name.asCode code := by
  have trimmed : Text.trim (Name.asCode code) = Name.asCode code := by
    rw [Text.trim, Decimal.trimOf_eq_self, String.ofList_toList]
    intro c mem
    have letter := List.all_eq_true.mp letters c mem
    exact isBlank_of_startsWord (by simp [Text.startsWord, letter])
  rw [Name.asCode, trimmed]
  exact Text.upper_upper _

theorem code_of_crypto {code : String} {k : Crypto} (found : Crypto.withCode? code = some k) :
    k.code = code := by
  unfold Crypto.withCode? at found
  simpa using List.find?_some found

theorem code_of_metal {code : String} {m : Metal} (found : Metal.withCode? code = some m) :
    m.code = code := by
  unfold Metal.withCode? at found
  simpa using List.find?_some found

/-- Something has a rate under the code of a currency that is known by its code alone, be it this
currency or a token or metal of the same code. -/
theorem known_unlisted {code : String}
    (letters : (Name.asCode code).toList.all Text.isLetter = true)
    (made : Currency.ofAnyCode? code = some (.unlisted (Name.asCode code))) :
    (currency (.unlisted (Name.asCode code))).type.Known := by
  have same := asCode_asCode letters
  have own : Currency.ofAnyCode? (Name.asCode code) = some (.unlisted (Name.asCode code)) := by
    rw [← made, Currency.ofAnyCode?, Currency.ofAnyCode?, same]
  intro _
  show ∃ d, ofRateCode? (Name.asCode code) = some d ∧ d.code = Name.asCode code
  rw [ofRateCode?, Crypto.ofCode?, Metal.ofCode?, same, own]
  cases token : Crypto.withCode? (Name.asCode code) with
  | some k => exact ⟨.crypto k, rfl, code_of_crypto token⟩
  | none =>
    cases metal : Metal.withCode? (Name.asCode code) with
    | some m => exact ⟨.metal m, rfl, code_of_metal metal⟩
    | none => exact ⟨.currency (.unlisted _), rfl, rfl⟩

/-- Something has a rate under the code of every currency that a code makes, listed or not. -/
theorem known_of_ofAnyCode? {code : String} {c : Currency}
    (made : Currency.ofAnyCode? code = some c) : (currency c).type.Known := by
  have found := made
  rw [Currency.ofAnyCode?] at found
  rcases of_orElse found with withCode | unlisted
  · refine known_of_mem_listed ?_
    simp only [listed, List.mem_append, List.mem_map]
    exact .inl (.inl (.inl ⟨c, List.mem_of_find?_eq_some withCode, rfl⟩))
  · split at unlisted
    · next letters =>
      cases unlisted
      exact known_unlisted (Bool.and_eq_true_iff.mp letters).2 made
    · cases unlisted

end Denomination

namespace ValueType

variable {t u : ValueType}

theorem known_of_not_rated (h : t.kind.isRated = false) : t.Known := by
  intro rated
  rw [h] at rated
  cases rated

theorem known_number : number.Known := known_of_not_rated rfl

theorem Known.asOperand (h : t.Known) : t.asOperand.Known := by
  rw [ValueType.asOperand]
  split
  · exact known_number
  · exact h

theorem Known.ofOperator (ht : t.Known) (hu : u.Known) (op : BinaryOp) :
    (ofOperator op t u).Known := by
  have sum {t u : ValueType} (ht : t.Known) (hu : u.Known) : (ofSum t u).Known := by
    rw [ofSum, higher]
    split
    · exact ht
    · split <;> assumption
  have product {t u : ValueType} (ht : t.Known) (hu : u.Known) : (ofProduct t u).Known := by
    rw [ofProduct]
    split
    · exact hu
    · split
      · exact ht
      · exact known_number
  cases op with
  | add | sub => exact sum ht.asOperand hu.asOperand
  | mul | div | mod => exact product ht.asOperand hu.asOperand
  | pow => exact known_number

theorem Known.convertNamed (h : t.Known) (target : String) : (t.convertNamed target).Known := by
  unfold ValueType.convertNamed
  split
  · exact h
  · next d named =>
    have listed := Denomination.mem_listed_of_ofName? named
    split
    · exact Denomination.known_of_mem_listed listed
    · cases found : Denomination.ofRateCode? d.code with
      | none => exact h
      | some d' => exact Denomination.known_of_ofRateCode? listed found

theorem Known.convertTo (h : t.Known) (target : String) : (t.convertTo target).Known := by
  rw [ValueType.convertTo]
  split
  · split
    · exact known_of_not_rated rfl
    · exact h.convertNamed target
  · exact h.asOperand.convertNamed target

theorem known_ofCall {f : Option Builtin} {ts : List ValueType} (h : ∀ t ∈ ts, t.Known) :
    (ofCall f ts).Known := by
  unfold ofCall
  split
  · exact known_number
  · exact h _ List.mem_cons_self
  · exact known_number

end ValueType

/-! ## Expressions -/

theorem mem_typesOfArgs {σ : Signature} {es : List Expr} {t : ValueType}
    (mem : t ∈ typesOfArgs σ es) : ∃ e ∈ es, t = (e.typeIn σ).asOperand := by
  induction es with
  | nil => cases mem
  | cons e es ih =>
    rw [typesOfArgs] at mem
    rcases List.mem_cons.mp mem with rfl | mem
    · exact ⟨e, List.mem_cons_self, rfl⟩
    · obtain ⟨e', mem', rfl⟩ := ih mem
      exact ⟨e', List.mem_cons_of_mem _ mem', rfl⟩

/-- The types that names and the previous result have are known. -/
structure Signature.Known (σ : Signature) : Prop where
  find : ∀ name t, σ.find name = some t → t.Known
  previous : σ.previous.Known

variable {σ : Signature} {e : Expr} {st : Statement}

theorem known_typeIn (known : σ.Known) {whole : Bool} (h : e.FromText whole) :
    (e.typeIn σ).Known := by
  induction h with
  | amount named =>
    rw [Expr.typeIn]
    rcases named with rfl | mem
    · exact ValueType.known_number
    · exact Denomination.known_of_mem_listed mem
  | percent => exact ValueType.known_of_not_rated rfl
  | @name _ word =>
    rw [Expr.typeIn]
    cases found : σ.find word with
    | none => exact ValueType.known_number
    | some t => exact known.find word t found
  | binary _ _ left right =>
    rw [Expr.typeIn]
    exact left.ofOperator right _
  | signed _ ih | group _ ih =>
    rw [Expr.typeIn]
    exact ih
  | percentOf _ _ ih =>
    rw [Expr.typeIn]
    exact ih.asOperand
  | conversion _ _ ih =>
    rw [Expr.typeIn]
    exact ih.convertTo _
  | call _ _ ih =>
    rw [Expr.typeIn]
    refine ValueType.known_ofCall fun t mem => ?_
    obtain ⟨e, arg, rfl⟩ := mem_typesOfArgs mem
    exact (ih e arg).asOperand

theorem known_typeIn_of_statement (known : σ.Known) (h : (Statement.expr e).FromText) :
    (e.typeIn σ).Known := by
  cases h with
  | expr h => exact known_typeIn known h
  | resume h =>
    rw [Expr.typeIn]
    split
    · exact known_typeIn known h
    · exact known.previous.ofOperator (known_typeIn known h) _
  | resumeConversion =>
    rw [Expr.typeIn]
    exact known.previous.convertTo _

/-! ## Sessions -/

namespace Session

variable {s t : Session} {rates : RateTable} {text : String} {v : Value}

/-- All values of the session are of known codes. -/
structure Known (s : Session) : Prop where
  bindings : ∀ b ∈ s.bindings, b.2.Known
  previous : s.previous.Known
  history : ∀ r ∈ s.history, r.value.Known

theorem known_new : ({} : Session).Known :=
  ⟨List.forall_mem_nil _, Value.known_of_invalid rfl, List.forall_mem_nil _⟩

theorem Known.find? (known : s.Known) {name : String} (found : s.find? name = some v) :
    v.Known := by
  unfold Session.find? at found
  simp only at found
  split at found
  · split at found
    · cases found
    · exact Option.some.inj found ▸ known.previous
  · split at found
    · exact Option.some.inj found ▸ Value.known_iff.mpr ValueType.known_number
    · rcases Denomination.of_orElse found with exact | folded
      · exact known.bindings (name, v) (Entries.mem_of_lookup exact)
      · obtain ⟨b, first, rfl⟩ := Option.map_eq_some_iff.mp folded
        exact known.bindings b (List.mem_of_find?_eq_some first)

theorem Known.signature (known : s.Known) (rates : RateTable) :
    (s.scope rates).signature.Known where
  find name t found := by
    obtain ⟨v, value, rfl⟩ := Option.map_eq_some_iff.mp found
    exact Value.known_iff.mp (known.find? value)
  previous := Value.known_iff.mp known.previous

theorem Known.record (known : s.Known) {r : LineRecord} (value : r.value.Known) :
    (s.record r).Known := by
  refine ⟨known.bindings, known.previous, fun r' mem => ?_⟩
  rcases List.mem_append.mp mem with mem | mem
  · exact known.history r' mem
  · exact List.mem_singleton.mp mem ▸ value

theorem Known.bind (known : s.Known) (name : String) (value : v.Known) :
    ({ s with bindings := s.bindings.set name v } : Session).Known := by
  refine ⟨fun b mem => ?_, known.previous, known.history⟩
  rcases Entries.mem_set mem with mem | rfl
  · exact known.bindings b mem
  · exact value

theorem Known.setPrevious (known : s.Known) (value : v.Known) :
    ({ s with previous := v } : Session).Known := ⟨known.bindings, value, known.history⟩

/-- Consuming a line leaves the values as they are. -/
theorem Known.consume (known : s.Known) : s.consume.Known := by
  refine ⟨known.bindings, known.previous, ?_⟩
  rw [Session.consume]
  cases latest : consumeLatest? s.history with
  | none => exact known.history
  | some history =>
    obtain ⟨before, r, after, split, -, -, rfl⟩ := eq_of_consumeLatest? latest
    have values := known.history
    rw [split] at values
    intro r' mem
    rcases List.mem_append.mp mem with mem | mem
    · exact values r' (List.mem_append_left _ mem)
    · rcases List.mem_cons.mp mem with rfl | mem
      · exact values r (by simp)
      · exact values r' (by simp [mem])

theorem Known.eval (known : s.Known) (done : s.eval rates text = .ok (v, t)) : t.Known := by
  have value {e : Expr} {v : Value} (types : (e.typeIn (s.scope rates).signature).Known)
      (value : e.eval (s.scope rates) = .ok v) (valid : v.isValid = true) : v.Known := by
    have amount : v.isError = false := by
      cases v with
      | amount => rfl
      | empty | error => cases valid
    rw [Value.known_iff, eval_type value amount]
    exact types
  have signature := known.signature rates
  cases outcome_of_eval done with
  | noted _ invalid => exact known.record (Value.known_of_invalid invalid)
  | @result e line v parsed statement found valid =>
    have known' : v.Known := by
      refine value ?_ found valid
      cases line_of_parse parsed with
      | empty | comment => cases statement
      | statement made => exact known_typeIn_of_statement signature (statement ▸ made)
    have continued : (if e.isContinuation then s.consume else s).Known := by
      split
      · exact known.consume
      · exact known
    exact (continued.record known').setPrevious known'
  | @assigned name e line v parsed statement _ found valid =>
    have known' : v.Known := by
      refine value ?_ found valid
      cases line_of_parse parsed with
      | empty | comment => cases statement
      | statement made =>
        obtain rfl := statement
        cases made with
        | assign _ made => exact known_typeIn signature made
    exact ((known.bind name known').record known').setPrevious known'

/-- The operation gives the session no value of an unknown code. -/
def Operation.Known : Operation → Prop
  | .setVariable _ v => v.Known
  | _ => True

theorem Known.perform (known : s.Known) (rates : RateTable) {op : Operation} (given : op.Known) :
    (s.perform rates op).2.Known := by
  cases op with
  | eval text =>
    rw [Session.perform]
    cases done : s.eval rates text with
    | error f => exact known
    | ok result => exact known.eval done
  | preview | setStrict | clone => exact ⟨known.bindings, known.previous, known.history⟩
  | setVariable name v =>
    rw [Session.perform, Session.setVariable?]
    split
    · exact known
    · exact known.bind name given
  | deleteVariable name =>
    rw [Session.perform, Session.deleteVariable?]
    split
    · refine ⟨fun b mem => ?_, known.previous, known.history⟩
      exact known.bindings b (List.mem_filter.mp mem).1
    · exact known
  | setPrecision precision =>
    rw [Session.perform, Session.setPrecision]
    cases Precision.ofJson precision with
    | error f => exact known
    | ok precision => exact ⟨known.bindings, known.previous, known.history⟩
  | clear => exact ⟨List.forall_mem_nil _, Value.known_of_invalid rfl, List.forall_mem_nil _⟩
  | clearVariables => exact ⟨List.forall_mem_nil _, known.previous, known.history⟩
  | clearLines =>
    exact ⟨known.bindings, Value.known_of_invalid rfl, List.forall_mem_nil _⟩

end Session

/-- The action gives no session a value of an unknown code. -/
def Workspace.Action.Known : Workspace.Action → Prop
  | .ask _ op => op.Known
  | .rates _ => True

/-- Where no value of an unknown code is given to a session, no session comes to have one. -/
theorem Workspace.known_run (rates : RateCache) {actions : List Workspace.Action}
    (given : ∀ a ∈ actions, a.Known) :
    ∀ s ∈ ((Workspace.ofRates rates).run actions).sessions, s.Known := by
  refine afterActions_preserves (P := fun w : Workspace => ∀ s ∈ w.sessions, s.Known)
    (fun w a asked known => sessions_take_invariant known ?_)
    (List.forall_mem_singleton.mpr Session.known_new)
  rintro i op s rfl known
  exact known.perform w.rates.table (given _ asked)

end LineCalc
