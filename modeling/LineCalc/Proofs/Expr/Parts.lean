import LineCalc.Expr
import Mathlib.Data.List.Basic
import Mathlib.Data.List.Induction

/-!
# Parts of expressions

An expression is made of its children, which stand side by side in the text. Its parts are all the
expressions in it, itself included, from left to right; an expression comes after the parts that it
is made of.

Results:
1. `Expr.childrenInduction`: what an expression has if its children have it, every expression has.
2. `Expr.mentions_eq`: the names of an expression are those among its parts.
3. `Expr.pairwise_firstOccurrences`: names without repetitions are in the order in which they first
   occur.
-/

namespace LineCalc.Expr

/-- The expressions that an expression is directly made of, from left to right. -/
def children : Expr → List Expr
  | literal .. | name _ | resumeConversion _ => []
  | binary left _ right => [left, right]
  | signed _ e | percentOf _ _ e | conversion e _ | group e | resume _ e => [e]
  | call _ args => args

mutual

/-- All expressions in an expression, from left to right, each behind those that it is made of. -/
def parts : Expr → List Expr
  | literal x d raw => [literal x d raw]
  | name n => [name n]
  | binary left op right => left.parts ++ right.parts ++ [binary left op right]
  | signed sign e => e.parts ++ [signed sign e]
  | percentOf x raw e => e.parts ++ [percentOf x raw e]
  | conversion e target => e.parts ++ [conversion e target]
  | call function args => partsAll args ++ [call function args]
  | group e => e.parts ++ [group e]
  | resume op e => e.parts ++ [resume op e]
  | resumeConversion target => [resumeConversion target]

/-- All expressions in a list of expressions, from left to right. -/
def partsAll : List Expr → List Expr
  | [] => []
  | e :: es => e.parts ++ partsAll es

end

/-- The name that an expression is. -/
def name? : Expr → Option String
  | name n => some n
  | _ => none

variable {c e : Expr}

/-! ## Children -/

theorem sizeOf_lt_of_mem_children (mem : c ∈ e.children) : sizeOf c < sizeOf e := by
  cases e with
  | literal | name | resumeConversion => cases mem
  | call function args =>
    have smaller := List.sizeOf_lt_of_mem (show c ∈ args from mem)
    simp only [call.sizeOf_spec]
    omega
  | binary left op right =>
    rcases List.mem_cons.mp mem with rfl | mem
    · simp only [binary.sizeOf_spec]
      omega
    · rw [List.mem_singleton.mp mem]
      simp only [binary.sizeOf_spec]
      omega
  | signed | percentOf | conversion | group | resume =>
    rw [List.mem_singleton.mp mem]
    simp +arith

/-- What an expression has if its children have it, every expression has. -/
theorem childrenInduction {P : Expr → Prop} (step : ∀ e, (∀ c ∈ e.children, P c) → P e)
    (e : Expr) : P e :=
  step e fun c _ => childrenInduction step c
termination_by sizeOf e
decreasing_by
  exact sizeOf_lt_of_mem_children ‹_›

/-! ## Parts -/

theorem partsAll_eq (es : List Expr) : partsAll es = es.flatMap parts := by
  induction es with
  | nil => rfl
  | cons e es ih => rw [partsAll, ih, List.flatMap_cons]

theorem parts_eq (e : Expr) : e.parts = e.children.flatMap parts ++ [e] := by
  cases e with
  | call function args => rw [parts, partsAll_eq, children]
  | _ => simp [parts, children]

theorem mem_parts_self (e : Expr) : e ∈ e.parts := by
  rw [parts_eq]
  exact List.mem_append_right _ (List.mem_singleton_self e)

theorem parts_subset_of_mem_children (mem : c ∈ e.children) : c.parts ⊆ e.parts := by
  intro p part
  rw [parts_eq]
  exact List.mem_append_left _ (List.mem_flatMap.mpr ⟨c, mem, part⟩)

/-! ## Names -/

theorem mentionsAll_eq (es : List Expr) : mentionsAll es = es.flatMap mentions := by
  induction es with
  | nil => rfl
  | cons e es ih => rw [mentionsAll, ih, List.flatMap_cons]

theorem mentions_of_children (e : Expr) :
    e.mentions = e.children.flatMap mentions ++ e.name?.toList := by
  cases e with
  | call function args => simp [mentions, mentionsAll_eq, children, name?]
  | _ => simp [mentions, children, name?]

/-- The names of an expression are those among its parts. -/
theorem mentions_eq (e : Expr) : e.mentions = e.parts.filterMap name? := by
  induction e using childrenInduction with
  | step e ih =>
    rw [mentions_of_children, parts_eq, List.filterMap_append, List.filterMap_flatMap,
      List.flatMap_congr ih]
    rfl

variable {names : List String} {n : String}

theorem firstOccurrences_concat (names : List String) (n : String) :
    firstOccurrences (names ++ [n]) =
      if n ∈ firstOccurrences names then firstOccurrences names
      else firstOccurrences names ++ [n] := by
  rw [firstOccurrences, List.foldl_append]
  rfl

@[simp] theorem mem_firstOccurrences : n ∈ firstOccurrences names ↔ n ∈ names := by
  induction names using List.reverseRecOn with
  | nil => rfl
  | append_singleton names m ih =>
    rw [firstOccurrences_concat]
    split
    · next known =>
      rw [ih, List.mem_append, List.mem_singleton]
      exact ⟨.inl, fun mem => mem.elim id fun eq => eq ▸ ih.mp (eq ▸ known)⟩
    · simp [ih]

/-- The names are in the order in which they first occur. -/
theorem pairwise_firstOccurrences (names : List String) :
    (firstOccurrences names).Pairwise fun m n => names.idxOf m < names.idxOf n := by
  induction names using List.reverseRecOn with
  | nil => exact .nil
  | append_singleton names n ih =>
    have earlier : (firstOccurrences names).Pairwise fun m k =>
        (names ++ [n]).idxOf m < (names ++ [n]).idxOf k := by
      refine ih.imp_of_mem fun first second before => ?_
      rwa [List.idxOf_append_of_mem (mem_firstOccurrences.mp first),
        List.idxOf_append_of_mem (mem_firstOccurrences.mp second)]
    rw [firstOccurrences_concat]
    split
    · exact earlier
    · next new =>
      refine List.pairwise_append.mpr ⟨earlier, List.pairwise_singleton _ _, ?_⟩
      intro m known k last
      have place : names.idxOf m < names.length :=
        List.idxOf_lt_length_iff.mpr (mem_firstOccurrences.mp known)
      rw [List.mem_singleton.mp last, List.idxOf_append_of_mem (mem_firstOccurrences.mp known),
        List.idxOf_append_of_notMem fun mem => new (mem_firstOccurrences.mpr mem)]
      omega

theorem nodup_firstOccurrences (names : List String) : (firstOccurrences names).Nodup := by
  refine (pairwise_firstOccurrences names).imp ?_
  rintro m _ before rfl
  exact Nat.lt_irrefl _ before

end LineCalc.Expr
