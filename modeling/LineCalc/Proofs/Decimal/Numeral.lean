import LineCalc.Decimal.Numeral
import Mathlib.Data.List.TakeWhile

/-!
# Which numbers can be read

What is written like a number, with the digits of any script, can be read if and only if each of its
digits is a decimal one. Digits such as superscripts have a value but no place in a number.
-/

namespace LineCalc.Decimal

open LineCalc.Text

/-! ## The form of a number -/

/-- Nothing, or a point and digits. -/
def IsPoint (digit : Char → Bool) (cs : List Char) : Prop :=
  cs = [] ∨ ∃ ds, cs = '.' :: ds ∧ ds ≠ [] ∧ ∀ c ∈ ds, digit c = true

/-- Nothing, or a whole power of ten. -/
def IsPower (digit : Char → Bool) (cs : List Char) : Prop :=
  cs = [] ∨ ∃ e sign ds, cs = e :: (sign ++ ds) ∧ (e = 'e' ∨ e = 'E') ∧
    (sign = [] ∨ sign = ['+'] ∨ sign = ['-']) ∧ ds ≠ [] ∧ ∀ c ∈ ds, digit c = true

/-- A number: perhaps a minus sign, then digits with at most one point in front of or among them,
and perhaps a power of ten. -/
inductive IsNumber (digit : Char → Bool) : List Char → Prop
  | intro {sign whole point power : List Char} :
      sign = [] ∨ sign = ['-'] → (∀ c ∈ whole, digit c = true) → IsPoint digit point →
      whole ++ point ≠ [] → IsPower digit power →
      IsNumber digit (sign ++ (whole ++ (point ++ power)))

/-- The characters of a number that are no digits. -/
def marks : List Char := ['-', '+', '.', 'e', 'E']

variable {digit digit' : Char → Bool} {cs ds : List Char} {c : Char}

theorem IsPoint.mem (h : IsPoint digit cs) (mem : c ∈ cs) : digit c = true ∨ c ∈ marks := by
  rcases h with rfl | ⟨ds, rfl, _, digits⟩
  · cases mem
  · rcases List.mem_cons.mp mem with rfl | mem
    · exact .inr (by decide)
    · exact .inl (digits c mem)

theorem IsPower.mem (h : IsPower digit cs) (mem : c ∈ cs) : digit c = true ∨ c ∈ marks := by
  rcases h with rfl | ⟨e, sign, ds, rfl, he, hsign, _, digits⟩
  · cases mem
  · rcases List.mem_cons.mp mem with rfl | mem
    · exact .inr (by rcases he with rfl | rfl <;> decide)
    · rcases List.mem_append.mp mem with mem | mem
      · rcases hsign with rfl | rfl | rfl <;> simp_all [marks]
      · exact .inl (digits c mem)

theorem IsNumber.mem (h : IsNumber digit cs) (mem : c ∈ cs) : digit c = true ∨ c ∈ marks := by
  obtain ⟨hsign, digits, hpoint, _, hpower⟩ := h
  rcases List.mem_append.mp mem with mem | mem
  · rcases hsign with rfl | rfl <;> simp_all [marks]
  · rcases List.mem_append.mp mem with mem | mem
    · exact .inl (digits c mem)
    · rcases List.mem_append.mp mem with mem | mem
      · exact hpoint.mem mem
      · exact hpower.mem mem

/-! ## Characters in ASCII -/

theorem plainChar_of_lt (h : c.toNat < 128) : plainChar c = c := by
  rw [plainChar, if_pos h]

theorem plainChar_of_mem_marks (h : c ∈ marks) : plainChar c = c := by
  simp only [marks, List.mem_cons, List.not_mem_nil, or_false] at h
  rcases h with rfl | rfl | rfl | rfl | rfl <;> rfl

theorem decimalValue?_isSome_of_lt (ascii : c.toNat < 128) :
    (decimalValue? c).isSome = c.isDigit := by
  rw [decimalValue?, if_pos ascii]
  split <;> simp_all

/-- No blank of any script lies among the digits of a script. -/
theorem blanks_apart_decimalZeros : ∀ p ∈ blanks, ∀ first ∈ Table.decimalZeros,
    p.2 < first ∨ first + 10 ≤ p.1 := by
  decide

theorem blanks_apart_loneDigits : ∀ p ∈ blanks, ∀ q ∈ Table.loneDigits,
    p.2 < q.1 ∨ q.2 < p.1 := by
  decide

/-- Beyond ASCII a decimal digit lies in one of the runs of ten. -/
theorem decimalValue?_eq_some {d : Nat} (beyond : 128 ≤ c.toNat) (h : decimalValue? c = some d) :
    ∃ first ∈ Table.decimalZeros, c.toNat = first + d ∧ d < 10 := by
  rw [decimalValue?, if_neg (by omega), Option.map_eq_some_iff] at h
  obtain ⟨first, found, rfl⟩ := h
  have inRun := List.find?_some found
  simp only [Bool.and_eq_true, decide_eq_true_eq] at inRun
  exact ⟨first, List.mem_of_find?_eq_some found, by omega, by omega⟩

theorem isBlank_of_isDigit (beyond : 128 ≤ c.toNat) (h : isDigit c = true) :
    isBlank c = false := by
  rw [Bool.eq_false_iff]
  intro blank
  obtain ⟨p, hp, _, _⟩ := Ranges.has_iff.mp blank
  rw [isDigit, if_neg (by omega), Bool.or_eq_true] at h
  rcases h with h | h
  · obtain ⟨d, hd⟩ := Option.isSome_iff_exists.mp h
    obtain ⟨first, hfirst, _, _⟩ := decimalValue?_eq_some beyond hd
    have := blanks_apart_decimalZeros p hp first hfirst
    omega
  · obtain ⟨q, hq, _, _⟩ := Ranges.has_iff.mp h
    have := blanks_apart_loneDigits p hp q hq
    omega

theorem plainChar_of_isDigit (beyond : 128 ≤ c.toNat) (h : isDigit c = true) :
    plainChar c = match decimalValue? c with
      | some d => Char.ofNat ('0'.toNat + d)
      | none => '?' := by
  rw [plainChar, if_neg (by omega), isBlank_of_isDigit beyond h]
  rfl

theorem isDigit_ofNat : ∀ d < 10, (Char.ofNat ('0'.toNat + d)).isDigit = true := by
  decide

/-- A decimal digit becomes a digit in ASCII. -/
theorem isDigit_plainChar (h : isDigit c = true) (decimal : (decimalValue? c).isSome = true) :
    (plainChar c).isDigit = true := by
  by_cases ascii : c.toNat < 128
  · rw [plainChar_of_lt ascii, ← decimalValue?_isSome_of_lt ascii, decimal]
  · have beyond : 128 ≤ c.toNat := by omega
    obtain ⟨d, hd⟩ := Option.isSome_iff_exists.mp decimal
    obtain ⟨_, _, _, small⟩ := decimalValue?_eq_some beyond hd
    rw [plainChar_of_isDigit beyond h, hd]
    exact isDigit_ofNat d small

/-- Any other digit has no place in a number. -/
theorem plainChar_of_lone (h : isDigit c = true) (lone : decimalValue? c = none) :
    plainChar c = '?' := by
  by_cases ascii : c.toNat < 128
  · rw [isDigit, if_pos ascii, ← decimalValue?_isSome_of_lt ascii, lone] at h
    cases h
  · rw [plainChar_of_isDigit (by omega) h, lone]

theorem IsNumber.map {f : Char → Char} (h : IsNumber digit cs) (marked : ∀ c ∈ marks, f c = c)
    (digits : ∀ c ∈ cs, digit c = true → digit' (f c) = true) : IsNumber digit' (cs.map f) := by
  obtain @⟨sign, whole, point, power, hsign, hwhole, hpoint, some, hpower⟩ := h
  simp only [List.mem_append] at digits
  rw [List.map_append, List.map_append, List.map_append]
  refine .intro ?_ ?_ ?_ (by simpa using some) ?_
  · rcases hsign with rfl | rfl
    · exact .inl rfl
    · exact .inr (by rw [List.map_singleton, marked '-' (by decide)])
  · rw [List.forall_mem_map]
    exact fun c hc => digits c (.inr (.inl hc)) (hwhole c hc)
  · rcases hpoint with rfl | ⟨ds, rfl, nonempty, hds⟩
    · exact .inl rfl
    · refine .inr ⟨ds.map f, ?_, by simpa using nonempty, ?_⟩
      · rw [List.map_cons, marked '.' (by decide)]
      · rw [List.forall_mem_map]
        exact fun c hc => digits c (by simp [hc]) (hds c hc)
  · rcases hpower with rfl | ⟨e, sign, ds, rfl, he, hsign, nonempty, hds⟩
    · exact .inl rfl
    · refine .inr ⟨e, sign, ds.map f, ?_, he, hsign, by simpa using nonempty, ?_⟩
      · have letter : f e = e := marked e (by rcases he with rfl | rfl <;> decide)
        have unchanged : sign.map f = sign := by
          rcases hsign with rfl | rfl | rfl
          · rfl
          · rw [List.map_singleton, marked '+' (by decide)]
          · rw [List.map_singleton, marked '-' (by decide)]
        rw [List.map_cons, List.map_append, letter, unchanged]
      · rw [List.forall_mem_map]
        exact fun c hc => digits c (by simp [hc]) (hds c hc)

/-! ## Reading -/

theorem dropWhile_eq_self {p : Char → Bool} (h : ∀ c ∈ cs, p c = false) : cs.dropWhile p = cs := by
  cases cs with
  | nil => rfl
  | cons c cs => rw [List.dropWhile_cons_of_neg (by simp [h c List.mem_cons_self])]

theorem trimOf_eq_self {p : Char → Bool} (h : ∀ c ∈ cs, p c = false) : trimOf p cs = cs := by
  rw [trimOf, dropWhile_eq_self h, dropWhile_eq_self (by simpa using h), List.reverse_reverse]

theorem dropUnderscores?_eq_self {afterDigit : Bool} (h : '_' ∉ cs) :
    dropUnderscores? afterDigit cs = some cs := by
  induction cs generalizing afterDigit with
  | nil => rfl
  | cons c cs ih =>
    rw [List.mem_cons, not_or] at h
    rw [dropUnderscores?, ih h.2]
    · rfl
    · rintro _ _ rfl
      exact absurd rfl h.1
    · rintro rfl
      exact absurd rfl h.1

/-- What follows the digits does not begin with a digit. -/
def EndsDigits (cs : List Char) : Prop := ∀ c rest, cs = c :: rest → c.isDigit = false

theorem spanDigits_append (digits : ∀ c ∈ ds, c.isDigit = true) (ends : EndsDigits cs) :
    spanDigits (ds ++ cs) = (ds.map (fun c => c.toNat - '0'.toNat), cs) := by
  rw [spanDigits, List.takeWhile_append_of_pos digits, List.dropWhile_append_of_pos digits]
  cases cs with
  | nil => simp
  | cons c rest =>
    have notDigit : ¬ c.isDigit = true := by simp [ends c rest rfl]
    rw [List.takeWhile_cons_of_neg notDigit, List.dropWhile_cons_of_neg notDigit, List.append_nil]

theorem IsPower.endsDigits (h : IsPower Char.isDigit cs) : EndsDigits cs := by
  rintro c rest rfl
  rcases h with h | ⟨e, sign, ds, h, rfl | rfl, _⟩ <;> cases h <;> rfl

theorem splitSign_eq_self (h : ∀ c rest, cs = c :: rest → c ≠ '-' ∧ c ≠ '+') :
    splitSign cs = (false, cs) := by
  unfold splitSign
  split
  · exact absurd rfl (h _ _ rfl).1
  · exact absurd rfl (h _ _ rfl).2
  · rfl

theorem ne_sign_of_isDigit (h : c.isDigit = true) : c ≠ '-' ∧ c ≠ '+' := by
  constructor <;> rintro rfl <;> cases h

theorem IsPower.readExponent? (h : IsPower Char.isDigit cs) :
    (Decimal.readExponent? cs).isSome = true := by
  rcases h with rfl | ⟨e, sign, ds, rfl, he, hsign, nonempty, digits⟩
  · rfl
  · have split : (splitSign (sign ++ ds)).2 = ds := by
      rcases hsign with rfl | rfl | rfl
      · rw [List.nil_append, splitSign_eq_self]
        rintro c rest rfl
        exact ne_sign_of_isDigit (digits c List.mem_cons_self)
      · rfl
      · rfl
    have ends : EndsDigits [] := nofun
    have span : spanDigits ds = (ds.map (fun c => c.toNat - '0'.toNat), []) := by
      simpa using spanDigits_append digits ends
    rw [Decimal.readExponent?, if_pos (by rcases he with rfl | rfl <;> rfl)]
    simp only [split, span]
    cases ds with
    | nil => exact absurd rfl nonempty
    | cons d ds => rfl

theorem IsPower.ne_point (h : IsPower Char.isDigit cs) {after : List Char} :
    cs ≠ '.' :: after := by
  rintro rfl
  rcases h with h | ⟨e, sign, ds, h, rfl | rfl, _⟩ <;> cases h

theorem readMagnitude?_isSome {whole point power : List Char}
    (hwhole : ∀ c ∈ whole, c.isDigit = true) (hpoint : IsPoint Char.isDigit point)
    (nonempty : whole ++ point ≠ []) (hpower : IsPower Char.isDigit power) :
    (readMagnitude? (whole ++ (point ++ power))).isSome = true := by
  have read := hpower.readExponent?
  rcases hpoint with rfl | ⟨ds, rfl, some, digits⟩
  · have some : whole ≠ [] := by simpa using nonempty
    rw [List.nil_append, readMagnitude?, spanDigits_append hwhole hpower.endsDigits]
    cases power with
    | nil => simp [some, read]
    | cons c rest =>
      have notPoint : c ≠ '.' := fun h => hpower.ne_point (congrArg (· :: rest) h)
      simp [some, read, notPoint]
  · have ends : EndsDigits ('.' :: (ds ++ power)) := by
      rintro c rest h
      cases h
      rfl
    rw [List.cons_append, readMagnitude?, spanDigits_append hwhole ends]
    simp only [spanDigits_append digits hpower.endsDigits]
    simp [some, read]

theorem splitSign_magnitude {whole point power : List Char}
    (hwhole : ∀ c ∈ whole, c.isDigit = true) (hpoint : IsPoint Char.isDigit point)
    (nonempty : whole ++ point ≠ []) :
    splitSign (whole ++ (point ++ power)) = (false, whole ++ (point ++ power)) := by
  refine splitSign_eq_self fun c rest h => ?_
  cases whole with
  | cons d whole =>
    cases h
    exact ne_sign_of_isDigit (hwhole c List.mem_cons_self)
  | nil =>
    rcases hpoint with rfl | ⟨ds, rfl, _⟩
    · exact absurd rfl nonempty
    · cases h
      decide

theorem isAsciiBlank_of_isDigit (h : c.isDigit = true) : isAsciiBlank c = false := by
  rw [Bool.eq_false_iff]
  intro blank
  have least : 48 ≤ c.toNat := by
    simp only [Char.isDigit, Bool.and_eq_true, decide_eq_true_eq] at h
    exact h.1
  simp only [isAsciiBlank, Bool.or_eq_true, beq_iff_eq, Bool.and_eq_true, decide_eq_true_eq]
    at blank
  rcases blank with rfl | blank
  · cases h
  · omega

theorem isAsciiBlank_of_mem_marks (h : c ∈ marks) : isAsciiBlank c = false := by
  simp only [marks, List.mem_cons, List.not_mem_nil, or_false] at h
  rcases h with rfl | rfl | rfl | rfl | rfl <;> rfl

/-- What is written like a number is read if its digits are decimal ones. -/
theorem floatOf?_isSome (h : IsNumber isDigit cs)
    (decimal : ∀ c ∈ cs, isDigit c = true → (decimalValue? c).isSome = true) :
    (floatOf? cs).isSome = true := by
  have plain : IsNumber Char.isDigit (cs.map plainChar) :=
    h.map (fun _ => plainChar_of_mem_marks) fun c hc digit =>
      isDigit_plainChar digit (decimal c hc digit)
  have trimmed : plainNumeral cs = cs.map plainChar := by
    refine trimOf_eq_self fun c hc => ?_
    rcases plain.mem hc with digit | mark
    · exact isAsciiBlank_of_isDigit digit
    · exact isAsciiBlank_of_mem_marks mark
  have noUnderscore : '_' ∉ cs.map plainChar := by
    intro mem
    rcases plain.mem mem with digit | mark
    · cases digit
    · revert mark
      decide
  rw [floatOf?, trimmed, dropUnderscores?_eq_self noUnderscore]
  -- What is left to read is a number in ASCII, whatever script it was written in.
  generalize cs.map plainChar = cs at plain
  obtain ⟨hsign, hwhole, hpoint, nonempty, hpower⟩ := plain
  obtain ⟨x, hx⟩ := Option.isSome_iff_exists.mp
    (readMagnitude?_isSome hwhole hpoint nonempty hpower)
  rcases hsign with rfl | rfl
  · simp [splitSign_magnitude hwhole hpoint nonempty, hx]
  · simp [splitSign, hx]

/-! ## What is not read -/

theorem mem_dropWhile {p : Char → Bool} (h : c ∈ cs) (keep : p c = false) : c ∈ cs.dropWhile p := by
  rw [← cs.takeWhile_append_dropWhile (p := p), List.mem_append] at h
  rcases h with h | h
  · rw [List.mem_takeWhile_imp h] at keep
    cases keep
  · exact h

theorem mem_trimOf {p : Char → Bool} (h : c ∈ cs) (keep : p c = false) : c ∈ trimOf p cs := by
  rw [trimOf, List.mem_reverse]
  exact mem_dropWhile (List.mem_reverse.mpr (mem_dropWhile h keep)) keep

theorem mem_of_dropUnderscores? {afterDigit : Bool} (h : dropUnderscores? afterDigit cs = some ds)
    (mem : c ∈ cs) (keep : c ≠ '_') : c ∈ ds := by
  fun_induction dropUnderscores? afterDigit cs generalizing ds with
  | case1 => cases mem
  | case2 afterDigit d cs between ih | case5 afterDigit d cs _ _ ih =>
    obtain ⟨es, hes, rfl⟩ := Option.map_eq_some_iff.mp h
    simp only [List.mem_cons, keep, false_or] at mem
    rcases mem with rfl | mem
    · exact List.mem_cons_self
    · exact List.mem_cons_of_mem _ (ih hes mem)
  | case3 => cases h
  | case4 => cases h

theorem mem_of_spanDigits {ns : List Nat} {rest : List Char} (h : spanDigits cs = (ns, rest))
    (mem : c ∈ cs) : c.isDigit = true ∨ c ∈ rest := by
  cases h
  rw [← cs.takeWhile_append_dropWhile (p := Char.isDigit), List.mem_append] at mem
  exact mem.imp_left List.mem_takeWhile_imp

theorem mem_of_splitSign (mem : c ∈ cs) : c ∈ (splitSign cs).2 ∨ c ∈ marks := by
  unfold splitSign
  split
  · exact (List.mem_cons.mp mem).symm.imp_right (by rintro rfl; decide)
  · exact (List.mem_cons.mp mem).symm.imp_right (by rintro rfl; decide)
  · exact .inl mem

theorem mem_of_readExponent? {n : Int} (h : readExponent? cs = some n) (mem : c ∈ cs) :
    c.isDigit = true ∨ c ∈ marks := by
  unfold readExponent? at h
  split at h
  · cases mem
  · next e cs =>
    split at h
    · next letter =>
      rcases List.mem_cons.mp mem with rfl | mem
      · refine .inr ?_
        simp only [Bool.or_eq_true, beq_iff_eq] at letter
        rcases letter with rfl | rfl <;> decide
      · rcases mem_of_splitSign mem with mem | mark
        · split at h
          next negative rest sign =>
          rw [sign] at mem
          split at h
          · cases h
          · next span =>
            rcases mem_of_spanDigits span mem with digit | mem
            · exact .inl digit
            · cases mem
          · cases h
        · exact .inr mark
    · cases h

theorem mem_of_readMagnitude? {x : Float} (h : readMagnitude? cs = some x) (mem : c ∈ cs) :
    c.isDigit = true ∨ c ∈ marks := by
  unfold readMagnitude? at h
  split at h
  next whole rest span =>
  split at h
  next fraction rest' span' =>
  split at h
  · cases h
  · obtain ⟨n, hn, _⟩ := Option.map_eq_some_iff.mp h
    rcases mem_of_spanDigits span mem with digit | mem
    · exact .inl digit
    · split at span'
      · rcases List.mem_cons.mp mem with rfl | mem
        · exact .inr (by decide)
        · rcases mem_of_spanDigits span' mem with digit | mem
          · exact .inl digit
          · exact mem_of_readExponent? hn mem
      · cases span'
        exact mem_of_readExponent? hn mem

/-- A question mark stands for what has no place in a number. -/
theorem question_notMem_of_readWord? {x : Float} (h : readWord? cs = some x) : '?' ∉ cs := by
  intro mem
  have mem : '?' ∈ (String.ofList (cs.map Char.toLower)).toList := by
    rw [String.toList_ofList]
    exact List.mem_map.mpr ⟨'?', mem, rfl⟩
  have words : ∀ w ∈ ["inf", "infinity", "nan"], '?' ∉ w.toList := by decide
  simp only [readWord?, Bool.or_eq_true, beq_iff_eq] at h
  split at h
  · next word =>
    rcases word with word | word <;> rw [word] at mem
    · exact words "inf" (by decide) mem
    · exact words "infinity" (by decide) mem
  · split at h
    · next word =>
      rw [word] at mem
      exact words "nan" (by decide) mem
    · cases h

/-- What is read has decimal digits only. -/
theorem decimalValue?_isSome_of_floatOf? {x : Float} (h : floatOf? cs = some x) (mem : c ∈ cs)
    (digit : isDigit c = true) : (decimalValue? c).isSome = true := by
  rw [Option.isSome_iff_ne_none]
  intro lone
  -- The question mark that stands for a lone digit outlasts every step up to the reading itself.
  have mark : '?' ∈ cs.map plainChar :=
    List.mem_map.mpr ⟨c, mem, plainChar_of_lone digit lone⟩
  have mark : '?' ∈ plainNumeral cs := mem_trimOf mark (by decide)
  simp only [floatOf?, Option.bind_eq_bind, Option.bind_eq_some_iff] at h
  obtain ⟨plain, hplain, y, hy, _⟩ := h
  have mark : '?' ∈ plain := mem_of_dropUnderscores? hplain mark (by decide)
  have notMark : '?' ∉ marks := by decide
  have mark : '?' ∈ (splitSign plain).2 := (mem_of_splitSign mark).resolve_right notMark
  cases magnitude : readMagnitude? (splitSign plain).2 with
  | some z => exact (mem_of_readMagnitude? magnitude mark).elim nofun notMark
  | none =>
    rw [magnitude] at hy
    exact question_notMem_of_readWord? hy mark

end LineCalc.Decimal
