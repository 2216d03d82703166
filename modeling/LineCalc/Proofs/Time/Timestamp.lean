import LineCalc.Proofs.Decimal.Digits
import LineCalc.Proofs.Decimal.Scientific
import LineCalc.Proofs.Time.Calendar
import LineCalc.Time.Timestamp

/-!
# Times written and read

Every written time can be read: its parts have the places that the reader expects, and its date is one
of the calendar.

Results:
1. `Time.readDate?_written`, `Time.readTime?_written`: the parts of a written time.
2. `Time.read?_of_write`: a written time is one that can be read.
3. `Time.not_isNaN_of_read?`: what is read as a time is a number.
-/

namespace LineCalc.Time

open LineCalc.Decimal

/-! ## Padded numbers -/

/-- The characters of a number by at least `width` digits. -/
def paddedChars (width n : Nat) : List Char := (padded width n).toList

variable {width n : Nat} {rest : List Char}

theorem paddedChars_eq (width n : Nat) : paddedChars width n =
    List.replicate (width - (Nat.toDigits 10 n).length) '0' ++ Nat.toDigits 10 n :=
  String.toList_ofList

theorem isDigit_of_mem_paddedChars {c : Char} (mem : c ∈ paddedChars width n) :
    c.isDigit = true := by
  rw [paddedChars_eq] at mem
  rcases List.mem_append.mp mem with zero | digit
  · rw [List.eq_of_mem_replicate zero]
    rfl
  · exact isDigit_of_mem_toDigits digit

theorem length_paddedChars (pos : 0 < width) (short : n < 10 ^ width) :
    (paddedChars width n).length = width := by
  have digits := (Nat.length_toDigits_le_iff (by decide) pos).mpr short
  rw [paddedChars_eq, List.length_append, List.length_replicate, Nat.sub_add_cancel digits]

/-- A number is read from as many digits as it was padded to. -/
theorem takeDigits?_padded (pos : 0 < width) (short : n < 10 ^ width) (rest : List Char) :
    takeDigits? width (paddedChars width n ++ rest) = some (n, rest) := by
  have length := length_paddedChars pos short
  have digits : (paddedChars width n).all Char.isDigit = true :=
    List.all_eq_true.mpr fun c => isDigit_of_mem_paddedChars
  have value : digitsValue (paddedChars width n) = n := by
    rw [paddedChars_eq, digitsValue_zeros_append, digitsValue_toDigits]
  have front : (paddedChars width n ++ rest).take width = paddedChars width n :=
    List.take_left' length
  have behind : (paddedChars width n ++ rest).drop width = rest := List.drop_left' length
  rw [takeDigits?, front, behind]
  simp only [length, beq_self_eq_true, digits, Bool.and_self, if_true]
  exact congrArg (fun m => some (m, rest)) value

theorem paddedChars_cons (width n : Nat) :
    ∃ c cs, paddedChars width n = c :: cs ∧ c.isDigit = true := by
  have notEmpty : paddedChars width n ≠ [] := by
    rw [paddedChars_eq]
    exact List.append_ne_nil_of_right_ne_nil _ Nat.toDigits_ne_nil
  obtain ⟨c, cs, eq⟩ := List.exists_cons_of_ne_nil notEmpty
  exact ⟨c, cs, eq, isDigit_of_mem_paddedChars (eq ▸ List.mem_cons_self)⟩

/-! ## Dates -/

/-- The characters of a date. -/
def dateChars (d : Date) : List Char :=
  paddedChars 4 d.year.toNat ++ '-' :: (paddedChars 2 d.month ++ '-' :: paddedChars 2 d.day)

/-- A date of the calendar, of the years that can be written. -/
structure Date.Valid (d : Date) : Prop where
  firstYear : 1 ≤ d.year
  lastYear : d.year ≤ 9999
  month : 1 ≤ d.month ∧ d.month ≤ 12
  day : 1 ≤ d.day ∧ d.day ≤ daysInMonth d.year d.month

theorem Date.Valid.short {d : Date} (valid : d.Valid) :
    d.year.toNat < 10 ^ 4 ∧ d.month < 10 ^ 2 ∧ d.day < 10 ^ 2 := by
  obtain ⟨firstYear, lastYear, month, day⟩ := valid
  have most : daysInMonth d.year d.month ≤ 31 := by
    unfold daysInMonth
    split
    · split <;> decide
    all_goals decide
  omega

theorem length_dateChars {d : Date} (valid : d.Valid) : (dateChars d).length = 10 := by
  obtain ⟨year, month, day⟩ := valid.short
  simp only [dateChars, List.length_append, List.length_cons,
    length_paddedChars (by decide : 0 < 4) year, length_paddedChars (by decide : 0 < 2) month,
    length_paddedChars (by decide : 0 < 2) day]

/-- A written date is read as its day. -/
theorem readDate?_written {d : Date} {length : Nat} (valid : d.Valid) (rest : List Char) :
    readDate? (dateChars d ++ rest) length = some (dayNumber d.year d.month d.day) := by
  obtain ⟨year, month, day⟩ := valid.short
  obtain ⟨firstYear, -, monthValid, dayValid⟩ := valid
  have same : (d.year.toNat : Int) = d.year := Int.toNat_of_nonneg (by omega)
  have calendar : dayOfDate? d.year.toNat d.month d.day =
      some (dayNumber d.year d.month d.day) := by
    rw [dayOfDate?, same, if_pos ⟨by omega, monthValid.1, monthValid.2, dayValid⟩]
  obtain ⟨c, cs, eq, digit⟩ := paddedChars_cons 2 d.month
  have noWeek (tail : List Char) :
      ((paddedChars 2 d.month ++ tail).head? == some 'W') = false := by
    rw [eq]
    simp only [List.cons_append, List.head?_cons, beq_eq_false_iff_ne, ne_eq, Option.some.injEq]
    rintro rfl
    cases digit
  rw [readDate?, dateChars]
  simp only [List.append_assoc, List.cons_append, bind, takeDigits?_padded (by decide) year,
    takeDigits?_padded (by decide) month, takeDigits?_padded (by decide) day, Option.bind_some,
    List.head?_cons, beq_self_eq_true, if_true, List.drop_succ_cons, List.drop_zero, noWeek,
    Bool.false_eq_true, if_false, calendar]
  simp

/-! ## Times of day -/

section

variable {c : Clock} {part left : Nat} {stop d : Char} {ds : List Char}

/-- A part of a time before a colon. -/
theorem readParts?_colon (short : n < 10 ^ 2) :
    readParts? c true part stop (left + 1) (paddedChars 2 n ++ ':' :: d :: ds) =
      readParts? (c.setPart part n) true (part + 1) stop left (d :: ds) := by
  rw [readParts?, takeDigits?_padded (by decide) short]
  simp

/-- The last part of a time. -/
theorem readParts?_end (short : n < 10 ^ 2) :
    readParts? c true part stop (left + 1) (paddedChars 2 n) =
      some { c.setPart part n with more := stop != endMark } := by
  have digits := takeDigits?_padded (by decide) short []
  rw [List.append_nil] at digits
  rw [readParts?, digits]
  rfl

/-- The last part of a time, with decimals. -/
theorem readParts?_point (short : n < 10 ^ 2) :
    readParts? c true (part + 1) stop (left + 1) (paddedChars 2 n ++ '.' :: d :: ds) =
      readDecimals? (c.setPart (part + 1) n) (d :: ds) stop := by
  rw [readParts?, takeDigits?_padded (by decide) short]
  simp

/-- Of any row of digits the first ones are decimals. -/
theorem readDecimals?_digits (digits : ∀ d ∈ ds, d.isDigit = true) :
    ∃ micros more, readDecimals? c ds stop = some { c with micros, more } := by
  have taken : (ds.take (min 6 ds.length)).all Char.isDigit = true :=
    List.all_eq_true.mpr fun d mem => digits d (List.mem_of_mem_take mem)
  have length : (ds.take (min 6 ds.length)).length = min 6 ds.length := by
    rw [List.length_take, Nat.min_assoc, Nat.min_self]
  rw [readDecimals?, takeDigits?]
  simp only [length, beq_self_eq_true, taken, Bool.and_self, if_true]
  exact ⟨_, _, rfl⟩

end

/-- The characters of a time of day, with decimals or without. -/
def clockChars (clock : Nat) (micros : Option Nat) : List Char :=
  paddedChars 2 (clock / 3600) ++ ':' :: (paddedChars 2 (clock / 60 % 60) ++
    ':' :: (paddedChars 2 (clock % 60) ++ match micros with
      | none => []
      | some n => '.' :: paddedChars 6 n))

/-- A written time of day is read by its parts. -/
theorem readClock?_written {clock : Nat} (within : clock < 86400) (micros : Option Nat)
    (stop : Char) : ∃ c, readClock? (clockChars clock micros) stop = some c ∧ c.hour = clock / 3600 ∧
      c.minute = clock / 60 % 60 ∧ c.second = clock % 60 := by
  have hour : clock / 3600 < 10 ^ 2 := by omega
  have minute : clock / 60 % 60 < 10 ^ 2 := by omega
  have second : clock % 60 < 10 ^ 2 := by omega
  obtain ⟨d, ds, eq, -⟩ := paddedChars_cons 2 (clock / 60 % 60)
  obtain ⟨d', ds', eq', -⟩ := paddedChars_cons 2 (clock % 60)
  unfold readClock? clockChars
  rw [eq, List.cons_append, readParts?_colon hour, ← List.cons_append, ← eq]
  rw [eq', List.cons_append, readParts?_colon minute, ← List.cons_append, ← eq']
  cases micros with
  | none =>
    rw [List.append_nil, readParts?_end second]
    exact ⟨_, rfl, rfl, rfl, rfl⟩
  | some n =>
    obtain ⟨d'', ds'', eq'', -⟩ := paddedChars_cons 6 n
    have digits : ∀ d ∈ paddedChars 6 n, d.isDigit = true := fun d => isDigit_of_mem_paddedChars
    rw [eq''] at digits
    dsimp only
    rw [eq'']
    rw [readParts?_point second]
    obtain ⟨decimals, more, read⟩ := readDecimals?_digits digits
    rw [read]
    exact ⟨_, rfl, rfl, rfl, rfl⟩

theorem startsOffset_of_mem_clockChars {clock : Nat} {micros : Option Nat} :
    ∀ c ∈ clockChars clock micros, startsOffset c = false := by
  have digit {w n : Nat} (c : Char) (mem : c ∈ paddedChars w n) : startsOffset c = false := by
    have digit := isDigit_of_mem_paddedChars mem
    simp only [startsOffset, Bool.or_eq_false_iff, beq_eq_false_iff_ne, ne_eq]
    refine ⟨⟨?_, ?_⟩, ?_⟩
    all_goals
      rintro rfl
      cases digit
  intro c mem
  unfold clockChars at mem
  rw [List.mem_append, List.mem_cons, List.mem_append, List.mem_cons,
    List.mem_append] at mem
  rcases mem with hour | rfl | minute | rfl | second | decimals
  · exact digit c hour
  · rfl
  · exact digit c minute
  · rfl
  · exact digit c second
  · cases micros with
    | none => cases decimals
    | some n =>
      rcases List.mem_cons.mp decimals with rfl | decimal
      · rfl
      · exact digit c decimal

/-- A written time of day, in UTC, is one that can be read. -/
theorem readTime?_written {clock : Nat} (within : clock < 86400) (micros : Option Nat) :
    ∃ total, readTime? (clockChars clock micros ++ ['+', '0', '0', ':', '0', '0']) = some total := by
  obtain ⟨c, read, hour, minute, second⟩ := readClock?_written within micros '+'
  have plain : ∀ c ∈ clockChars clock micros, (!startsOffset c) = true := fun c mem => by
    rw [startsOffset_of_mem_clockChars c mem]
    rfl
  have front : (clockChars clock micros ++ ['+', '0', '0', ':', '0', '0']).takeWhile
      (fun c => !startsOffset c) = clockChars clock micros := by
    rw [List.takeWhile_append_of_pos plain]
    exact List.append_nil _
  have behind : (clockChars clock micros ++ ['+', '0', '0', ':', '0', '0']).dropWhile
      (fun c => !startsOffset c) = ['+', '0', '0', ':', '0', '0'] := by
    rw [List.dropWhile_append_of_pos plain]
    rfl
  have utc : readOffset? ['+', '0', '0', ':', '0', '0'] = some 0 := by decide
  have early : (c.hour ≤ 23 ∧ c.minute ≤ 59) ∧ c.second ≤ 59 := by
    rw [hour, minute, second]
    omega
  rw [readTime?, front, behind]
  simpa [read, utc] using early

/-! ## Whole times -/

/-- The characters of a written time. -/
def timeChars (d : Date) (clock : Nat) (micros : Option Nat) : List Char :=
  dateChars d ++ 'T' :: (clockChars clock micros ++ ['+', '0', '0', ':', '0', '0'])

/-- What a time is written as. -/
theorem toList_of_write {x : Float} {stamp : String} (written : write x = .ok stamp) :
    ∃ d clock micros, stamp.toList = timeChars d clock micros ∧ d.Valid ∧ clock < 86400 := by
  rw [write] at written
  split at written
  · cases written
  · dsimp only at written
    split at written
    · cases written
    · split at written
      · cases written
      · split at written
        · cases written
        · next inRange =>
          generalize secondsAndMicros x _ = parts at written inRange
          obtain ⟨seconds, micros⟩ := parts
          obtain ⟨first, last⟩ := not_or.mp (mt Bool.or_eq_true_iff.mpr inRange)
          obtain ⟨firstMonth, lastMonth, day⟩ := dateOf_valid (seconds / 86400)
          have valid : (dateOf (seconds / 86400)).Valid :=
            ⟨Int.not_lt.mp (mt decide_eq_true first), Int.not_lt.mp (mt decide_eq_true last),
              ⟨firstMonth, lastMonth⟩, day⟩
          refine ⟨dateOf (seconds / 86400), (seconds % 86400).toNat,
            if micros == 0 then none else some micros.toNat, ?_, valid, by omega⟩
          rw [← Except.ok.inj written]
          cases micros == 0 <;>
            simp [timeChars, dateChars, clockChars, paddedChars]

theorem length_le_utf8Len (cs : List Char) : cs.length ≤ String.utf8Len cs := by
  induction cs with
  | nil => exact Nat.zero_le _
  | cons c cs ih =>
    rw [String.utf8Len_cons]
    exact Nat.add_le_add ih c.utf8Size_pos

/-- A written time has its date on the first ten places. -/
theorem dateLength_written {d : Date} {cs : List Char} {size : Nat} (valid : d.Valid)
    (long : 10 < size) : dateLength (dateChars d ++ cs) size = 10 := by
  have four := length_paddedChars (by decide) valid.short.1
  obtain ⟨c, month, eq, digit⟩ := paddedChars_cons 2 d.month
  have hyphen : (dateChars d ++ cs).getD 4 endMark = '-' := by
    rw [dateChars, List.append_assoc, List.getD_append_right _ _ _ _ four.le, four]
    rfl
  have other : ((dateChars d ++ cs).getD 5 endMark == 'W') = false := by
    rw [dateChars, List.append_assoc, List.getD_append_right _ _ _ _ (by rw [four]; decide), four, eq]
    show (c == 'W') = false
    rw [beq_eq_false_iff_ne]
    rintro rfl
    cases digit
  have notSeven : (size == 7) = false := by
    rw [beq_eq_false_iff_ne]
    omega
  rw [dateLength]
  simp only [notSeven, hyphen, other, beq_self_eq_true, Bool.false_eq_true, if_false, if_true]

/-- A written time can be read. -/
theorem read?_of_write {x : Float} {stamp : String} (written : write x = .ok stamp) :
    ∃ t, read? stamp = some t := by
  obtain ⟨d, clock, micros, chars, valid, within⟩ := toList_of_write written
  obtain ⟨total, time⟩ := readTime?_written within micros
  have length := length_dateChars valid
  have behind (cs : List Char) : (dateChars d ++ 'T' :: cs).drop 11 = cs := by
    rw [List.append_cons]
    exact List.drop_left' (by rw [List.length_append, length]; rfl)
  have long : 10 < stamp.utf8ByteSize := by
    have bytes : stamp.utf8ByteSize = String.utf8Len stamp.toList := by
      rw [← String.utf8ByteSize_ofList, String.ofList_toList]
    have most := length_le_utf8Len stamp.toList
    rw [← bytes, chars, timeChars, List.length_append, List.length_cons, length] at most
    omega
  have enough : ¬ stamp.utf8ByteSize < 7 := by omega
  rw [read?, chars, timeChars, dateLength_written valid long]
  simp only [enough, if_false, readDate?_written valid, long, if_true, behind, time, bind,
    Option.bind_some, pure]
  exact ⟨_, rfl⟩

/-- What is read as a time is a number. -/
theorem not_isNaN_of_read? {text : String} {t : Float} (read : read? text = some t) :
    t.isNaN = false := by
  obtain ⟨total, rfl⟩ : ∃ total : Int,
      t = if total < 0 then -nearestFloat total.natAbs (-6) else nearestFloat total.natAbs (-6) := by
    by_cases short : text.utf8ByteSize < 7
    · simp only [read?, short, if_true] at read
      cases read
    · simp only [read?, short, if_false, bind, Option.bind_eq_some_iff, pure] at read
      obtain ⟨day, -, clock⟩ := read
      split at clock
      all_goals
        obtain ⟨micros, -, eq⟩ := Option.bind_eq_some_iff.mp clock
        exact ⟨_, (Option.some.inj eq).symm⟩
  split
  · rw [isNaN_neg, not_isNaN_nearestFloat]
  · exact not_isNaN_nearestFloat _ _

end LineCalc.Time
