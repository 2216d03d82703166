import LineCalc.Decimal.Numeral
import LineCalc.Fault
import LineCalc.Time.Calendar

/-!
# Timestamps

A point in time is the seconds since 1970-01-01 in UTC, as a double. It is written as a date and a
time in UTC to the microsecond. Several written forms are read: a date by month and day or by week
and weekday, with or without hyphens; after any one character a time with or without colons; and an
offset from UTC, without which the time is in UTC.
-/

namespace LineCalc.Time

/-! ## Writing -/

/-- A number by at least `width` digits. -/
def padded (width n : Nat) : String :=
  let ds := Nat.toDigits 10 n
  String.ofList (List.replicate (width - ds.length) '0' ++ ds)

/-- The least and the greatest year of a date. -/
def yearRange : Int × Int := (1, 9999)

/-- The last year that the clock of the system can count to. -/
def lastClockYear : Int := 1900 + 0x7fffffff

/-- The first year that the clock of the system can count to. -/
def firstClockYear : Int := 1900 - 0x80000000

/-- Years are named in words of 32 bits, so the last of them come out negative. -/
def yearWord : Nat := 0x100000000

/-- Seconds are counted in words of 64 bits. The first number too great for a word counts as one that
the calendar cannot hold; those beyond it are out of range. -/
def secondsLimit : Int := 0x8000000000000000

/-- The nearest integer, a half going to the even neighbour. -/
def roundToEven (b : Decimal.Binary) : Int :=
  let (num, den) := b.fraction
  let q := num / den
  let rest := 2 * (num % den)
  let n := if rest < den || rest == den && q % 2 == 0 then q else q + 1
  if b.negative then -(n : Int) else n

/-- Whole seconds and microseconds of a point in time, the latter rounded by itself. -/
def secondsAndMicros (x : Float) (whole : Int) : Int × Int :=
  let fraction := x - (Decimal.Binary.ofInt whole 0).toFloat
  let micros := ((Decimal.binary? (fraction * 1000000)).map roundToEven).getD 0
  if micros ≥ 1000000 then (whole + 1, micros - 1000000)
  else if micros < 0 then (whole - 1, micros + 1000000)
  else (whole, micros)

/-- The written form of a point in time. -/
def write (x : Float) : Except Fault String :=
  match Decimal.truncate? x with
  | none => .error (if x.isNaN then .undefinedTime else .timeOutOfRange)
  | some whole =>
    let (seconds, micros) := secondsAndMicros x whole
    if seconds < -secondsLimit || seconds > secondsLimit then .error .timeOutOfRange
    else
      let date := dateOf (seconds / 86400)
      let clock := (seconds % 86400).toNat
      if date.year < firstClockYear || date.year > lastClockYear then .error .timeBeyondCalendar
      else if date.year < yearRange.1 || date.year > yearRange.2 then
        .error (.yearOutOfRange (date.year.bmod yearWord))
      else
        .ok (padded 4 date.year.toNat ++ "-" ++ padded 2 date.month ++ "-" ++ padded 2 date.day
          ++ "T" ++ padded 2 (clock / 3600) ++ ":" ++ padded 2 (clock / 60 % 60) ++ ":"
          ++ padded 2 (clock % 60)
          ++ (if micros == 0 then "" else "." ++ padded 6 micros.toNat) ++ "+00:00")

/-! ## Reading -/

/-- The character that stands for the end of a text. -/
def endMark : Char := '\x00'

/-- A number of exactly `n` digits, and the rest. -/
def takeDigits? (n : Nat) (cs : List Char) : Option (Nat × List Char) :=
  let ds := cs.take n
  if ds.length == n && ds.all Char.isDigit then
    some (Text.ofDecimalDigits (ds.map fun c => c.toNat - '0'.toNat), cs.drop n)
  else none

/-- The day number of a date by year, month and day, if there is such a date. -/
def dayOfDate? (year month day : Nat) : Option Int :=
  if 1 ≤ year ∧ 1 ≤ month ∧ month ≤ 12 ∧ 1 ≤ day ∧ day ≤ daysInMonth year month then
    some (dayNumber year month day)
  else none

/-- The day number of a date by year, week and weekday, if there is such a date. -/
def dayOfWeekDate? (year week day : Nat) : Option Int :=
  if 1 ≤ year ∧ 1 ≤ week ∧ week ≤ weeksInYear year ∧ 1 ≤ day ∧ day ≤ 7 then
    let n := firstMonday year + 7 * (week - 1 : Nat) + (day - 1 : Nat)
    if n < dayNumber 10000 1 1 then some n else none
  else none

/-- Where the date ends in a text of `size` characters. The forms of dates have different lengths,
and a digit or a hyphen after the week may belong to the date or to the time. -/
def dateLength (cs : List Char) (size : Nat) : Nat :=
  let at? (i : Nat) : Char := cs.getD i endMark
  if size == 7 then 7
  else if at? 4 == '-' then
    if at? 5 == 'W' then
      if size > 8 && at? 8 == '-' then
        if size > 10 && (at? 10).isDigit then 8 else 10
      else 8
    else 10
  else if at? 4 == 'W' then
    let digits := 7 + ((cs.drop 7).takeWhile Char.isDigit).length
    if digits < 9 then digits else if digits % 2 == 0 then 7 else 8
  else 8

/-- The day number of a date of `length` characters at the start of a text. -/
def readDate? (cs : List Char) (length : Nat) : Option Int := do
  let (year, rest) ← takeDigits? 4 cs
  let hyphens := rest.head? == some '-'
  let rest := if hyphens then rest.drop 1 else rest
  if rest.head? == some 'W' then
    let (week, after) ← takeDigits? 2 (rest.drop 1)
    if cs.length - after.length < length then
      if hyphens && after.head? != some '-' then none
      let (day, _) ← takeDigits? 1 (if hyphens then after.drop 1 else after)
      dayOfWeekDate? year week day
    else dayOfWeekDate? year week 1
  else
    let (month, after) ← takeDigits? 2 rest
    if hyphens && after.head? != some '-' then none
    let (day, _) ← takeDigits? 2 (if hyphens then after.drop 1 else after)
    dayOfDate? year month day

/-- A time of day, or an offset, by its parts; `more` tells that something follows it. -/
structure Clock where
  hour : Nat := 0
  minute : Nat := 0
  second : Nat := 0
  micros : Nat := 0
  more : Bool := false

/-- The time in seconds. -/
def Clock.seconds (c : Clock) : Nat := c.hour * 3600 + c.minute * 60 + c.second

/-- Sets the hour, the minute or the second. -/
def Clock.setPart (c : Clock) (part n : Nat) : Clock :=
  match part with
  | 0 => { c with hour := n }
  | 1 => { c with minute := n }
  | _ => { c with second := n }

/-- The decimals of the last part: at most six of them count. -/
def readDecimals? (c : Clock) (cs : List Char) (stop : Char) : Option Clock :=
  let n := min 6 cs.length
  (takeDigits? n cs).map fun (micros, rest) =>
    let next := (rest.dropWhile Char.isDigit).headD stop
    { c with micros := micros * Decimal.tenTo (6 - n), more := next != endMark }

/-- The parts of a time from `part` on, `left` of them. `colons` tells whether the parts stand apart,
and `stop` is the character after the time. -/
def readParts? (c : Clock) (colons : Bool) (part : Nat) (stop : Char) :
    (left : Nat) → List Char → Option Clock
  | 0, cs => readDecimals? c cs stop
  | left + 1, cs =>
    (takeDigits? 2 cs).bind fun (n, rest) =>
      let c := c.setPart part n
      match rest with
      | [] => some { c with more := stop != endMark }
      | [last] =>
        if last.utf8Size == 1 then some { c with more := last != endMark } else none
      | next :: after =>
        let colons := if part == 0 then next == ':' else colons
        if colons && next == ':' then readParts? c colons (part + 1) stop left after
        else if next == '.' || next == ',' then readDecimals? c after stop
        else if colons then none
        else readParts? c colons (part + 1) stop left rest

/-- A time or an offset that ends before `stop`. -/
def readClock? (cs : List Char) (stop : Char) : Option Clock := readParts? {} true 0 stop 3 cs

/-- A character that begins an offset. -/
def startsOffset (c : Char) : Bool := c == '+' || c == '-' || c == 'Z'

/-- An offset from UTC in microseconds. One below a second does not count, and one of a day is too
great. -/
def readOffset? : List Char → Option Int
  | [] => some 0
  | 'Z' :: rest => if rest.headD endMark == endMark then some 0 else none
  | sign :: rest =>
    (readClock? rest endMark).bind fun c =>
      if c.more then none
      else if c.seconds == 0 then some 0
      else
        let micros : Int := c.seconds * 1000000 + c.micros
        if micros ≥ 86400 * 1000000 then none
        else some (if sign == '-' then -micros else micros)

/-- The microseconds of a time of day, less its offset. -/
def readTime? (cs : List Char) : Option Int := do
  let offset := cs.dropWhile fun c => !startsOffset c
  let clock ← readClock? (cs.takeWhile fun c => !startsOffset c) (offset.headD endMark)
  if offset.isEmpty && clock.more then none
  if clock.hour > 23 || clock.minute > 59 || clock.second > 59 then none
  let shift ← readOffset? offset
  return clock.seconds * 1000000 + clock.micros - shift

/-- The point in time that a text states. -/
def read? (text : String) : Option Float := do
  let cs := text.toList
  let size := text.utf8ByteSize
  if size < 7 then none
  let length := dateLength cs size
  let day ← readDate? cs length
  let micros ← if size > length then readTime? (cs.drop (length + 1)) else some 0
  let total := day * 86400000000 + micros
  let x := Decimal.nearestFloat total.natAbs (-6)
  return if total < 0 then -x else x

end LineCalc.Time
