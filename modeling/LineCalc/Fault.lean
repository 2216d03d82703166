import LineCalc.Decimal.Shortest
import LineCalc.Text.Quoted

/-!
# Faults

What stops an operation outright. Unlike a problem, a fault is not a value: the operation has no
result and leaves everything as it was, as far as it had not yet changed it.
-/

namespace LineCalc

/-- The classes of faults. -/
inductive FaultClass
  /-- A value outside what an operation is defined for. -/
  | value
  /-- A number too great for its form. -/
  | overflow
  /-- A value of the wrong shape for the part that was asked of it. -/
  | shape
  /-- A value of the wrong type for the operation. -/
  | type
  /-- A decimal too great for decimal arithmetic. -/
  | decimalOverflow
  /-- A time that the calendar of the system cannot hold. -/
  | calendar
deriving DecidableEq, Repr

/-- What stops an operation. -/
inductive Fault
  /-- The text was scanned as a number but names none. -/
  | notANumeral (text : String)
  | infiniteInteger
  | undefinedInteger
  | sumOverflow
  | oppositeInfinities
  /-- The remainder of an infinite number. -/
  | infiniteRemainder
  /-- The power of ten to round to is too great. -/
  | roundingUnitTooGreat
  | invalidRate (rate : Float) (source target : String)
  /-- The precision, as it was given. -/
  | precisionOutOfRange (given : String)
  /-- A truth value was used as a count of decimals. -/
  | missingPrecision
  | integerTooLarge
  | integerTooLong (digits : Nat)
  | notAnInteger (text : String)
  | undefinedTime
  | timeOutOfRange
  | timeBeyondCalendar
  | yearOutOfRange (year : Int)
  /-- The path of a file has a null character in it. -/
  | nullInPath
  | wrongShape
  | wrongType
deriving Repr

namespace Fault

/-- The class of a fault. -/
def faultClass : Fault → FaultClass
  | notANumeral _ | undefinedInteger | oppositeInfinities | infiniteRemainder | invalidRate ..
  | precisionOutOfRange _ | missingPrecision | integerTooLong _ | notAnInteger _ | undefinedTime
  | yearOutOfRange _ | nullInPath => .value
  | infiniteInteger | sumOverflow | integerTooLarge | timeOutOfRange => .overflow
  | roundingUnitTooGreat => .decimalOverflow
  | timeBeyondCalendar => .calendar
  | wrongShape => .shape
  | wrongType => .type

/-- The longest piece of the input that the wording of a malformed integer shows. -/
def longestQuotation : Nat := 200

/-- The first characters of a text. -/
def cutTo (size : Nat) (text : String) : String := String.ofList (text.toList.take size)

/-- The wording of a fault. -/
def message : Fault → String
  | notANumeral text => s!"could not convert string to float: {Text.quoted text}"
  | infiniteInteger => "cannot convert float infinity to integer"
  | undefinedInteger => "cannot convert float NaN to integer"
  | sumOverflow => "intermediate overflow in fsum"
  | oppositeInfinities => "-inf + inf in fsum"
  | infiniteRemainder => "math domain error"
  | roundingUnitTooGreat => "exponent above the greatest one"
  | invalidRate rate source target =>
    s!"invalid rate {Decimal.shortestText rate} for {source}/{target}"
  | precisionOutOfRange given => s!"precision must be between 0 and 15, got {given}"
  | missingPrecision => "Format specifier missing precision"
  | integerTooLarge => "int too large to convert to float"
  | integerTooLong digits =>
    "Exceeds the limit (4300 digits) for integer string conversion: value has "
      ++ s!"{digits} digits; use sys.set_int_max_str_digits() to increase the limit"
  | notAnInteger text =>
    "invalid literal for int() with base 10: " ++ cutTo longestQuotation (Text.quoted text)
  | undefinedTime => "Invalid value NaN (not a number)"
  | timeOutOfRange => "timestamp out of range for platform time_t"
  | timeBeyondCalendar => "time beyond the calendar"
  | yearOutOfRange year => s!"year {year} is out of range"
  | nullInPath => "embedded null byte"
  | wrongShape => "value of the wrong shape"
  | wrongType => "value of the wrong type"

end Fault

end LineCalc
