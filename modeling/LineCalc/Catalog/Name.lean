import LineCalc.Text.Blank
import LineCalc.Text.Case
import LineCalc.Text.Letter

/-!
# Names in the catalog

Names are compared in lower case with single spaces between their words, codes in upper case
without blanks around them.
-/

namespace LineCalc.Name

/-- The form in which names are compared: `Turkish  Lira` is `turkish lira`. -/
def normalize (name : String) : String :=
  " ".intercalate (Text.words (Text.lower name))

/-- The form in which codes are compared. -/
def asCode (code : String) : String :=
  Text.upper (Text.trim code)

end LineCalc.Name
