import LineCalc.Catalog.Name

/-!
# Metals

Amounts of metal are troy ounces, priced in dollars.
-/

namespace LineCalc

/-- A metal. -/
inductive Metal
  | gold | silver | platinum | palladium | copper | aluminum | nickel | zinc | lead | tin
deriving DecidableEq, Repr

namespace Metal

/-- What is known of a metal. -/
structure Entry where
  code : String
  name : String
  aliases : List String

/-- All metals, in order. -/
def all : List Metal := [
  .gold, .silver, .platinum, .palladium, .copper, .aluminum, .nickel, .zinc, .lead, .tin]

/-- The entry of a metal. -/
def entry : Metal → Entry
  | .gold => ⟨"XAU", "Gold", ["gold", "au"]⟩
  | .silver => ⟨"XAG", "Silver", ["silver", "ag"]⟩
  | .platinum => ⟨"XPT", "Platinum", ["platinum", "pt"]⟩
  | .palladium => ⟨"XPD", "Palladium", ["palladium", "pd"]⟩
  | .copper => ⟨"XCU", "Copper", ["copper"]⟩
  | .aluminum => ⟨"XAL", "Aluminum", ["aluminum", "aluminium"]⟩
  | .nickel => ⟨"XNI", "Nickel", ["nickel"]⟩
  | .zinc => ⟨"XZN", "Zinc", ["zinc"]⟩
  | .lead => ⟨"XPB", "Lead", ["lead"]⟩
  | .tin => ⟨"XSN", "Tin", ["tin"]⟩

/-- The code of a metal. -/
def code (m : Metal) : String := m.entry.code

/-- The metal with exactly this code. -/
def withCode? (code : String) : Option Metal := all.find? (·.code == code)

/-- The metal with this alias or code, in any case. -/
def ofName? (name : String) : Option Metal :=
  let key := Name.normalize name
  (all.find? (·.entry.aliases.contains key)) <|> withCode? (Text.upper key)

/-- The metal with this code, in any case. -/
def ofCode? (code : String) : Option Metal := withCode? (Name.asCode code)

end Metal

end LineCalc
