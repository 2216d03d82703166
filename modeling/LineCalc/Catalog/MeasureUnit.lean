import LineCalc.Catalog.Name

/-!
# Units of measure

Units of seven quantities. Two units can be converted into each other exactly if they measure the
same quantity.
-/

namespace LineCalc

/-- What a unit measures. -/
inductive Quantity
  | length | weight | time | temperature | data | area | volume
deriving DecidableEq, Repr

/-- The word for a quantity. -/
def Quantity.label : Quantity → String
  | .length => "length"
  | .weight => "weight"
  | .time => "time"
  | .temperature => "temperature"
  | .data => "data"
  | .area => "area"
  | .volume => "volume"

/-- A unit of measure. -/
inductive MeasureUnit
  | meter | kilometer | centimeter | millimeter | mile | yard | foot | inch | nauticalMile | gram
  | kilogram | milligram | tonne | pound | ounce | stone | troyOunce | second | millisecond | minute
  | hour | day | week | month | year | kelvin | celsius | fahrenheit | byte | kilobyte | megabyte
  | gigabyte | terabyte | petabyte | bit | kilobit | megabit | gigabit | squareMeter
  | squareKilometer | squareFoot | squareMile | acre | hectare | liter | milliliter | gallon | quart
  | pint | cup | fluidOunce | tablespoon | teaspoon | cubicMeter
deriving DecidableEq, Repr

namespace MeasureUnit

/-- What is known of a unit. -/
structure Entry where
  code : String
  name : String
  quantity : Quantity
  aliases : List String

/-- All units, in order: where two codes differ by case alone, the first has the other spellings. -/
def all : List MeasureUnit := [
  .meter, .kilometer, .centimeter, .millimeter, .mile, .yard, .foot, .inch, .nauticalMile, .gram,
  .kilogram, .milligram, .tonne, .pound, .ounce, .stone, .troyOunce, .second, .millisecond, .minute,
  .hour, .day, .week, .month, .year, .kelvin, .celsius, .fahrenheit, .byte, .kilobyte, .megabyte,
  .gigabyte, .terabyte, .petabyte, .bit, .kilobit, .megabit, .gigabit, .squareMeter,
  .squareKilometer, .squareFoot, .squareMile, .acre, .hectare, .liter, .milliliter, .gallon, .quart,
  .pint, .cup, .fluidOunce, .tablespoon, .teaspoon, .cubicMeter]

/-- The entry of a unit. -/
def entry : MeasureUnit → Entry
  | .meter => ⟨"m", "meter", .length, ["meter", "meters", "metre", "metres"]⟩
  | .kilometer => ⟨"km", "kilometer", .length,
      ["kilometer", "kilometers", "kilometre", "kilometres"]⟩
  | .centimeter => ⟨"cm", "centimeter", .length, ["centimeter", "centimeters"]⟩
  | .millimeter => ⟨"mm", "millimeter", .length, ["millimeter", "millimeters"]⟩
  | .mile => ⟨"mi", "mile", .length, ["mile", "miles"]⟩
  | .yard => ⟨"yd", "yard", .length, ["yard", "yards"]⟩
  | .foot => ⟨"ft", "foot", .length, ["foot", "feet"]⟩
  | .inch => ⟨"inch", "inch", .length, ["inches"]⟩
  | .nauticalMile => ⟨"nmi", "nautical mile", .length, ["nautical mile", "nautical miles"]⟩
  | .gram => ⟨"g", "gram", .weight, ["gram", "grams"]⟩
  | .kilogram => ⟨"kg", "kilogram", .weight, ["kilogram", "kilograms", "kilo", "kilos"]⟩
  | .milligram => ⟨"mg", "milligram", .weight, ["milligram", "milligrams"]⟩
  | .tonne => ⟨"t", "tonne", .weight, ["ton", "tons", "tonne", "tonnes"]⟩
  | .pound => ⟨"lb", "pound", .weight, ["lbs", "pound", "pounds"]⟩
  | .ounce => ⟨"oz", "ounce", .weight, ["ounce", "ounces"]⟩
  | .stone => ⟨"st", "stone", .weight, ["stone", "stones"]⟩
  | .troyOunce => ⟨"ozt", "troy ounce", .weight, ["troy ounce", "troy ounces"]⟩
  | .second => ⟨"s", "second", .time, ["sec", "secs", "second", "seconds"]⟩
  | .millisecond => ⟨"ms", "millisecond", .time, ["millisecond", "milliseconds"]⟩
  | .minute => ⟨"min", "minute", .time, ["mins", "minute", "minutes"]⟩
  | .hour => ⟨"h", "hour", .time, ["hr", "hrs", "hour", "hours"]⟩
  | .day => ⟨"d", "day", .time, ["day", "days"]⟩
  | .week => ⟨"wk", "week", .time, ["week", "weeks"]⟩
  | .month => ⟨"mo", "month", .time, ["month", "months"]⟩
  | .year => ⟨"y", "year", .time, ["yr", "yrs", "year", "years"]⟩
  | .kelvin => ⟨"K", "kelvin", .temperature, ["kelvin"]⟩
  | .celsius => ⟨"C", "celsius", .temperature, ["celsius", "centigrade"]⟩
  | .fahrenheit => ⟨"F", "fahrenheit", .temperature, ["fahrenheit"]⟩
  | .byte => ⟨"B", "byte", .data, ["byte", "bytes"]⟩
  | .kilobyte => ⟨"KB", "kilobyte", .data, ["kilobyte", "kilobytes"]⟩
  | .megabyte => ⟨"MB", "megabyte", .data, ["megabyte", "megabytes"]⟩
  | .gigabyte => ⟨"GB", "gigabyte", .data, ["gigabyte", "gigabytes"]⟩
  | .terabyte => ⟨"TB", "terabyte", .data, ["terabyte", "terabytes"]⟩
  | .petabyte => ⟨"PB", "petabyte", .data, ["petabyte", "petabytes"]⟩
  | .bit => ⟨"bit", "bit", .data, ["bits"]⟩
  | .kilobit => ⟨"Kbit", "kilobit", .data, ["kilobit", "kilobits"]⟩
  | .megabit => ⟨"Mbit", "megabit", .data, ["megabit", "megabits"]⟩
  | .gigabit => ⟨"Gbit", "gigabit", .data, ["gigabit", "gigabits"]⟩
  | .squareMeter => ⟨"sqm", "square meter", .area, ["m2", "square meter", "square meters"]⟩
  | .squareKilometer => ⟨"sqkm", "square kilometer", .area,
      ["km2", "square kilometer", "square kilometers"]⟩
  | .squareFoot => ⟨"sqft", "square foot", .area, ["ft2", "square foot", "square feet"]⟩
  | .squareMile => ⟨"sqmi", "square mile", .area, ["square mile", "square miles"]⟩
  | .acre => ⟨"acre", "acre", .area, ["acres"]⟩
  | .hectare => ⟨"ha", "hectare", .area, ["hectare", "hectares"]⟩
  | .liter => ⟨"L", "liter", .volume, ["liter", "liters", "litre", "litres"]⟩
  | .milliliter => ⟨"mL", "milliliter", .volume, ["milliliter", "milliliters"]⟩
  | .gallon => ⟨"gal", "gallon", .volume, ["gallon", "gallons"]⟩
  | .quart => ⟨"qt", "quart", .volume, ["quart", "quarts"]⟩
  | .pint => ⟨"pt", "pint", .volume, ["pint", "pints"]⟩
  | .cup => ⟨"cup", "cup", .volume, ["cups"]⟩
  | .fluidOunce => ⟨"floz", "fluid ounce", .volume, ["fl oz", "fluid ounce", "fluid ounces"]⟩
  | .tablespoon => ⟨"tbsp", "tablespoon", .volume, ["tablespoon", "tablespoons"]⟩
  | .teaspoon => ⟨"tsp", "teaspoon", .volume, ["teaspoon", "teaspoons"]⟩
  | .cubicMeter => ⟨"m3", "cubic meter", .volume, ["cubic meter", "cubic meters"]⟩

/-- The code of a unit. -/
def code (u : MeasureUnit) : String := u.entry.code

/-- What the unit measures. -/
def quantity (u : MeasureUnit) : Quantity := u.entry.quantity

/-- The unit with exactly this code, else with this alias, else with this code in another case. -/
def ofName? (name : String) : Option MeasureUnit :=
  let exact := Text.trim name
  let key := Name.normalize exact
  (all.find? (·.code == exact))
    <|> (all.find? (·.entry.aliases.contains key))
    <|> (all.find? fun u => Text.lower u.code == key)

end MeasureUnit

end LineCalc
