import LineCalc.Catalog.MeasureUnit

/-!
# Converting units

An amount of one unit becomes an amount of another of the same quantity by one multiplication with
a fixed factor; temperatures, whose scales have different zeros, go through kelvin.
-/

namespace LineCalc.MeasureUnit

/-- The factors from a unit to the others of its quantity. -/
def factors : MeasureUnit → List (MeasureUnit × Float)
  | .meter => [
      (.kilometer, 0.001), (.centimeter, 100.0), (.millimeter, 1000.0),
      (.mile, 0.0006213711922373339), (.yard, 1.0936132983377078), (.foot, 3.2808398950131235),
      (.inch, 39.37007874015748), (.nauticalMile, 0.0005399568034557236)]
  | .kilometer => [
      (.meter, 1000.0), (.centimeter, 100000.0), (.millimeter, 1000000.0),
      (.mile, 0.621371192237334), (.yard, 1093.6132983377079), (.foot, 3280.8398950131236),
      (.inch, 39370.07874015748), (.nauticalMile, 0.5399568034557236)]
  | .centimeter => [
      (.meter, 0.01), (.kilometer, 1e-05), (.millimeter, 10.0), (.mile, 6.213711922373339e-06),
      (.yard, 0.010936132983377079), (.foot, 0.03280839895013123), (.inch, 0.3937007874015748),
      (.nauticalMile, 5.399568034557236e-06)]
  | .millimeter => [
      (.meter, 0.001), (.kilometer, 1e-06), (.centimeter, 0.1), (.mile, 6.21371192237334e-07),
      (.yard, 0.0010936132983377078), (.foot, 0.0032808398950131233), (.inch, 0.03937007874015749),
      (.nauticalMile, 5.399568034557235e-07)]
  | .mile => [
      (.meter, 1609.344), (.kilometer, 1.609344), (.centimeter, 160934.4), (.millimeter, 1609344.0),
      (.yard, 1760.0), (.foot, 5280.0), (.inch, 63360.0), (.nauticalMile, 0.868976241900648)]
  | .yard => [
      (.meter, 0.9144), (.kilometer, 0.0009144), (.centimeter, 91.44), (.millimeter, 914.4),
      (.mile, 0.0005681818181818182), (.foot, 3.0), (.inch, 36.0),
      (.nauticalMile, 0.0004937365010799136)]
  | .foot => [
      (.meter, 0.30479999999999996), (.kilometer, 0.0003048), (.centimeter, 30.479999999999997),
      (.millimeter, 304.79999999999995), (.mile, 0.00018939393939393937),
      (.yard, 0.3333333333333333), (.inch, 12.0), (.nauticalMile, 0.00016457883369330452)]
  | .inch => [
      (.meter, 0.0254), (.kilometer, 2.54e-05), (.centimeter, 2.54), (.millimeter, 25.4),
      (.mile, 1.5782828282828283e-05), (.yard, 0.027777777777777776), (.foot, 0.08333333333333333),
      (.nauticalMile, 1.3714902807775378e-05)]
  | .nauticalMile => [
      (.meter, 1852.0), (.kilometer, 1.852), (.centimeter, 185200.0), (.millimeter, 1852000.0),
      (.mile, 1.1507794480235425), (.yard, 2025.371828521435), (.foot, 6076.115485564304),
      (.inch, 72913.38582677166)]
  | .gram => [
      (.kilogram, 0.001), (.milligram, 1000.0), (.tonne, 1e-06), (.pound, 0.002204622621848776),
      (.ounce, 0.035273961949580414), (.stone, 0.0001574730444177697),
      (.troyOunce, 0.03215074656862798)]
  | .kilogram => [
      (.gram, 1000.0), (.milligram, 1000000.0), (.tonne, 0.001), (.pound, 2.2046226218487757),
      (.ounce, 35.27396194958041), (.stone, 0.15747304441776971), (.troyOunce, 32.15074656862798)]
  | .milligram => [
      (.gram, 0.001), (.kilogram, 1e-06), (.tonne, 1e-09), (.pound, 2.204622621848776e-06),
      (.ounce, 3.5273961949580415e-05), (.stone, 1.574730444177697e-07),
      (.troyOunce, 3.215074656862798e-05)]
  | .tonne => [
      (.gram, 1000000.0), (.kilogram, 1000.0), (.milligram, 1000000000.0),
      (.pound, 2204.6226218487755), (.ounce, 35273.96194958041), (.stone, 157.4730444177697),
      (.troyOunce, 32150.74656862798)]
  | .pound => [
      (.gram, 453.5923700000001), (.kilogram, 0.4535923700000001), (.milligram, 453592.37000000005),
      (.tonne, 0.00045359237000000004), (.ounce, 16.0), (.stone, 0.07142857142857142),
      (.troyOunce, 14.583333333333334)]
  | .ounce => [
      (.gram, 28.349523125000005), (.kilogram, 0.028349523125000005),
      (.milligram, 28349.523125000003), (.tonne, 2.8349523125000003e-05), (.pound, 0.0625),
      (.stone, 0.004464285714285714), (.troyOunce, 0.9114583333333334)]
  | .stone => [
      (.gram, 6350.293180000001), (.kilogram, 6.35029318), (.milligram, 6350293.180000001),
      (.tonne, 0.00635029318), (.pound, 14.0), (.ounce, 224.0), (.troyOunce, 204.16666666666666)]
  | .troyOunce => [
      (.gram, 31.103476800000006), (.kilogram, 0.03110347680000001),
      (.milligram, 31103.476800000004), (.tonne, 3.1103476800000005e-05),
      (.pound, 0.06857142857142857), (.ounce, 1.0971428571428572), (.stone, 0.00489795918367347)]
  | .second => [
      (.millisecond, 1000.0), (.minute, 0.016666666666666666), (.hour, 0.0002777777777777778),
      (.day, 1.1574074074074073e-05), (.week, 1.6534391534391533e-06),
      (.month, 3.802570537683474e-07), (.year, 3.168808781402895e-08)]
  | .millisecond => [
      (.second, 0.001), (.minute, 1.6666666666666667e-05), (.hour, 2.7777777777777776e-07),
      (.day, 1.1574074074074074e-08), (.week, 1.6534391534391533e-09),
      (.month, 3.8025705376834746e-10), (.year, 3.168808781402895e-11)]
  | .minute => [
      (.second, 60.0), (.millisecond, 60000.0), (.hour, 0.016666666666666666),
      (.day, 0.0006944444444444444), (.week, 9.920634920634919e-05),
      (.month, 2.2815423226100844e-05), (.year, 1.901285268841737e-06)]
  | .hour => [
      (.second, 3600.0), (.millisecond, 3600000.0), (.minute, 60.0), (.day, 0.041666666666666664),
      (.week, 0.005952380952380952), (.month, 0.0013689253935660506),
      (.year, 0.00011407711613050422)]
  | .day => [
      (.second, 86400.0), (.millisecond, 86400000.0), (.minute, 1440.0), (.hour, 24.0),
      (.week, 0.14285714285714285), (.month, 0.03285420944558522), (.year, 0.0027378507871321013)]
  | .week => [
      (.second, 604800.0), (.millisecond, 604800000.0), (.minute, 10080.0), (.hour, 168.0),
      (.day, 7.0), (.month, 0.2299794661190965), (.year, 0.019164955509924708)]
  | .month => [
      (.second, 2629800.0), (.millisecond, 2629800000.0), (.minute, 43830.0), (.hour, 730.5),
      (.day, 30.4375), (.week, 4.348214285714286), (.year, 0.08333333333333333)]
  | .year => [
      (.second, 31557600.0), (.millisecond, 31557600000.0), (.minute, 525960.0), (.hour, 8766.0),
      (.day, 365.25), (.week, 52.17857142857142), (.month, 12.0)]
  | .byte => [
      (.kilobyte, 0.0009765625), (.megabyte, 9.5367431640625e-07),
      (.gigabyte, 9.313225746154785e-10), (.terabyte, 9.094947017729282e-13),
      (.petabyte, 8.881784197001252e-16), (.bit, 8.0), (.kilobit, 0.0078125),
      (.megabit, 7.62939453125e-06), (.gigabit, 7.450580596923828e-09)]
  | .kilobyte => [
      (.byte, 1024.0), (.megabyte, 0.0009765625), (.gigabyte, 9.5367431640625e-07),
      (.terabyte, 9.313225746154785e-10), (.petabyte, 9.094947017729282e-13), (.bit, 8192.0),
      (.kilobit, 8.0), (.megabit, 0.0078125), (.gigabit, 7.62939453125e-06)]
  | .megabyte => [
      (.byte, 1048576.0), (.kilobyte, 1024.0), (.gigabyte, 0.0009765625),
      (.terabyte, 9.5367431640625e-07), (.petabyte, 9.313225746154785e-10), (.bit, 8388608.0),
      (.kilobit, 8192.0), (.megabit, 8.0), (.gigabit, 0.0078125)]
  | .gigabyte => [
      (.byte, 1073741824.0), (.kilobyte, 1048576.0), (.megabyte, 1024.0), (.terabyte, 0.0009765625),
      (.petabyte, 9.5367431640625e-07), (.bit, 8589934592.0), (.kilobit, 8388608.0),
      (.megabit, 8192.0), (.gigabit, 8.0)]
  | .terabyte => [
      (.byte, 1099511627776.0), (.kilobyte, 1073741824.0), (.megabyte, 1048576.0),
      (.gigabyte, 1024.0), (.petabyte, 0.0009765625), (.bit, 8796093022208.0),
      (.kilobit, 8589934592.0), (.megabit, 8388608.0), (.gigabit, 8192.0)]
  | .petabyte => [
      (.byte, 1125899906842624.0), (.kilobyte, 1099511627776.0), (.megabyte, 1073741824.0),
      (.gigabyte, 1048576.0), (.terabyte, 1024.0), (.bit, 9007199254740992.0),
      (.kilobit, 8796093022208.0), (.megabit, 8589934592.0), (.gigabit, 8388608.0)]
  | .bit => [
      (.byte, 0.125), (.kilobyte, 0.0001220703125), (.megabyte, 1.1920928955078125e-07),
      (.gigabyte, 1.1641532182693481e-10), (.terabyte, 1.1368683772161603e-13),
      (.petabyte, 1.1102230246251565e-16), (.kilobit, 0.0009765625),
      (.megabit, 9.5367431640625e-07), (.gigabit, 9.313225746154785e-10)]
  | .kilobit => [
      (.byte, 128.0), (.kilobyte, 0.125), (.megabyte, 0.0001220703125),
      (.gigabyte, 1.1920928955078125e-07), (.terabyte, 1.1641532182693481e-10),
      (.petabyte, 1.1368683772161603e-13), (.bit, 1024.0), (.megabit, 0.0009765625),
      (.gigabit, 9.5367431640625e-07)]
  | .megabit => [
      (.byte, 131072.0), (.kilobyte, 128.0), (.megabyte, 0.125), (.gigabyte, 0.0001220703125),
      (.terabyte, 1.1920928955078125e-07), (.petabyte, 1.1641532182693481e-10), (.bit, 1048576.0),
      (.kilobit, 1024.0), (.gigabit, 0.0009765625)]
  | .gigabit => [
      (.byte, 134217728.0), (.kilobyte, 131072.0), (.megabyte, 128.0), (.gigabyte, 0.125),
      (.terabyte, 0.0001220703125), (.petabyte, 1.1920928955078125e-07), (.bit, 1073741824.0),
      (.kilobit, 1048576.0), (.megabit, 1024.0)]
  | .squareMeter => [
      (.squareKilometer, 1e-06), (.squareFoot, 10.763910416709724),
      (.squareMile, 3.8610215854244587e-07), (.acre, 0.00024710439304662796), (.hectare, 0.0001)]
  | .squareKilometer => [
      (.squareMeter, 1000000.0), (.squareFoot, 10763910.416709725),
      (.squareMile, 0.38610215854244584), (.acre, 247.10439304662793), (.hectare, 100.0)]
  | .squareFoot => [
      (.squareMeter, 0.09290303999999999), (.squareKilometer, 9.290304e-08),
      (.squareMile, 3.587006427915519e-08), (.acre, 2.295674931138659e-05),
      (.hectare, 9.290303999999999e-06)]
  | .squareMile => [
      (.squareMeter, 2589988.110336), (.squareKilometer, 2.589988110336),
      (.squareFoot, 27878400.000000004), (.acre, 639.9974400025601), (.hectare, 258.9988110336)]
  | .acre => [
      (.squareMeter, 4046.8726098742513), (.squareKilometer, 0.004046872609874251),
      (.squareFoot, 43560.17424052272), (.squareMile, 0.0015625062500187498),
      (.hectare, 0.40468726098742513)]
  | .hectare => [
      (.squareMeter, 10000.0), (.squareKilometer, 0.01), (.squareFoot, 107639.10416709723),
      (.squareMile, 0.0038610215854244585), (.acre, 2.471043930466279)]
  | .liter => [
      (.milliliter, 1000.0), (.gallon, 0.26417205235814856), (.quart, 1.0566882094325942),
      (.pint, 2.1133764188651885), (.cup, 4.226752837730377), (.fluidOunce, 33.814022701843015),
      (.tablespoon, 67.62804540368603), (.teaspoon, 202.8841362110581),
      (.cubicMeter, 0.0010000000000000002)]
  | .milliliter => [
      (.liter, 0.001), (.gallon, 0.00026417205235814854), (.quart, 0.0010566882094325942),
      (.pint, 0.0021133764188651883), (.cup, 0.004226752837730377),
      (.fluidOunce, 0.03381402270184301), (.tablespoon, 0.06762804540368603),
      (.teaspoon, 0.20288413621105808), (.cubicMeter, 1.0000000000000002e-06)]
  | .gallon => [
      (.liter, 3.785411783999999), (.milliliter, 3785.411783999999), (.quart, 4.0), (.pint, 8.0),
      (.cup, 16.0), (.fluidOunce, 128.0), (.tablespoon, 256.0), (.teaspoon, 768.0),
      (.cubicMeter, 0.0037854117839999993)]
  | .quart => [
      (.liter, 0.9463529459999998), (.milliliter, 946.3529459999997), (.gallon, 0.25), (.pint, 2.0),
      (.cup, 4.0), (.fluidOunce, 32.0), (.tablespoon, 64.0), (.teaspoon, 192.0),
      (.cubicMeter, 0.0009463529459999998)]
  | .pint => [
      (.liter, 0.4731764729999999), (.milliliter, 473.1764729999999), (.gallon, 0.125),
      (.quart, 0.5), (.cup, 2.0), (.fluidOunce, 16.0), (.tablespoon, 32.0), (.teaspoon, 96.0),
      (.cubicMeter, 0.0004731764729999999)]
  | .cup => [
      (.liter, 0.23658823649999994), (.milliliter, 236.58823649999994), (.gallon, 0.0625),
      (.quart, 0.25), (.pint, 0.5), (.fluidOunce, 8.0), (.tablespoon, 16.0), (.teaspoon, 48.0),
      (.cubicMeter, 0.00023658823649999996)]
  | .fluidOunce => [
      (.liter, 0.029573529562499992), (.milliliter, 29.573529562499992), (.gallon, 0.0078125),
      (.quart, 0.03125), (.pint, 0.0625), (.cup, 0.125), (.tablespoon, 2.0), (.teaspoon, 6.0),
      (.cubicMeter, 2.9573529562499994e-05)]
  | .tablespoon => [
      (.liter, 0.014786764781249996), (.milliliter, 14.786764781249996), (.gallon, 0.00390625),
      (.quart, 0.015625), (.pint, 0.03125), (.cup, 0.0625), (.fluidOunce, 0.5), (.teaspoon, 3.0),
      (.cubicMeter, 1.4786764781249997e-05)]
  | .teaspoon => [
      (.liter, 0.004928921593749998), (.milliliter, 4.928921593749998),
      (.gallon, 0.0013020833333333333), (.quart, 0.005208333333333333),
      (.pint, 0.010416666666666666), (.cup, 0.020833333333333332),
      (.fluidOunce, 0.16666666666666666), (.tablespoon, 0.3333333333333333),
      (.cubicMeter, 4.928921593749999e-06)]
  | .cubicMeter => [
      (.liter, 999.9999999999999), (.milliliter, 999999.9999999999), (.gallon, 264.1720523581485),
      (.quart, 1056.688209432594), (.pint, 2113.376418865188), (.cup, 4226.752837730376),
      (.fluidOunce, 33814.02270184301), (.tablespoon, 67628.04540368602),
      (.teaspoon, 202884.13621105807)]
  | .kelvin | .celsius | .fahrenheit => []

/-- The kelvins of a reading on a temperature scale. -/
def toKelvin (reading : Float) : MeasureUnit → Float
  | .celsius => reading * 1.0 + 273.15
  | .fahrenheit => reading * 0.5555555555555556 + 255.37222222222223
  | _ => reading

/-- The reading on a temperature scale of so many kelvins. -/
def ofKelvin (kelvins : Float) : MeasureUnit → Float
  | .celsius => (kelvins - 273.15) / 1.0
  | .fahrenheit => (kelvins - 255.37222222222223) / 0.5555555555555556
  | _ => kelvins

/-- An amount of `source` in `target`; nothing if the two measure different quantities. -/
def convert (amount : Float) (source target : MeasureUnit) : Option Float :=
  if source.quantity ≠ target.quantity then none
  else if source = target then some amount
  else if source.quantity = .temperature then some (ofKelvin (toKelvin amount source) target)
  else (source.factors.lookup target).map (amount * ·)

end LineCalc.MeasureUnit
