import LineCalc.Catalog.Name

/-!
# Currencies

The currencies that amounts can be stated in. Forty-five are listed with a symbol and other names;
any other three-letter code stands for a currency of which nothing else is known.
-/

namespace LineCalc

/-- A currency. -/
inductive Currency
  | usDollar | euro | britishPound | japaneseYen | swissFranc | canadianDollar | mexicanPeso
  | brazilianReal | argentinePeso | chileanPeso | colombianPeso | russianRuble | ukrainianHryvnia
  | polishZloty | czechKoruna | swedishKrona | norwegianKrone | danishKrone | hungarianForint
  | romanianLeu | turkishLira | israeliShekel | uaeDirham | saudiRiyal | qatariRiyal | kuwaitiDinar
  | egyptianPound | chineseYuan | hongKongDollar | newTaiwanDollar | southKoreanWon | indianRupee
  | pakistaniRupee | bangladeshiTaka | singaporeDollar | malaysianRinggit | thaiBaht
  | indonesianRupiah | vietnameseDong | philippinePeso | australianDollar | newZealandDollar
  | southAfricanRand | nigerianNaira | kenyanShilling
  /-- A currency known by its code alone. -/
  | unlisted (code : String)
deriving DecidableEq, Repr

namespace Currency

/-- What is known of a currency. -/
structure Entry where
  code : String
  symbol : String
  name : String
  aliases : List String
  /-- The symbol is written after the amount. -/
  symbolAfter : Bool

/-- The listed currencies, in order: where two share a symbol or a name, the first has it. -/
def listed : List Currency := [
  .usDollar, .euro, .britishPound, .japaneseYen, .swissFranc, .canadianDollar, .mexicanPeso,
  .brazilianReal, .argentinePeso, .chileanPeso, .colombianPeso, .russianRuble, .ukrainianHryvnia,
  .polishZloty, .czechKoruna, .swedishKrona, .norwegianKrone, .danishKrone, .hungarianForint,
  .romanianLeu, .turkishLira, .israeliShekel, .uaeDirham, .saudiRiyal, .qatariRiyal, .kuwaitiDinar,
  .egyptianPound, .chineseYuan, .hongKongDollar, .newTaiwanDollar, .southKoreanWon, .indianRupee,
  .pakistaniRupee, .bangladeshiTaka, .singaporeDollar, .malaysianRinggit, .thaiBaht,
  .indonesianRupiah, .vietnameseDong, .philippinePeso, .australianDollar, .newZealandDollar,
  .southAfricanRand, .nigerianNaira, .kenyanShilling]

/-- The entry of a currency. -/
def entry : Currency → Entry
  | .usDollar => ⟨"USD", "$", "US Dollar",
      ["dollar", "dollars", "usd", "bucks", "buck", "us dollar", "us dollars"], false⟩
  | .euro => ⟨"EUR", "€", "Euro", ["euro", "euros"], false⟩
  | .britishPound => ⟨"GBP", "£", "British Pound",
      ["pound", "pounds", "quid", "sterling", "british pound", "british pounds"], false⟩
  | .japaneseYen => ⟨"JPY", "¥", "Japanese Yen", ["yen"], false⟩
  | .swissFranc => ⟨"CHF", "CHF", "Swiss Franc",
      ["franc", "francs", "swiss franc", "swiss francs"], false⟩
  | .canadianDollar => ⟨"CAD", "C$", "Canadian Dollar",
      ["canadian dollar", "canadian dollars", "loonie"], false⟩
  | .mexicanPeso => ⟨"MXN", "MX$", "Mexican Peso", ["peso", "pesos", "mexican peso"], false⟩
  | .brazilianReal => ⟨"BRL", "R$", "Brazilian Real", ["real", "reais", "brazilian real"], false⟩
  | .argentinePeso => ⟨"ARS", "AR$", "Argentine Peso", ["argentine peso"], false⟩
  | .chileanPeso => ⟨"CLP", "CL$", "Chilean Peso", ["chilean peso"], false⟩
  | .colombianPeso => ⟨"COP", "CO$", "Colombian Peso", ["colombian peso"], false⟩
  | .russianRuble => ⟨"RUB", "₽", "Russian Ruble", ["ruble", "rubles", "rouble", "roubles"], true⟩
  | .ukrainianHryvnia => ⟨"UAH", "₴", "Ukrainian Hryvnia", ["hryvnia"], true⟩
  | .polishZloty => ⟨"PLN", "zł", "Polish Zloty", ["zloty", "złoty"], true⟩
  | .czechKoruna => ⟨"CZK", "Kč", "Czech Koruna", ["koruna"], true⟩
  | .swedishKrona => ⟨"SEK", "kr", "Swedish Krona", ["krona", "swedish krona"], true⟩
  | .norwegianKrone => ⟨"NOK", "kr", "Norwegian Krone", ["norwegian krone"], true⟩
  | .danishKrone => ⟨"DKK", "kr", "Danish Krone", ["danish krone"], true⟩
  | .hungarianForint => ⟨"HUF", "Ft", "Hungarian Forint", ["forint"], true⟩
  | .romanianLeu => ⟨"RON", "lei", "Romanian Leu", ["leu", "lei"], true⟩
  | .turkishLira => ⟨"TRY", "₺", "Turkish Lira",
      ["try", "tl", "lira", "liras", "turkish lira", "turk lirasi"], true⟩
  | .israeliShekel => ⟨"ILS", "₪", "Israeli Shekel", ["shekel", "shekels", "nis"], false⟩
  | .uaeDirham => ⟨"AED", "د.إ", "UAE Dirham", ["dirham", "dirhams"], false⟩
  | .saudiRiyal => ⟨"SAR", "﷼", "Saudi Riyal", ["riyal", "saudi riyal"], false⟩
  | .qatariRiyal => ⟨"QAR", "﷼", "Qatari Riyal", ["qatari riyal"], false⟩
  | .kuwaitiDinar => ⟨"KWD", "د.ك", "Kuwaiti Dinar", ["kuwaiti dinar"], false⟩
  | .egyptianPound => ⟨"EGP", "E£", "Egyptian Pound", ["egyptian pound"], false⟩
  | .chineseYuan => ⟨"CNY", "¥", "Chinese Yuan", ["yuan", "rmb", "renminbi"], false⟩
  | .hongKongDollar => ⟨"HKD", "HK$", "Hong Kong Dollar",
      ["hong kong dollar", "hong kong dollars"], false⟩
  | .newTaiwanDollar => ⟨"TWD", "NT$", "New Taiwan Dollar", ["taiwan dollar"], false⟩
  | .southKoreanWon => ⟨"KRW", "₩", "South Korean Won",
      ["won", "korean won", "south korean won"], false⟩
  | .indianRupee => ⟨"INR", "₹", "Indian Rupee",
      ["rupee", "rupees", "indian rupee", "indian rupees"], false⟩
  | .pakistaniRupee => ⟨"PKR", "₨", "Pakistani Rupee", ["pakistani rupee"], false⟩
  | .bangladeshiTaka => ⟨"BDT", "৳", "Bangladeshi Taka", ["taka"], false⟩
  | .singaporeDollar => ⟨"SGD", "S$", "Singapore Dollar", ["singapore dollar"], false⟩
  | .malaysianRinggit => ⟨"MYR", "RM", "Malaysian Ringgit", ["ringgit"], false⟩
  | .thaiBaht => ⟨"THB", "฿", "Thai Baht", ["baht", "bath"], false⟩
  | .indonesianRupiah => ⟨"IDR", "Rp", "Indonesian Rupiah", ["rupiah"], false⟩
  | .vietnameseDong => ⟨"VND", "₫", "Vietnamese Dong", ["dong"], true⟩
  | .philippinePeso => ⟨"PHP", "₱", "Philippine Peso", ["philippine peso"], false⟩
  | .australianDollar => ⟨"AUD", "A$", "Australian Dollar",
      ["australian dollar", "australian dollars", "aussie dollar"], false⟩
  | .newZealandDollar => ⟨"NZD", "NZ$", "New Zealand Dollar",
      ["new zealand dollar", "new zealand dollars", "kiwi dollar"], false⟩
  | .southAfricanRand => ⟨"ZAR", "R", "South African Rand", ["rand", "south african rand"], false⟩
  | .nigerianNaira => ⟨"NGN", "₦", "Nigerian Naira", ["naira"], false⟩
  | .kenyanShilling => ⟨"KES", "KSh", "Kenyan Shilling", ["shilling", "kenyan shilling"], false⟩
  | .unlisted code => ⟨code, code, code, [], false⟩

/-- The code of a currency, three letters. -/
def code (c : Currency) : String := c.entry.code

/-- The symbol that amounts are written with. -/
def symbol (c : Currency) : String := c.entry.symbol

/-- The symbols of the listed currencies, each once. -/
def symbols : List String := (listed.map symbol).eraseDups

/-- The listed currency with exactly this code. -/
def withCode? (code : String) : Option Currency := listed.find? (·.code == code)

/-- The listed currency with exactly this symbol. -/
def ofSymbol? (symbol : String) : Option Currency := listed.find? (·.symbol == symbol)

/-- The listed currency with this alias, code or symbol; of the three only a symbol depends on
case. -/
def ofName? (name : String) : Option Currency :=
  let key := Name.normalize name
  (listed.find? (·.entry.aliases.contains key))
    <|> withCode? (Text.upper key)
    <|> ofSymbol? (Text.trim name)

/-- The listed currency with this code, in any case. -/
def ofCode? (code : String) : Option Currency := withCode? (Name.asCode code)

/-- The currency with this code, listed or not: three letters suffice. -/
def ofAnyCode? (code : String) : Option Currency :=
  let code := Name.asCode code
  withCode? code <|>
    if code.length == 3 && code.toList.all Text.isLetter then some (.unlisted code) else none

end Currency

end LineCalc
