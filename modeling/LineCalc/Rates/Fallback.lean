/-!
# Fallback quotes

A snapshot of exchange rates for use before any are fetched. A currency is quoted as what one
dollar is worth in it; a token and an ounce of a metal as what they are worth in dollars.
-/

namespace LineCalc

/-- What one dollar is worth in other currencies. -/
def fallbackCurrencies : List (String × Float) := [
  ("EUR", 0.92), ("GBP", 0.79), ("JPY", 149.5), ("CHF", 0.88), ("CAD", 1.36), ("AUD", 1.53),
  ("CNY", 7.24), ("INR", 83.12), ("KRW", 1320.0), ("MXN", 17.15), ("BRL", 4.97), ("RUB", 92.5),
  ("TRY", 32.5), ("ZAR", 18.65), ("SGD", 1.34), ("HKD", 7.82), ("NOK", 10.65), ("SEK", 10.42),
  ("DKK", 6.87), ("PLN", 3.98), ("THB", 35.2), ("IDR", 15650.0), ("MYR", 4.72), ("PHP", 55.8),
  ("CZK", 22.85), ("ILS", 3.72), ("AED", 3.67), ("SAR", 3.75), ("TWD", 31.5), ("HUF", 355.0),
  ("UAH", 41.0), ("VND", 24500.0), ("EGP", 30.9), ("PKR", 285.0), ("BDT", 110.0),
  ("NGN", 800.0), ("ARS", 850.0), ("CLP", 880.0), ("COP", 3950.0), ("KES", 155.0),
  ("QAR", 3.64), ("KWD", 0.31), ("RON", 4.57), ("NZD", 1.64)]

/-- What one token is worth in dollars. -/
def fallbackTokens : List (String × Float) := [
  ("BTC", 95000.0), ("ETH", 3500.0), ("SOL", 180.0), ("BNB", 650.0), ("XRP", 2.2),
  ("ADA", 0.95), ("DOGE", 0.38), ("DOT", 7.5), ("MATIC", 0.55), ("LTC", 105.0), ("LINK", 22.0),
  ("AVAX", 42.0), ("ATOM", 9.5), ("UNI", 12.0), ("XLM", 0.42), ("ALGO", 0.35), ("TON", 6.5),
  ("NEAR", 5.8), ("APT", 12.5), ("ARB", 1.1), ("OP", 2.8), ("AAVE", 350.0), ("MKR", 3200.0),
  ("CRV", 0.85), ("SHIB", 0.000025), ("PEPE", 0.000018), ("WIF", 2.5), ("BONK", 0.000032),
  ("USDT", 1.0), ("USDC", 1.0), ("DAI", 1.0), ("BUSD", 1.0)]

/-- What one ounce is worth in dollars. -/
def fallbackMetals : List (String × Float) := [
  ("XAU", 2650.0), ("XAG", 31.5), ("XPT", 1020.0), ("XPD", 1100.0)]

/-- All fallback quotes. -/
def fallbackQuotes : List (String × Float) :=
  fallbackCurrencies ++ fallbackTokens ++ fallbackMetals

end LineCalc
