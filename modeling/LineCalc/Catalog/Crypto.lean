import LineCalc.Catalog.Name

/-!
# Cryptocurrencies

Tokens are priced in dollars: one token is worth so many of them. A lower-case code names a token
only where it is listed as an alias, so that words such as `ton`, `link` or `near` stay free.
-/

namespace LineCalc

/-- A cryptocurrency. -/
inductive Crypto
  | bitcoin | ethereum | tether | usdCoin | dai | binanceUsd | bnb | solana | xrp | cardano
  | dogecoin | polkadot | polygon | avalanche | litecoin | chainlink | cosmos | uniswap | stellar
  | algorand | toncoin | aave | maker | curve | nearProtocol | aptos | arbitrum | optimism
  | shibaInu | pepe | dogwifhat | bonk
deriving DecidableEq, Repr

namespace Crypto

/-- What is known of a cryptocurrency. -/
structure Entry where
  code : String
  symbol : Option String
  name : String
  aliases : List String
  /-- The least precision that amounts are shown with. -/
  decimals : Nat
  /-- The name of the token at the price service. -/
  priceId : String

/-- All cryptocurrencies, in order. -/
def all : List Crypto := [
  .bitcoin, .ethereum, .tether, .usdCoin, .dai, .binanceUsd, .bnb, .solana, .xrp, .cardano,
  .dogecoin, .polkadot, .polygon, .avalanche, .litecoin, .chainlink, .cosmos, .uniswap, .stellar,
  .algorand, .toncoin, .aave, .maker, .curve, .nearProtocol, .aptos, .arbitrum, .optimism,
  .shibaInu, .pepe, .dogwifhat, .bonk]

/-- The entry of a cryptocurrency. -/
def entry : Crypto → Entry
  | .bitcoin => ⟨"BTC", some "₿", "Bitcoin", ["bitcoin", "bitcoins", "btc", "xbt"], 8, "bitcoin"⟩
  | .ethereum => ⟨"ETH", some "Ξ", "Ethereum", ["ethereum", "ether", "eth"], 6, "ethereum"⟩
  | .tether => ⟨"USDT", some "₮", "Tether", ["tether", "usdt"], 2, "tether"⟩
  | .usdCoin => ⟨"USDC", none, "USD Coin", ["usd coin", "usdc"], 2, "usd-coin"⟩
  | .dai => ⟨"DAI", none, "Dai", ["dai"], 2, "dai"⟩
  | .binanceUsd => ⟨"BUSD", none, "Binance USD", ["busd"], 2, "binance-usd"⟩
  | .bnb => ⟨"BNB", none, "BNB", ["binance coin", "bnb"], 4, "binancecoin"⟩
  | .solana => ⟨"SOL", some "◎", "Solana", ["solana", "sol"], 4, "solana"⟩
  | .xrp => ⟨"XRP", none, "XRP", ["ripple", "xrp"], 4, "ripple"⟩
  | .cardano => ⟨"ADA", some "₳", "Cardano", ["cardano", "ada"], 4, "cardano"⟩
  | .dogecoin => ⟨"DOGE", some "Ð", "Dogecoin", ["dogecoin", "doge"], 4, "dogecoin"⟩
  | .polkadot => ⟨"DOT", none, "Polkadot", ["polkadot", "dot"], 4, "polkadot"⟩
  | .polygon => ⟨"MATIC", none, "Polygon", ["polygon", "matic"], 4, "matic-network"⟩
  | .avalanche => ⟨"AVAX", none, "Avalanche", ["avalanche", "avax"], 4, "avalanche-2"⟩
  | .litecoin => ⟨"LTC", some "Ł", "Litecoin", ["litecoin", "ltc"], 4, "litecoin"⟩
  | .chainlink => ⟨"LINK", none, "Chainlink", ["chainlink"], 4, "chainlink"⟩
  | .cosmos => ⟨"ATOM", none, "Cosmos", ["cosmos", "atom"], 4, "cosmos"⟩
  | .uniswap => ⟨"UNI", none, "Uniswap", ["uniswap", "uni"], 4, "uniswap"⟩
  | .stellar => ⟨"XLM", none, "Stellar", ["stellar", "lumens", "xlm"], 4, "stellar"⟩
  | .algorand => ⟨"ALGO", none, "Algorand", ["algorand", "algo"], 4, "algorand"⟩
  | .toncoin => ⟨"TON", none, "Toncoin", ["toncoin"], 4, "the-open-network"⟩
  | .aave => ⟨"AAVE", none, "Aave", ["aave"], 4, "aave"⟩
  | .maker => ⟨"MKR", none, "Maker", ["maker", "mkr"], 4, "maker"⟩
  | .curve => ⟨"CRV", none, "Curve", ["curve", "crv"], 4, "curve-dao-token"⟩
  | .nearProtocol => ⟨"NEAR", none, "NEAR Protocol", ["near protocol"], 4, "near"⟩
  | .aptos => ⟨"APT", none, "Aptos", ["aptos", "apt"], 4, "aptos"⟩
  | .arbitrum => ⟨"ARB", none, "Arbitrum", ["arbitrum", "arb"], 4, "arbitrum"⟩
  | .optimism => ⟨"OP", none, "Optimism", ["optimism"], 4, "optimism"⟩
  | .shibaInu => ⟨"SHIB", none, "Shiba Inu", ["shiba", "shiba inu", "shib"], 8, "shiba-inu"⟩
  | .pepe => ⟨"PEPE", none, "Pepe", ["pepe"], 8, "pepe"⟩
  | .dogwifhat => ⟨"WIF", none, "dogwifhat", ["dogwifhat", "wif"], 4, "dogwifcoin"⟩
  | .bonk => ⟨"BONK", none, "Bonk", ["bonk"], 8, "bonk"⟩

/-- The code of a cryptocurrency. -/
def code (k : Crypto) : String := k.entry.code

/-- The symbols of cryptocurrencies. -/
def symbols : List String := all.filterMap (·.entry.symbol)

/-- The cryptocurrency with exactly this code. -/
def withCode? (code : String) : Option Crypto := all.find? (·.code == code)

/-- The cryptocurrency with exactly this symbol. -/
def ofSymbol? (symbol : String) : Option Crypto := all.find? (·.entry.symbol == some symbol)

/-- The cryptocurrency with this alias in any case, or with exactly this code or symbol. -/
def ofName? (name : String) : Option Crypto :=
  let key := Name.normalize name
  let exact := Text.trim name
  (all.find? (·.entry.aliases.contains key)) <|> withCode? exact <|> ofSymbol? exact

/-- The cryptocurrency with this code, in any case. -/
def ofCode? (code : String) : Option Crypto := withCode? (Name.asCode code)

/-- The cryptocurrency with this name at the price service. -/
def ofPriceId? (id : String) : Option Crypto := all.find? (·.entry.priceId == id)

end Crypto

end LineCalc
