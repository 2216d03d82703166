import LineCalc.Files.Path

/-!
# Where rates are saved

Saved rates lie in a folder for such files: the one set for this program, else below the one set
for all programs, else below the home of the account.
-/

namespace LineCalc

/-- The variables of the environment that bear on the place. -/
structure PlaceSettings where
  /-- The folder set for this program. -/
  own : Option String
  /-- The folder set for all programs. -/
  shared : Option String
  /-- The home that is set. -/
  home : Option String
  /-- The home of the account, for want of one that is set. -/
  accountHome : String

namespace PlaceSettings

/-- The home without slashes at its end. -/
def homePath (s : PlaceSettings) : Path :=
  let home := (s.home.getD s.accountHome).toList.reverse.dropWhile (· == '/') |>.reverse
  Path.ofText (if home.isEmpty then "/" else String.ofList home)

/-- The folder of saved rates. Empty settings count as none. -/
def folder (s : PlaceSettings) : Path :=
  match s.own.filter (!·.isEmpty), s.shared.filter (!·.isEmpty) with
  | some own, _ => Path.ofText own
  | none, some shared => (Path.ofText shared).below "numcalc"
  | none, none => (s.homePath.below ".numcalc").below "cache"

end PlaceSettings

/-- The file of saved rates in a folder. -/
def savedRatesIn (folder : Path) : Path := folder.below "rates.json"

end LineCalc
