import LineCalc.Catalog.Name
import LineCalc.Token

/-!
# Phrases

Some names are several words (`hong kong dollar`, `square feet`) and are scanned as one. A further
word has to follow a space or a tab, never a line break, and all words of a phrase have to be there.
-/

namespace LineCalc.Token

open LineCalc.Text

/-- The blanks inside a line. -/
def isGap (c : Char) : Bool := c == ' ' || c == '\t' || c == '\r'

/-- The words that may follow a first word, longer sequences before shorter ones. -/
def continuations (first : String) : List (List String) :=
  match first with
  | "turkish" => [["lira"]]
  | "hong" => [["kong", "dollar"], ["kong", "dollars"]]
  | "new" => [["zealand", "dollar"], ["zealand", "dollars"]]
  | "south" => [["african", "rand"], ["korean", "won"]]
  | "saudi" => [["riyal"]]
  | "swiss" => [["franc"], ["francs"]]
  | "british" => [["pound"], ["pounds"]]
  | "us" | "canadian" | "australian" => [["dollar"], ["dollars"]]
  | "mexican" => [["peso"]]
  | "brazilian" => [["real"]]
  | "indian" => [["rupee"], ["rupees"]]
  | "square" =>
    [["meter"], ["meters"], ["foot"], ["feet"], ["mile"], ["miles"], ["kilometer"],
      ["kilometers"]]
  | "cubic" => [["meter"], ["meters"]]
  | "fluid" | "troy" => [["ounce"], ["ounces"]]
  | "fl" => [["oz"]]
  | "nautical" => [["mile"], ["miles"]]
  | _ => []

/-- The length of the given words at the start of a text, each after blanks; nothing if one of them
is missing. -/
def wordsLength? : List String → List Char → Option Nat
  | [], _ => some 0
  | expected :: more, cs =>
    if cs.head?.any fun c => c == ' ' || c == '\t' then
      let gap := (cs.takeWhile isGap).length
      let word := leadingWord (cs.drop gap)
      if lower (String.ofList word) == expected then
        let length := gap + word.length
        (wordsLength? more (cs.drop length)).map (length + ·)
      else none
    else none

/-- The length of what continues a phrase that begins with `first`, in front of `cs`. -/
def phraseLength (first : String) (cs : List Char) : Nat :=
  ((continuations (lower first)).findSome? (wordsLength? · cs)).getD 0

end LineCalc.Token
