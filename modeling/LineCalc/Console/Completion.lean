import LineCalc.Console.Command
import LineCalc.Evaluation.Builtin

/-!
# Completion

The words that a word at the prompt may be completed to: first functions, codes and commands in one
order, then the variables.
-/

namespace LineCalc

/-- The words that are known in every session, in order. -/
def knownWords : List String :=
  let words := Builtin.names ++ Currency.listed.map (·.code) ++ Crypto.all.map (·.code)
    ++ Metal.all.map (·.code) ++ MeasureUnit.all.map (·.code) ++ Command.keywords
  words.eraseDups.mergeSort fun a b => a ≤ b

/-- The completions of a word. -/
def Session.completions (s : Session) (word : String) : List String :=
  (knownWords ++ s.variableNames).filter (word.toList.isPrefixOf ·.toList)

end LineCalc
