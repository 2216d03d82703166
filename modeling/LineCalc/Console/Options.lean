import LineCalc.Decimal.Numeral
import LineCalc.Text.Numeral
import LineCalc.Value.Format

/-!
# Command line options

The arguments of a run. Options have a long name, which may be cut short as long as it is clear, and
some a letter, after which the value may follow at once. All arguments that are no options stand
together in one place and make up the expression. After `--` every argument is part of it; so is one
that is a negative number, or that has a space in it and fits no option.
-/

namespace LineCalc

/-- What a run is asked to do. -/
structure Options where
  expression : List String := []
  /-- A file to be evaluated; empty for none. -/
  file : String := ""
  /-- The name of a stored session; empty for none. -/
  session : String := ""
  /-- The precision; none if the option was given without one. -/
  precision : Option Int := some defaultPrecision
  strict : Bool := false
  offline : Bool := false

/-- Why arguments ask for no run. -/
inductive Refusal
  | help
  | misuse
deriving DecidableEq, Repr

/-- The options. -/
inductive OptionName
  | help | file | session | precision | strict | offline
deriving DecidableEq, Repr

namespace OptionName

/-- How the options are written. -/
def spellings : List (String × OptionName) := [
  ("-h", .help), ("--help", .help), ("--file", .file), ("-f", .file), ("--session", .session),
  ("-s", .session), ("--precision", .precision), ("-p", .precision), ("--strict", .strict),
  ("--offline", .offline)]

/-- The option is followed by a value. -/
def takesValue : OptionName → Bool
  | .file | .session | .precision => true
  | .help | .strict | .offline => false

end OptionName

/-- What an argument is. -/
inductive Argument
  | plain
  /-- The mark after which all arguments are plain. -/
  | divider
  /-- An option, by its letter or its long name, with a value written in one argument with it. -/
  | option (name : OptionName) (isLetter : Bool) (attached : Option String)
  /-- It looks like an option, but there is none such. -/
  | unknown

namespace Argument

/-- An argument at its first equals sign: what stands before and, if there is one, after it. -/
def splitAtEquals (arg : String) : String × Option String :=
  let cs := arg.toList
  let before := cs.takeWhile (· != '=')
  (String.ofList before,
    match cs.drop before.length with
    | [] => none
    | _ :: after => some (String.ofList after))

/-- The argument is a negative number without an exponent. -/
def isNegativeNumber (arg : String) : Bool :=
  let isDecimal (c : Char) : Bool := (Text.decimalValue? c).isSome
  let cs := match arg.toList.reverse with
    | '\n' :: rest => rest.reverse
    | _ => arg.toList
  match cs with
  | '-' :: rest =>
    match rest.dropWhile isDecimal with
    | [] => !rest.isEmpty
    | '.' :: decimals => !decimals.isEmpty && decimals.all isDecimal
    | _ => false
  | _ => false

/-- A long name cut short, or a letter with its value. -/
def ofCutShort (arg : String) : Except Refusal (Option Argument) :=
  match arg.toList with
  | '-' :: '-' :: _ =>
    let (start, attached) := splitAtEquals arg
    match OptionName.spellings.filter fun (s, _) => start.toList.isPrefixOf s.toList with
    | [] => .ok none
    | [(_, name)] => .ok (some (.option name false attached))
    | _ => .error .misuse
  | '-' :: letter :: rest =>
    .ok ((OptionName.spellings.lookup (String.ofList ['-', letter])).map fun name =>
      .option name true (some (String.ofList rest)))
  | _ => .ok none

/-- What an argument before any divider is. -/
def classify (arg : String) : Except Refusal Argument :=
  if !arg.startsWith "-" || arg == "-" then .ok .plain
  else match OptionName.spellings.lookup arg with
    | some name => .ok (.option name (!arg.startsWith "--") none)
    | none =>
      let (start, attached) := splitAtEquals arg
      match OptionName.spellings.lookup start, attached with
      | some name, some value => .ok (.option name (!start.startsWith "--") (some value))
      | _, _ => do
        match ← ofCutShort arg with
        | some a => return a
        | none => return if isNegativeNumber arg || arg.contains ' ' then .plain else .unknown

/-- What some arguments are. -/
def classifyAll : List String → Except Refusal (List (String × Argument))
  | [] => .ok []
  | "--" :: rest => .ok (("--", .divider) :: rest.map fun arg => (arg, .plain))
  | arg :: rest => do
    let a ← classify arg
    return (arg, a) :: (← classifyAll rest)

/-- The argument can be part of the expression. -/
def isPlain : Argument → Bool
  | plain | divider => true
  | option .. | unknown => false

/-- The argument is the divider. -/
def isDivider : Argument → Bool
  | divider => true
  | _ => false

end Argument

namespace Options

/-- Sets an option to what is written for its value. Two hyphens stand for no value. -/
def setValue (o : Options) (name : OptionName) (text : String) : Except Refusal Options :=
  let isGiven := text != "--"
  match name with
  | .file => .ok { o with file := if isGiven then text else "" }
  | .session => .ok { o with session := if isGiven then text else "" }
  | .precision =>
    if isGiven then match Decimal.readInteger text with
      | .ok n => .ok { o with precision := some n }
      | .error _ => .error .misuse
    else .ok { o with precision := none }
  | .help => .error .help
  | .strict => .ok { o with strict := true }
  | .offline => .ok { o with offline := true }

/-- What comes of the help letter with more letters behind it. These must be options as well, and one
that takes a value must have one: what is left of the letters, or else the next argument. -/
def helpCluster (isNextPlain : Bool) : List Char → Refusal
  | [] => .help
  | letter :: rest =>
    match OptionName.spellings.lookup (String.ofList ['-', letter]) with
    | none => .misuse
    | some name =>
      if name.takesValue then if rest.isEmpty && !isNextPlain then .misuse else .help
      else helpCluster isNextPlain rest

/-- Goes through the arguments. The expression is where the first plain arguments are; others are
left over, and then the run is refused at the end. -/
def gather (o : Options) (hasExpression leftOver : Bool) :
    List (String × Argument) → Except Refusal Options
  | [] => if leftOver then .error .misuse else .ok o
  | (arg, a) :: rest =>
    match a with
    | .unknown => gather o hasExpression true rest
    | .option name isLetter (some value) =>
      if name.takesValue then
        (o.setValue name value).bind fun o => gather o hasExpression leftOver rest
      else if isLetter && !value.isEmpty then
        .error (helpCluster ((rest.head?.map (·.2)).any fun
          | .plain => true
          | _ => false) value.toList)
      else .error .misuse
    | .option name _ none =>
      if name.takesValue then
        match rest with
        | (value, .plain) :: rest =>
          (o.setValue name value).bind fun o => gather o hasExpression leftOver rest
        | _ => .error .misuse
      else (o.setValue name "").bind fun o => gather o hasExpression leftOver rest
    | .plain | .divider =>
      let run := (arg, a) :: rest.takeWhile (·.2.isPlain)
      let after := rest.dropWhile (·.2.isPlain)
      if hasExpression then gather o true true after
      else
        let words := (run.filter fun (_, b) => !b.isDivider).map (·.1)
        gather { o with expression := words } true leftOver after
termination_by args => args.length
decreasing_by
  all_goals
    have := (rest.dropWhile_sublist (·.2.isPlain)).length_le
    simp_all only [List.length_cons]
    omega

/-- The options that arguments state. -/
def ofArguments (args : List String) : Except Refusal Options := do
  gather {} false false (← Argument.classifyAll args)

end Options

end LineCalc
