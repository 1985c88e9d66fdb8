import Cleartext.Settings.Basic

/-!
# Flags

Options on a command line.  A long flag is written `--name`, `--name=value` or
`--name value`; short flags of one letter may share a dash.  A truth value
needs no value of its own.  Flags and arguments may be mixed, and everything
behind `--` is an argument.
-/

namespace Cleartext.Command

open Yaml (Value)

/-- What the value of a flag is. -/
inductive FlagType
  | bool
  | int
  | duration
  | text
deriving DecidableEq, Repr

/-- The value of a flag that counts as none. -/
def FlagType.zero : FlagType → Value
  | .bool => .bool false
  | .int => .int 0
  | .duration => .text "0s"
  | .text => .text ""

/-- A flag of a command. -/
structure Flag where
  name : String
  type : FlagType
  usage : String
  short : Option Char := none
  default : Value := type.zero
  /-- The setting that the flag is for. -/
  key : String := ""

/-- The flag as messages name it. -/
def Flag.title (f : Flag) : String :=
  match f.short with
  | some c => s!"-{c}, --{f.name}"
  | none => "--" ++ f.name

/-- Why flags are refused. -/
inductive FlagFlaw
  | form (arg : String)
  | unknown (name : String)
  | unknownShort (letter : Char) (letters : String)
  | noValue (name : String)
  | noShortValue (letter : Char) (letters : String)
  | badValue (flag : Flag) (value why : String)

/-- The wording of a refusal. -/
def FlagFlaw.message : FlagFlaw → String
  | .form arg => "bad flag syntax: " ++ arg
  | .unknown name => "unknown flag: --" ++ name
  | .unknownShort letter letters =>
    "unknown shorthand flag: " ++ Text.quoteChar letter ++ " in -" ++ letters
  | .noValue name => "flag needs an argument: --" ++ name
  | .noShortValue letter letters =>
    "flag needs an argument: " ++ Text.quoteChar letter ++ " in -" ++ letters
  | .badValue flag value why =>
    s!"invalid argument {Text.quote value} for {Text.quote flag.title} flag: {why}"

/-- A flag with the value that it was given. -/
structure Given where
  flag : Flag
  value : Value

/-- Reads the value of a flag. -/
def Flag.read (f : Flag) (text : String) : Except FlagFlaw Given :=
  match f.type with
  | .text => .ok ⟨f, .text text⟩
  | .bool =>
    match Decimal.readBool text with
    | .ok b => .ok ⟨f, .bool b⟩
    | .error flaw => .error (.badValue f text (Replay.readingFlaw "ParseBool" text flaw))
  | .int =>
    match Decimal.readInt64 text with
    | .ok n => .ok ⟨f, .int n⟩
    | .error flaw => .error (.badValue f text (Replay.readingFlaw "ParseInt" text flaw))
  | .duration =>
    match Settings.Duration.parse text with
    | .ok d => .ok ⟨f, .text d.text⟩
    | .error flaw => .error (.badValue f text (flaw.message text))

/-- What a command line says: flags in order, and arguments. -/
structure Line where
  given : List Given := []
  args : List String := []

/-- A line with a flag in front. -/
def Line.giving (g : Given) (l : Line) : Line := { l with given := g :: l.given }

/-- A line with an argument in front. -/
def Line.taking (arg : String) (l : Line) : Line := { l with args := arg :: l.args }


/-- Reads a long flag without its dashes. -/
def readLong (flags : List Flag) (arg text : String) : Except FlagFlaw (Flag × Option String) :=
  if text.startsWith "-" || text.startsWith "=" then .error (.form arg)
  else
    let name := String.ofList (text.toList.takeWhile (· ≠ '='))
    match flags.find? fun f => f.name = name with
    | none => .error (.unknown name)
    | some f =>
      match text.toList.dropWhile (· ≠ '=') with
      | _ :: value => .ok (f, some (String.ofList value))
      | [] => .ok (f, if f.type = .bool then some "true" else none)

/-- Reads short flags that share a dash: the values given, and the flag that
still needs one with the letters it was written in. -/
def readShorts (flags : List Flag) : List Char → Except FlagFlaw (List Given × Option (Flag × String))
  | [] => .ok ([], none)
  | c :: rest =>
    match flags.find? fun f => f.short = some c with
    | none => .error (.unknownShort c (String.ofList (c :: rest)))
    | some f =>
      match rest with
      | '=' :: v :: value => do return ([← f.read (String.ofList (v :: value))], none)
      | rest =>
        if f.type = .bool then do
          let g ← f.read "true"
          let (more, open_) ← readShorts flags rest
          return (g :: more, open_)
        else if rest.isEmpty then .ok ([], some (f, String.ofList [c]))
        else do return ([← f.read (String.ofList rest)], none)

/-- Reads a command line. -/
def readLine (flags : List Flag) : List String → Except FlagFlaw Line
  | [] => .ok {}
  | arg :: rest =>
    if arg = "--" then .ok { args := rest }
    else if arg.startsWith "--" then do
      match ← readLong flags arg (String.ofList (arg.toList.drop 2)), rest with
      | (f, some value), rest =>
        let g ← f.read value
        return (← readLine flags rest).giving g
      | (f, none), [] => throw (.noValue f.name)
      | (f, none), value :: rest =>
        let g ← f.read value
        return (← readLine flags rest).giving g
    else if arg.startsWith "-" && arg ≠ "-" then do
      let (given, open_) ← readShorts flags (arg.toList.drop 1)
      let add (l : Line) (given : List Given) : Line := { l with given := given ++ l.given }
      match open_, rest with
      | none, rest => return add (← readLine flags rest) given
      | some (f, letters), [] => throw (.noShortValue (f.short.getD ' ') letters)
      | some (f, _), value :: rest =>
        let g ← f.read value
        return add (← readLine flags rest) (given ++ [g])
    else do return (← readLine flags rest).taking arg

/-- The value that was given for a flag; the last one counts. -/
def Line.value? (l : Line) (name : String) : Option Value :=
  (l.given.reverse.find? fun g => g.flag.name = name).map (·.value)

end Cleartext.Command
