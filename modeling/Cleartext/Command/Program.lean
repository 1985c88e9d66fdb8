import Cleartext.Command.Help
import Cleartext.Command.Runs
import Cleartext.Settings.Example
import Cleartext.Settings.Schema

/-!
# The program

A command line is read, the settings are gathered, and the command is carried
out.  A failure is told, and the program answers whether it succeeded.
-/

namespace Cleartext.Command

open Settings (Sources)

section

variable {m : Type → Type} [Monad m] [Host m]

/-! ## The configuration file -/

/-- The place of the configuration file in a home directory. -/
def settingsPath (home : String) : String := Host.joinPath home ".config/destringer/config.yaml"

/-- Writes an example of a configuration file. -/
def writeSettings (c : Console) : Task m Unit := do
  let given := c.sources.text "config.init.output"
  let path ←
    if given ≠ "" then pure given
    else match c.environment.valueOf "HOME" with
      | none | some "" => throw (.other "failed to get user home directory: $HOME is not defined")
      | some home => pure (settingsPath home)
  onFile (Host.makeDirectories (Host.parentPath path))
  let data := Bytes.ofText Settings.exampleDocument
  if c.sources.bool "config.init.force" then onFile (Host.write path data)
  else onFile (Host.writeNew path data)
  c.tell (.plain .info "config created; please edit accordingly to your needs" [("file", path)])

/-- Writes the description of configuration files. -/
def writeSchema (c : Console) : Task m Unit := do
  let text := Settings.schema.render "\t" ""
  let path := c.sources.text "config.schema.output"
  if path = "-" then answer (text ++ "\n")
  else
    let write : m (Except Host.FileFlaw Unit) := do
      match ← Host.makeDirectories (Host.parentPath path) with
      | .error flaw => return .error flaw
      | .ok () => Host.write path (Bytes.ofText text)
    orFail (do return during "failed to write jsonschema file" ((← write).mapError Host.FileFlaw.error))

/-- The names of configuration files in their directory, in the order in which
they are looked for. -/
def settingsNames : List String := ["config.json", "config.toml", "config.yaml", "config.yml", "config"]

/-- The extensions of configuration files that can be read. -/
def settingsExtensions : List String := [".yaml", ".yml", ".json"]

/-- Reads a configuration file and tells which one it was.  A file that cannot
be read counts as empty. -/
def readSettingsAt (format : Yaml.Format) (path : String) : m (List (String × Yaml.Value)) := do
  match ← Host.read path with
  | .error _ => return []
  | .ok bytes =>
    match Settings.readDocument format (Text.lossy bytes) with
    | .error _ => return []
    | .ok pairs =>
      Host.report s!"Using config file: {path}\n"
      return Settings.loweredPairs pairs

/-- Reads the first configuration file that is there. -/
def readFirst (format : Yaml.Format) : List String → m (List (String × Yaml.Value))
  | [] => return []
  | path :: rest => do
    match ← Host.kind path with
    | .file => readSettingsAt format path
    | _ => readFirst format rest

/-- Reads the configuration file that is asked for, or the one in the home
directory. -/
def readSettings (env : Environment) (given : String) : Task m (List (String × Yaml.Value)) := do
  let format := env.libraries.format
  if given ≠ "" then
    if Host.extension given ∈ settingsExtensions then (readSettingsAt format given : m _)
    else return []
  else match env.valueOf "HOME" with
    | none | some "" => throw (.other "$HOME is not defined")
    | some home =>
      let directory := Host.parentPath (settingsPath home)
      (readFirst format (settingsNames.map (Host.joinPath directory)) : m _)

/-! ## Carrying out a command -/

/-- Refuses a wrong number of arguments. -/
def Arity.check (c : Command) (args : List String) : Arity → Except Error Unit
  | .none =>
    match args with
    | [] => .ok ()
    | word :: _ => .error (.other s!"unknown command {Text.quote word} for {Text.quote c.fullName}")
  | .exactly n =>
    if args.length = n then .ok ()
    else .error (.other s!"accepts {n} arg(s), received {args.length}")
  | .between least most =>
    if least ≤ args.length && args.length ≤ most then .ok ()
    else .error (.other s!"accepts between {least} and {most} arg(s), received {args.length}")

/-- Refuses flags that exclude one another. -/
def checkExclusive (c : Command) (line : Line) : Except Error Unit :=
  let set := (c.exclusive.filter fun name => (line.value? name).isSome).mergeSort
  if set.length ≤ 1 then .ok ()
  else
    let group := " ".intercalate c.exclusive
    let names := " ".intercalate set
    .error (.other
      s!"if any flags in the group [{group}] are set none of the others can be; [{names}] were all set")

/-- Prints what is known about a command. -/
def showHelp (words : List String) : m Unit :=
  let (c, rest) := findCommand words
  if c.path.isEmpty && !(plainWords c.knownFlags rest).isEmpty then
    let topic := " ".intercalate (words.map fun w => "`" ++ w ++ "`")
    Host.report s!"Unknown help topic [{topic}]\n{root.usage}"
  else Host.print c.help

/-- Carries out an action. -/
def perform (c : Console) (action : Action) (args : List String) : Task m Unit :=
  let arg (n : Nat) : String := (args[n]?).getD ""
  match action with
  | .decrypt => decrypt c (arg 0)
  | .scan => scan c (arg 0)
  | .list => list c (arg 0) (arg 1)
  | .emulate => emulate c (arg 0) (arg 1)
  | .compare => compare c (arg 0) (arg 1) (arg 2)
  | .writeSettings => writeSettings c
  | .writeSchema => writeSchema c
  | .showVersion => answer "Version: dev\n"
  | .help => (showHelp args : m Unit)

/-- Whether answers are coloured when nothing is said about it. -/
def Environment.likesColor (env : Environment) : Bool :=
  env.isTerminal && ((env.valueOf "NO_COLOR").getD "" = "") && env.valueOf "TERM" ≠ some "dumb"

/-- Tells a failure of a command, and answers that the program failed. -/
def failed (c : Command) (colored : Bool) (message : String) : m UInt32 := do
  if !c.isQuiet then Host.report s!"Error: {message}\n{c.usage}\n"
  Host.report ({ Run.LogLine.plain .error message with indent := Run.outerIndent }.render colored)
  return 1

/-- Gathers the settings for a command line. -/
def gather (env : Environment) (line : Line) : Task m Sources := do
  let given := match line.value? "config" with
    | some (.text path) => path
    | _ => ""
  let file ← readSettings env given
  let given := line.given.reverse.filterMap fun g =>
    if g.flag.key = "" then none else some (g.flag.key, g.value)
  return { given, environment := env.valueOf, file, defaults := defaultSettings
           cast := env.libraries.cast }

/-- Carries out a command with its flags and arguments. -/
def execute (env : Environment) (c : Command) (action : Action) (line : Line) : m UInt32 := do
  match ← (gather env line).run with
  | .error e =>
    Host.report ("Error: " ++ e.message ++ "\n")
    return 1
  | .ok sources =>
    match c.arity.check c line.args, Settings.load env.processors sources.pairs with
    | .error e, _ => failed c env.likesColor e.message
    | _, .error flaw => failed c env.likesColor flaw.message
    | .ok (), .ok settings =>
      let colored := settings.forceColor.getD env.likesColor
      let console : Console := { environment := env, sources, settings, colored }
      match ← (do checkExclusive c line; perform console action line.args : Task m Unit).run with
      | .ok () => return 0
      | .error e => failed c colored e.message

/-- The program. -/
def program (env : Environment) (args : List String) : m UInt32 := do
  let (c, rest) := findCommand args
  match c.path, plainWords c.knownFlags rest with
  | [], word :: _ =>
    let message := unknownCommand c word
    Host.report s!"Error: {message}\nRun '{c.fullName} --help' for usage.\n"
    failed { c with isQuiet := true } env.likesColor message
  | _, _ =>
    match readLine c.allFlags rest with
    | .error flaw => failed c env.likesColor flaw.message
    | .ok line =>
      match line.value? "help", c.action with
      | some (.bool true), _ | _, none => do
        Host.print c.help
        return 0
      | _, some .help => do
        showHelp line.args
        return 0
      | _, some action => execute env c action line

end

end Cleartext.Command
