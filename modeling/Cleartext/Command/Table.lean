import Cleartext.Command.Flag

/-!
# Commands

The commands of the program, their flags and their words of help.
-/

namespace Cleartext

namespace Command

/-- How many arguments a command takes. -/
inductive Arity
  | none
  | exactly (n : Nat)
  | between (least most : Nat)

/-- What a command does. -/
inductive Action
  | decrypt
  | scan
  | list
  | emulate
  | compare
  | writeSettings
  | writeSchema
  | showVersion
  | help

end Command

open Command in
/-- A command. -/
structure Command where
  /-- The words that call the command. -/
  path : List String
  /-- The arguments, as the usage shows them. -/
  operands : String := ""
  summary : String
  examples : List String := []
  aliases : List String := []
  arity : Arity := .none
  flags : List Flag := []
  /-- Flags of which only one may be given. -/
  exclusive : List String := []
  /-- What the command does; a command without an action has commands of its
  own. -/
  action : Option Action := none
  /-- Whether a failure is told by the program alone. -/
  isQuiet : Bool := true

namespace Command

/-- The name of the program. -/
def programName : String := "destringer"

/-- The last word of a command. -/
def name (c : Command) : String := c.path.getLastD programName

/-- All words of a command. -/
def fullName (c : Command) : String := " ".intercalate (programName :: c.path)

/-- The flags that every command has. -/
def commonFlags : List Flag :=
  [{ name := "config", type := .text,
     usage := "config file (default is $HOME/.config/destringer/config.yaml)" },
   { name := "verbose", type := .bool, usage := "verbose output", short := 'V', key := "verbose" },
   { name := "color", type := .bool, usage := "force colorized output", key := "color" },
   { name := "no-color", type := .bool, usage := "disable colorized output", key := "no-color" }]

/-- The program itself. -/
def root : Command :=
  { path := [], summary := "Recover the string literals hidden by a bytecode string encrypter",
    isQuiet := false }

/-- The command that decrypts. -/
def decryptCommand : Command :=
  { path := ["decrypt"], operands := "<JAR>"
    summary := "Replace encrypted string literals with their plaintext"
    examples := [
      "# Decrypt every string of an archive",
      "❯ destringer decrypt app.jar -o app-clean.jar",
      "",
      "# Only report what would be decrypted",
      "❯ destringer decrypt app.jar --dry-run --json -",
      "",
      "# Keep replayable states of the calls that failed",
      "❯ destringer decrypt app.jar --state-dir states/",
      "❯ destringer emu app.jar states/com.example.Main.run@12.yaml"]
    aliases := ["d", "dec"], arity := .exactly 1, action := some .decrypt
    flags := [
      { name := "output", type := .text, short := 'o', key := "decrypt.output"
        usage := "Output archive (default: <input>.decrypted.jar)" },
      { name := "timeout", type := .duration, default := .text "5s", key := "decrypt.timeout"
        usage := "Time limit for a single decrypt call" },
      { name := "max-steps", type := .int, default := .int 5000000, key := "decrypt.max-steps"
        usage := "Instruction budget for a single decrypt call" },
      { name := "cache-size", type := .int, default := .int 256, key := "decrypt.cache-size"
        usage := "Number of prepared decrypt routines to keep" },
      { name := "parallel", type := .int, short := 'p', key := "decrypt.parallelism"
        usage := "Number of classes parsed in parallel (default: GOMAXPROCS)" },
      { name := "raw", type := .bool, key := "decrypt.raw"
        usage := "Run decrypt routines unmodified and rely on the forged caller only" },
      { name := "dry-run", type := .bool, short := 'n', key := "decrypt.dry-run"
        usage := "Decrypt and report without writing the output archive" },
      { name := "json", type := .text, short := 'j', key := "decrypt.json"
        usage := "Write a JSON report to file ('-' for stdout)" },
      { name := "progress", type := .bool, key := "decrypt.progress"
        usage := "Show a progress bar" },
      { name := "trace", type := .bool, key := "decrypt.trace"
        usage := "Trace every interpreted instruction (very noisy)" },
      { name := "state-dir", type := .text, key := "decrypt.state-dir"
        usage := "Save a replayable state file for every failed call site" },
      { name := "deadline", type := .duration, key := "decrypt.deadline"
        usage := "Abort the whole run after this long" }] }

/-- The command that lists call sites. -/
def scanCommand : Command :=
  { path := ["scan"], operands := "<JAR>"
    summary := "List encrypted string call sites without running anything"
    examples := [
      "# List every call site",
      "❯ destringer scan app.jar",
      "",
      "# Only one class, as JSON",
      "❯ destringer scan app.jar --class com.example.Main --json"]
    arity := .exactly 1, action := some .scan
    flags := [
      { name := "json", type := .bool, short := 'j', key := "scan.json", usage := "Output as JSON" },
      { name := "class", type := .text, short := 'c', key := "scan.class"
        usage := "Only scan this class" }] }

/-- The command that lists a class. -/
def listCommand : Command :=
  { path := ["dis"], operands := "<JAR|CLASS> [CLASS]", summary := "Disassemble a class"
    examples := [
      "# Disassemble a class of an archive",
      "❯ destringer dis app.jar com.example.Main",
      "",
      "# Disassemble a class file with its constant pool",
      "❯ destringer dis Main.class --pool"]
    arity := .between 1 2, action := some .list
    flags := [{ name := "pool", type := .bool, short := 'c', key := "dis.pool"
                usage := "Dump the constant pool" }] }

/-- The command that repeats a saved call. -/
def emulateCommand : Command :=
  { path := ["emu"], operands := "<JAR|CLASS> <STATE>"
    summary := "Replay a decrypt call from a state file"
    examples := [
      "# Replay a call site saved by 'decrypt --state-dir'",
      "❯ destringer emu app.jar states/com.example.Main.run@12.yaml --trace"]
    arity := .exactly 2, action := some .emulate, exclusive := ["raw", "dump"]
    flags := [
      { name := "raw", type := .bool, key := "emu.raw"
        usage := "Run the routine without removing its caller checks" },
      { name := "trace", type := .bool, key := "emu.trace"
        usage := "Trace every interpreted instruction" },
      { name := "dump", type := .bool, key := "emu.dump", usage := "Print the state and exit" }] }

/-- The command that compares a class of two archives. -/
def compareCommand : Command :=
  { path := ["diff"], operands := "<JAR> <JAR> <CLASS>"
    summary := "Diff the disassembly of a class between two archives"
    examples := [
      "# Show what decrypt changed in a class",
      "❯ destringer decrypt app.jar",
      "❯ destringer diff app.jar app.decrypted.jar com.example.Main"]
    arity := .exactly 3, action := some .compare
    flags := [{ name := "pool", type := .bool, short := 'c', key := "diff.pool"
                usage := "Include the constant pool" }] }

/-- The commands around the configuration file. -/
def configCommands : List Command :=
  [{ path := ["config"], summary := "Manage the destringer config file", isQuiet := false },
   { path := ["config", "init"], summary := "Write an example config file"
     examples := [
       "# Write the default settings to $HOME/.config/destringer/config.yaml",
       "❯ destringer config init",
       "# Write them next to a project",
       "❯ destringer config init -o ./destringer.yaml"]
     action := some .writeSettings
     flags := [
       { name := "output", type := .text, short := 'o', key := "config.init.output"
         usage := "Where to write the config (default is $HOME/.config/destringer/config.yaml)" },
       { name := "force", type := .bool, short := 'f', key := "config.init.force"
         usage := "Overwrite an existing config" }] },
   { path := ["config", "schema"], summary := "Output the config file's JSON schema"
     aliases := ["jsonschema"], action := some .writeSchema
     flags := [{ name := "output", type := .text, short := 'o', default := .text "-"
                 key := "config.schema.output", usage := "Where to save the JSONSchema file" }] }]

/-- All commands, in the order in which they are listed. -/
def commands : List Command :=
  configCommands ++ [decryptCommand, compareCommand, listCommand, emulateCommand,
    { path := ["help"], operands := "[command]", summary := "Help about any command"
      action := some .help, isQuiet := false },
    scanCommand,
    { path := ["version"], summary := "Print the version number of destringer"
      action := some .showVersion, isQuiet := false }]

/-- The commands below a command. -/
def children (c : Command) : List Command :=
  commands.filter fun k => !k.path.isEmpty && k.path.dropLast = c.path

/-- The flag that asks for help. -/
def helpFlag (c : Command) : Flag :=
  { name := "help", type := .bool, usage := "help for " ++ c.name, short := 'h' }

/-- The flags that a command understands while it is looked for. -/
def knownFlags (c : Command) : List Flag := c.flags ++ commonFlags

/-- The flags that a command understands. -/
def allFlags (c : Command) : List Flag := c.helpFlag :: c.knownFlags

/-- The default of every setting that has a flag. -/
def defaultSettings : List (String × Yaml.Value) :=
  (commonFlags ++ commands.flatMap (·.flags)).filterMap fun f =>
    if f.key = "" then none else some (f.key, f.default)

/-! ## Finding the command -/

/-- Whether a word is a flag whose value is the next word. -/
def takesNext (flags : List Flag) (word : String) : Bool :=
  let named? (name : String) : Option Flag := flags.find? fun f => f.name = name
  let short? (c : Char) : Option Flag := flags.find? fun f => f.short = some c
  if word.contains '=' then false
  else if word.startsWith "--" then
    (named? (String.ofList (word.toList.drop 2))).all fun f => f.type ≠ .bool
  else match word.toList with
    | ['-', c] => (short? c).all fun f => f.type ≠ .bool
    | _ => false

/-- The words of a command line that are neither flags nor their values. -/
def plainWords (flags : List Flag) : List String → List String
  | [] => []
  | [word] => if word = "" || word.startsWith "-" then [] else [word]
  | word :: next :: rest =>
    if word = "--" then []
    else if takesNext flags word then (if rest.isEmpty then [] else plainWords flags rest)
    else if word = "" || word.startsWith "-" then plainWords flags (next :: rest)
    else word :: plainWords flags (next :: rest)

/-- A command line without the first plain word that is a given one. -/
def withoutWord (flags : List Flag) (target : String) : List String → List String
  | [] => []
  | word :: rest =>
    if word = "--" then word :: rest
    else if takesNext flags word then
      match rest with
      | [] => [word]
      | value :: rest => word :: value :: withoutWord flags target rest
    else if word = target then rest
    else word :: withoutWord flags target rest

/-- Goes down from a command as far as words name commands; every step takes a
word. -/
def descend : Nat → Command → List String → Command × List String
  | 0, c, args => (c, args)
  | fuel + 1, c, args =>
    match plainWords c.knownFlags args with
    | [] => (c, args)
    | word :: _ =>
      match c.children.find? fun k => k.name = word || word ∈ k.aliases with
      | none => (c, args)
      | some k => descend fuel k (withoutWord c.knownFlags word args)

/-- The command that a command line calls, and the rest of the line. -/
def findCommand (args : List String) : Command × List String := descend args.length root args

end Command

end Cleartext
