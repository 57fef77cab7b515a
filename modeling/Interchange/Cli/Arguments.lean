import Interchange.Text.Split

/-!
# Command lines

What the words of a command line ask for. Two options are accepted before and after the
command, once in each place; the later place wins. An option takes the next word as its value
unless that word looks like an option itself, or takes what follows an equals sign. After a
lone `--` every word stands for itself.
-/
namespace Interchange.Cli

/-- What is to be done. -/
inductive Command where
  /-- Evaluate one script, and print a report on it if asked to. -/
  | run (file : String) (report : Bool)
  /-- Evaluate every host script in a directory, and print a report on each. -/
  | check (directory : String)
  deriving DecidableEq

/-- The options that every command accepts. -/
structure Options where
  /-- The configuration file. -/
  config : Option String := none
  /-- The log level, whatever the configuration says. -/
  logLevel : Option String := none
  deriving DecidableEq

/-- A whole command line. -/
structure Invocation where
  /-- The options. -/
  options : Options
  /-- The command. -/
  command : Command
  deriving DecidableEq

/-- What the words after the command have given so far. -/
structure Collected where
  /-- The options in this place. -/
  options : Options := {}
  /-- The words that are no options, in order. -/
  plain : List String := []
  /-- Whether a report is asked for. -/
  report : Bool := false

namespace Options

/-- The options given in two places. -/
def merge (first second : Options) : Options :=
  ⟨second.config <|> first.config, second.logLevel <|> first.logLevel⟩

/-- Take an option with its value; no option is taken twice, and a file has a name. -/
def take? (options : Options) (name value : String) : Option Options :=
  match name with
  | "--config" =>
    if options.config.isSome ∨ value.isEmpty then none
    else some { options with config := some value }
  | "--log-level" =>
    if options.logLevel.isSome then none else some { options with logLevel := some value }
  | _ => none

end Options

/-- Whether a word looks like an option: a dash and more. -/
def looksLikeOption (word : String) : Bool :=
  match word.toList with
  | '-' :: _ :: _ => true
  | _ => false

/-- Whether a word is an option whose value is the next word. -/
def takesValue (word : String) : Bool := word == "--config" || word == "--log-level"

/-- An option and its value in one word. -/
def joined? (word : String) : Option (String × String) :=
  (Text.splitFirst? (· == '=') word.toList).map fun (name, value) =>
    (String.ofList name, String.ofList value)

/-- Collect the words after a command; `allowsReport` tells whether it can be asked for a
report. -/
def collect? (allowsReport : Bool) (collected : Collected) : List String → Option Collected
  | [] => some collected
  | word :: rest =>
    if word = "--" then some { collected with plain := collected.plain ++ rest }
    else if takesValue word then
      match rest with
      | value :: rest =>
        if looksLikeOption value then none
        else do
          let options ← collected.options.take? word value
          collect? allowsReport { collected with options } rest
      | [] => none
    else if word = "--report" then
      if allowsReport && !collected.report then
        collect? allowsReport { collected with report := true } rest
      else none
    else if looksLikeOption word then do
      let (name, value) ← joined? word
      let options ← collected.options.take? name value
      collect? allowsReport { collected with options } rest
    else collect? allowsReport { collected with plain := collected.plain ++ [word] } rest

/-- The one plain word of a command, which must not be empty. -/
def theWord? : List String → Option String
  | [word] => if word.isEmpty then none else some word
  | _ => none

/-- Read a command line; `options` are those before the command. -/
def readFrom? (options : Options) : List String → Option Invocation
  | [] => none
  | "run" :: rest => do
    let collected ← collect? true {} rest
    let file ← theWord? collected.plain
    return ⟨options.merge collected.options, .run file collected.report⟩
  | "check" :: rest => do
    let collected ← collect? false {} rest
    let directory ← theWord? collected.plain
    return ⟨options.merge collected.options, .check directory⟩
  | word :: rest =>
    if takesValue word then
      match rest with
      | value :: rest =>
        if looksLikeOption value then none
        else do readFrom? (← options.take? word value) rest
      | [] => none
    else do
      let (name, value) ← joined? word
      readFrom? (← options.take? name value) rest

/-- Read a command line; `none` if it asks for nothing that can be done. -/
def read? (words : List String) : Option Invocation := readFrom? {} words

end Interchange.Cli
