import Interchange.Cli.Arguments
import Interchange.Engine.Builder
import Interchange.Engine.Running
import Interchange.LogTargets

/-!
# Commands

What each command prints, and whether it succeeds, as a function of the files it finds. Errors
go to the error output with everything that lies behind them. Each host script of a directory
is evaluated by an engine of its own.

What is logged goes to a file that scripts may read like any other one. The lines themselves, with
their times, are not made here: whoever carries out a command tells which of them each script adds.
A script finds the file as it was when its evaluation began.
-/
namespace Interchange.Cli

/-- What a command leaves. -/
structure Outcome where
  /-- Zero for success. -/
  exit : Nat
  /-- The output. -/
  stdout : String := ""
  /-- The error output. -/
  stderr : String := ""
  /-- The paths of sources that were asked for and could not be read. -/
  sought : List String := []

/-- The outcome of a command line that asks for nothing that can be done. -/
def misuse : Outcome := { exit := 2 }

/-- An error with everything that lies behind it, one line each. -/
def errorText (message : String) (causes : List String) : String :=
  "error: " ++ message ++ "\n" ++
    String.join (causes.map fun cause => "  caused by: " ++ cause ++ "\n")

/-- A fault as an error. -/
def faultText (fault : Fault) : String := errorText fault.message fault.causes

/-- A configuration fault as an error. -/
def configFaultText (fault : ConfigFault) : String :=
  errorText fault.message (match fault with
    | .unreadable _ cause => [cause.message]
    | _ => [])

/-- The failure with an error. -/
def failure (text : String) : Outcome := { exit := 1, stderr := text }

/-- The configuration that the options ask for; `file` is the text of the configuration file, if
one is named. -/
def configure (options : Options) (file : Except IoFault String) :
    Except ConfigFault Config := do
  let config ← match options.config with
    | none => .ok {}
    | some path => match file with
      | .error cause => .error (.unreadable path cause)
      | .ok text => match Config.read? text with
        | some config => .ok config
        | none => .error .invalid
  return match options.logLevel with
    | some level => { config with log := { config.log with level } }
    | none => config

/-- A command line has no routines to offer. -/
def noRoutines : Routines := fun _ _ => return .error (.notCallable "nothing")

/-- How programs run for a configuration: no more of them are at work inside each other than
evaluations may be nested. -/
def runner (config : Config) : Runner := Runner.within noRoutines config.maxDepth.toNat

/-- How an engine is set up for a configuration; `journal` asks for a journal whatever the
configuration says. -/
def setUp (config : Config) (journal : Bool) : Builder :=
  let configured := ({} : Builder).bundledLanguages.config config
  { configured with journal := configured.journal || journal }

/-- The world of a new engine, if the configuration allows one to be built. -/
def freshWorld (disk : Disk) (config : Config) (journal : Bool) : Except Fault World := do
  let engine ← (setUp config journal).build disk
  return { engine, registry := (setUp config journal).registry }

/-- What evaluating one script has led to. -/
structure Evaluated where
  /-- The fault it ended with. -/
  fault : Option Fault
  /-- Everything it printed. -/
  printed : String
  /-- The report on it. -/
  report : Report
  /-- The paths of the sources it could not read. -/
  sought : List String

/-- What an evaluation has led to, by its result and the world it left. -/
def Evaluated.ofEnd (result : Except Fault ContextId) (world : World) : Evaluated where
  fault := match result with
    | .ok _ => none
    | .error fault => some fault
  printed := String.join world.engine.output.printed
  report := Report.ofEvents world.registry.events world.engine.missing
  sought := world.engine.missing.map fun missing => world.engine.loader.fullPath missing.path

/-- Evaluate one script with an engine of its own, if the configuration allows one to be
built. -/
def evaluate (disk : Disk) (config : Config) (journal : Bool) (file : String) :
    Except Fault Evaluated := do
  let world ← freshWorld disk config journal
  match Engine.evalFile (runner config) file world with
  | none => .error (.depthExceeded config.maxDepth.toNat)
  | some (result, after) => return .ofEnd result after

/-- Evaluate one script, and print a report on it if asked to. -/
def run (disk : Disk) (config : Config) (file : String) (report : Bool) : Outcome :=
  match evaluate disk config report file with
  | .error fault => failure (faultText fault)
  | .ok evaluated => {
      exit := if evaluated.fault.isSome then 1 else 0
      stdout := evaluated.printed ++ (if report then evaluated.report.written else "")
      stderr := (evaluated.fault.map faultText).getD ""
      sought := evaluated.sought }

/-- One outcome after the other; the first failure decides. -/
def Outcome.andThen (first second : Outcome) : Outcome where
  exit := if first.exit = 0 then second.exit else first.exit
  stdout := first.stdout ++ second.stdout
  stderr := first.stderr ++ second.stderr
  sought := first.sought ++ second.sought

/-- Evaluate host scripts one after the other, each under a heading and followed by a report.
Where no engine can be built, the rest is left out. What evaluating one does to the files is told by
`leave`, and `see` is what the next one sees of them. -/
def checkAll {Files : Type} (see : Files → Disk) (leave : String → Files → Files)
    (config : Config) (files : Files) : List String → Outcome × Files
  | [] => ({ exit := 0 }, files)
  | host :: hosts =>
    let heading := "== " ++ host ++ "\n"
    match evaluate (see files) config true host with
    | .error fault => ({ exit := 1, stdout := heading, stderr := faultText fault }, files)
    | .ok evaluated =>
      let outcome : Outcome := {
        exit := if evaluated.fault.isSome || evaluated.report.hasErrors then 1 else 0
        stdout := heading ++ evaluated.printed ++
          (if evaluated.report.isEmpty then "no findings\n" else evaluated.report.written)
        stderr := (evaluated.fault.map faultText).getD ""
        sought := evaluated.sought }
      let (others, files) := checkAll see leave config (leave host files) hosts
      (outcome.andThen others, files)

/-- The host scripts among the entries of a directory, in order of their names. -/
def hosts (isFile : String → Bool) (directory : String) (entries : List String) : List String :=
  (entries.map (SourcePath.join directory)).filter fun path => isFile path && SourcePath.isHost path

/-- The refusal to list a directory. -/
def unreadableDirectory (directory : String) (cause : IoFault) : Outcome :=
  failure ("error: cannot read `" ++ directory ++ "`: " ++ cause.message ++ "\n")

/-- The refusal to open a log file. -/
def unopenedLog (path : String) (cause : IoFault) : Outcome :=
  failure (errorText ("cannot open log file `" ++ path ++ "`") [cause.message])

/-- Open the log file of a configuration, if it has one, after its levels have been checked. -/
def openLog (system : FileSystem) (config : Config) : Except Outcome FileSystem :=
  match LogTargets.ofConfig config.log with
  | .error fault => .error (failure (configFaultText fault))
  | .ok _ => match config.log.file with
    | none => .ok system
    | some path => (system.openForAppending path).mapError (unopenedLog path)

/-- Add lines to the log file of a configuration, if it has one. -/
def writeLog (config : Config) (lines : String) (system : FileSystem) : FileSystem :=
  match config.log.file with
  | none => system
  | some path => system.append path lines

/-- Carry out a command in a working directory: its outcome, and the file system afterwards. What is
added to the log while a script is evaluated is told by `logged`. -/
def perform (logged : String → String) (system : FileSystem) (invocation : Invocation) :
    Outcome × FileSystem :=
  let options := invocation.options
  match configure options (system.read (options.config.getD "")) with
  | .error fault => (failure (configFaultText fault), system)
  | .ok config => match openLog system config with
    | .error outcome => (outcome, system)
    | .ok system =>
      let leave (script : String) := writeLog config (logged script)
      match invocation.command with
      | .run file report => (run system.disk config file report, leave file system)
      | .check directory => match system.list directory with
        | .error cause => (unreadableDirectory directory cause, system)
        | .ok entries =>
          checkAll FileSystem.disk leave config system (hosts system.isFile directory entries)

/-- Carry out a command line in a working directory, with nothing to be logged. -/
def main (system : FileSystem) (words : List String) : Outcome × FileSystem :=
  match read? words with
  | none => (misuse, system)
  | some invocation => perform (fun _ => "") system invocation

end Interchange.Cli
