import Interchange.Cli.Command

/-!
# The command line program

Carries out a command line on the real file system. What a command prints is a function of the
files that its scripts ask for, but which these are shows only while the scripts run. So the
command is evaluated on the files that are known, the files it misses are read, and it is
evaluated anew until it misses no file that has not been looked for.
-/
namespace Interchange.Cli

/-- The words for a refusal with its number. -/
def refusalWords (code : UInt32) (words : String) : IoFault :=
  .other (words ++ " (os error " ++ code.toNat.repr ++ ")")

/-- What a refusal of the system means here. -/
def refusal : IO.Error → IoFault
  | .noFileOrDirectory .. => .notFound
  | .noSuchThing _ 2 _ => .notFound
  | .inappropriateType _ code words =>
    if code = 20 then .notDirectory else if code = 21 then .isDirectory
    else refusalWords code words
  | .illegalOperation 21 _ => .isDirectory
  | .permissionDenied _ code words => refusalWords code words
  | .invalidArgument _ 36 _ => .nameTooLong
  | other => .other other.toString

/-- The outcome of an action that the system can refuse. -/
def attempt {α : Type} (action : IO α) : IO (Except IoFault α) := do
  try return .ok (← action) catch error => return .error (refusal error)

/-- The text of a file. -/
def readText (path : String) : IO (Except IoFault String) := do
  let bytes ← attempt (IO.FS.readBinFile path)
  return bytes.bind fun bytes => match String.fromUTF8? bytes with
    | some text => .ok text
    | none => .error .invalidText

/-- Whether there is a file at a path. -/
def isRealFile (path : String) : IO Bool := do
  let place := (← IO.currentDir) / path
  match ← attempt place.metadata with
  | .ok metadata => return metadata.type == .file
  | .error _ => return false

/-- The names of the entries of a directory, sorted. -/
def listReal (path : String) : IO (Except IoFault (List String)) := do
  let place := (← IO.currentDir) / path
  let entries ← attempt place.readDir
  return entries.map fun entries =>
    Fields.names (Fields.sorted (entries.toList.map fun entry => (entry.fileName, ())))

/-- The files that are known, as a loader sees them. -/
def knownDisk (known : Fields (Except IoFault String)) : Disk where
  read path := (Fields.find? path known).getD (.error .notFound)
  isFile path := match Fields.find? path known with
    | some (.ok _) => true
    | _ => false

/-- The outcome of something that depends on files, with all files it asks for at hand. -/
partial def settle (outcome : Disk → Outcome) (known : Fields (Except IoFault String)) :
    IO Outcome := do
  let result := outcome (knownDisk known)
  match result.sought.find? fun path => (Fields.find? path known).isNone with
  | none => return result
  | some path => settle outcome (Fields.put path (← readText path) known)

/-- Carry out a command with a configuration. -/
def performReal (config : Config) : Command → IO Outcome
  | .run file report => settle (fun disk => run disk config file report) []
  | .check directory => do
    match ← listReal directory with
    | .error cause => return unreadableDirectory directory cause
    | .ok entries =>
      let files ← (entries.map (SourcePath.join directory)).filterM isRealFile
      let scripts := hosts files.contains directory entries
      settle (fun disk => (checkAll id (fun _ disk => disk) config disk scripts).1) []

/-- Carry out a command line: the configuration first, then the log, then the command. -/
def invokeReal (invocation : Invocation) : IO Outcome := do
  let file ← readText (invocation.options.config.getD "")
  match configure invocation.options file with
  | .error fault => return failure (configFaultText fault)
  | .ok config => match LogTargets.ofConfig config.log, config.log.file with
    | .error fault, _ => return failure (configFaultText fault)
    | .ok _, none => performReal config invocation.command
    | .ok _, some path => match ← attempt (IO.FS.Handle.mk path .append) with
      | .error cause => return unopenedLog path cause
      | .ok _ => performReal config invocation.command

end Interchange.Cli

/-- Carry out the words of a command line. -/
def main (words : List String) : IO UInt32 := do
  let outcome ← match Interchange.Cli.read? words with
    | none => pure Interchange.Cli.misuse
    | some invocation => Interchange.Cli.invokeReal invocation
  IO.print outcome.stdout
  IO.eprint outcome.stderr
  return UInt32.ofNat outcome.exit
