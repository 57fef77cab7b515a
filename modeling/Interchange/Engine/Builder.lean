import Interchange.Config
import Interchange.Engine.World

/-!
# Setting up an engine

A builder collects languages, extensions, settings and a loader. Extensions are given their
languages at the end, when all languages are there; later settings win over earlier ones.
-/
namespace Interchange

/-- The settings of an engine to be built. -/
structure Builder where
  /-- The languages registered so far. -/
  languages : LanguageTable := {}
  /-- Extensions and the languages they are to lead to, in order. -/
  aliases : List (String × String) := []
  /-- Where sources come from, if not from files. -/
  loader : Option Loader := none
  /-- The directory that files lie below. -/
  root : Option String := none
  /-- How deep evaluations may be nested. -/
  maxDepth : Nat := 64
  /-- Whether a journal is kept. -/
  journal : Bool := false
  /-- Whether every attempt to print fails. -/
  brokenOutput : Bool := false

namespace Builder

/-- Register a language. -/
def language (builder : Builder) (language : Language) : Builder :=
  { builder with languages := builder.languages.register language }

/-- Register the languages that come with the library. -/
def bundledLanguages (builder : Builder) : Builder :=
  (builder.language .forms).language .statements

/-- Let an extension lead to a language. -/
def extension (builder : Builder) (extension language : String) : Builder :=
  { builder with aliases := builder.aliases ++ [(extension, language)] }

/-- Take over a configuration. A root that it does not give stays as it was. -/
def config (builder : Builder) (config : Config) : Builder :=
  { builder with
    root := config.root <|> builder.root
    maxDepth := config.maxDepth.toNat
    journal := config.journal
    aliases := builder.aliases ++ config.languages.flatMap fun language =>
      language.extensions.map fun extension => (extension, language.id) }

/-- Build the engine; without a loader of its own it reads files of the disk. -/
def build (builder : Builder) (disk : Disk) : Except Fault Engine := do
  let languages ← builder.aliases.foldlM
    (fun table (extension, id) => table.lead extension id) builder.languages
  return {
    languages, maxDepth := builder.maxDepth,
    loader := builder.loader.getD (.files disk builder.root),
    output := { isBroken := builder.brokenOutput } }

/-- The registry of an engine that is given none. -/
def registry (builder : Builder) : Registry := Registry.start builder.journal

end Builder

end Interchange
