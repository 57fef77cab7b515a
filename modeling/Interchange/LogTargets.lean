import Interchange.Config

/-!
# Levels of log targets

Every log line names the part of the program it comes from, its target. `LogTargets` says which
levels are enabled for each target: the rule for the longest name that the target begins with
decides, and without such a rule the default does.
-/
namespace Interchange

/-- Which levels are enabled for which targets. -/
structure LogTargets where
  /-- The level of targets without a rule. -/
  default : LogLevel
  /-- The level of targets that begin with a name, each name once. -/
  rules : Fields LogLevel

namespace LogTargets

/-- The targets the program itself logs to. -/
def known : List String :=
  ["polyglot::registry", "polyglot::engine", "polyglot::lisp", "polyglot::jsonscript"]

/-- Add a rule; an earlier rule for the same name is replaced. -/
def withRule (targets : LogTargets) (name : String) (level : LogLevel) : LogTargets :=
  { targets with rules := Fields.put name level targets.rules }

/-- Whether a text begins with a name. -/
def covers (name target : String) : Bool := name.toList.isPrefixOf target.toList

/-- The longer of two covering rules; the earlier one if they are equally long. -/
def longer (best : Option (String × LogLevel)) (rule : String × LogLevel) :
    Option (String × LogLevel) :=
  match best with
  | none => some rule
  | some current => if current.1.length < rule.1.length then some rule else some current

/-- The level of a target. -/
def levelOf (targets : LogTargets) (target : String) : LogLevel :=
  match (targets.rules.filter fun rule => covers rule.1 target).foldl longer none with
  | some rule => rule.2
  | none => targets.default

/-- The rules of a configuration: the program's own targets first, then every target that the
configuration names. -/
def ofConfig (log : LogConfig) : Except ConfigFault LogTargets := do
  let start : LogTargets := ⟨← log.globalLevel, []⟩
  let own ← known.foldlM (fun targets name => do
    return targets.withRule name (← log.levelFor name)) start
  log.targets.foldlM (fun targets (name, level) => do
    return targets.withRule name (← LogConfig.levelOf level)) own

end LogTargets

end Interchange
