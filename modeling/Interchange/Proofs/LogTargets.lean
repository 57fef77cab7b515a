import Interchange.LogTargets
import Interchange.Proofs.Fields
import Interchange.Proofs.Outcome

/-!
# Which level a target has

Of the rules that cover a target the one with the longest name decides, and there is only one of
that length, since names of one length that a target begins with are the same name
(`LogTargets.levelOf_of_decides`). A configuration gives a rule to each name it lists, with the
level listed there, and one to each of the program's own targets that it does not list, with the
level of everything else (`LogTargets.rule_of_listed`, `LogTargets.rule_of_own`). So the longest
name that a target begins with, of those listed and the program's own, has the say: a listed name
does not reach an own target that is longer, nor what lies below it. A target with a rule of its own
is the longest such name itself, so there the rules say what the configuration says about that one
target (`LogTargets.rules_agree_with_levels`); they can be given as soon as every level in the
configuration can be read (`LogTargets.exists_ofConfig_iff`).
-/
namespace Interchange

/-- A level enables itself and every level above it. -/
theorem LogLevel.mem_enabled {level told : LogLevel} :
    told ∈ level.enabled ↔ told ≠ .off ∧ told.rank ≤ level.rank := by
  have all : told ∈ LogLevel.all ↔ told ≠ .off := by cases told <;> decide
  rw [enabled, List.mem_filter, decide_eq_true_iff, all]

namespace LogTargets

/-- Of the given names, the longest that a target begins with. -/
structure Decides (names : List String) (target name : String) : Prop where
  /-- It is one of the names. -/
  mem : name ∈ names
  /-- The target begins with it. -/
  covers : covers name target = true
  /-- No longer one does. -/
  longest : ∀ other ∈ names, LogTargets.covers other target = true → other.length ≤ name.length

/-- Whether a name decides can be computed. -/
instance (names : List String) (target name : String) : Decidable (Decides names target name) :=
  decidable_of_iff (name ∈ names ∧ covers name target = true ∧
      ∀ other ∈ names, covers other target = true → other.length ≤ name.length)
    ⟨fun ⟨mem, covers, longest⟩ => ⟨mem, covers, longest⟩,
      fun decides => ⟨decides.mem, decides.covers, decides.longest⟩⟩

/-- The levels enabled for a target are those up to the given one. -/
def EnablesUpTo (targets : LogTargets) (target : String) (level : LogLevel) : Prop :=
  ∀ told, told ∈ (targets.levelOf target).enabled ↔ told ≠ .off ∧ told.rank ≤ level.rank

/-! ### The longest covering rule -/

/-- A target begins with one name of each length at most. -/
theorem eq_of_covers {name other target : String} (covering : covers name target = true)
    (otherCovers : covers other target = true) (length : name.length = other.length) :
    name = other := by
  rw [covers, List.isPrefixOf_iff_prefix] at covering otherCovers
  have same : name.toList.length = other.toList.length := length
  exact String.toList_injective
    ((List.prefix_of_prefix_length_le covering otherCovers (Nat.le_of_eq same)).eq_of_length same)

/-- Of the given names only one decides. -/
theorem Decides.unique {names : List String} {target name other : String}
    (decides : Decides names target name) (too : Decides names target other) : name = other :=
  eq_of_covers decides.covers too.covers
    (Nat.le_antisymm (too.longest name decides.mem decides.covers)
      (decides.longest other too.mem too.covers))

/-- One of the compared rules is the longest of them. -/
theorem foldl_longer (rules : Fields LogLevel) (best : String × LogLevel) :
    ∃ rule ∈ best :: rules, rules.foldl longer (some best) = some rule ∧
      ∀ other ∈ best :: rules, other.1.length ≤ rule.1.length := by
  induction rules generalizing best with
  | nil => exact ⟨best, List.mem_cons_self, rfl, by simp⟩
  | cons next rest ih =>
    rw [List.foldl_cons]
    by_cases less : best.1.length < next.1.length
    · rw [show longer (some best) next = some next from if_pos less]
      obtain ⟨rule, mem, found, longest⟩ := ih next
      have atNext := longest next List.mem_cons_self
      refine ⟨rule, List.mem_cons_of_mem _ mem, found, List.forall_mem_cons.2 ⟨?_, longest⟩⟩
      exact Nat.le_trans (Nat.le_of_lt less) atNext
    · rw [show longer (some best) next = some best from if_neg less]
      obtain ⟨rule, mem, found, longest⟩ := ih best
      obtain ⟨atBest, later⟩ := List.forall_mem_cons.1 longest
      refine ⟨rule, ?_, found, List.forall_mem_cons.2 ⟨atBest, List.forall_mem_cons.2 ⟨?_, later⟩⟩⟩
      · rcases List.mem_cons.1 mem with rfl | further
        · exact List.mem_cons_self
        · exact List.mem_cons_of_mem _ (List.mem_cons_of_mem _ further)
      · exact Nat.le_trans (Nat.le_of_not_lt less) atBest

/-- A target has the level of the rule that decides, or of everything else if no rule covers
it. -/
theorem levelOf_cases (targets : LogTargets) (target : String) :
    ((∀ name ∈ targets.rules.names, covers name target = false) ∧
        targets.levelOf target = targets.default) ∨
      ∃ rule ∈ targets.rules, Decides targets.rules.names target rule.1 ∧
        targets.levelOf target = rule.2 := by
  rw [levelOf]
  cases covering : targets.rules.filter fun rule => covers rule.1 target with
  | nil =>
    refine .inl ⟨fun name named => ?_, rfl⟩
    obtain ⟨rule, mem, rfl⟩ := List.mem_map.1 named
    exact eq_false_of_ne_true (List.filter_eq_nil_iff.1 covering rule mem)
  | cons first rest =>
    obtain ⟨rule, among, found, longest⟩ := foldl_longer rest first
    rw [List.foldl_cons, show longer none first = some first from rfl, found]
    rw [← covering] at among longest
    obtain ⟨mem, covers⟩ := List.mem_filter.1 among
    refine .inr ⟨rule, mem, ⟨List.mem_map_of_mem mem, covers, fun other named too => ?_⟩, rfl⟩
    obtain ⟨another, isRule, rfl⟩ := List.mem_map.1 named
    exact longest another (List.mem_filter.2 ⟨isRule, too⟩)

/-- The rule that decides gives its level. -/
theorem levelOf_of_decides {targets : LogTargets} {target name : String} {level : LogLevel}
    (distinct : targets.rules.names.Nodup) (rule : Fields.find? name targets.rules = some level)
    (decides : Decides targets.rules.names target name) : targets.levelOf target = level := by
  rcases levelOf_cases targets target with ⟨uncovered, -⟩ | ⟨⟨other, held⟩, mem, too, same⟩
  · have covered := uncovered name decides.mem
    rw [decides.covers] at covered
    cases covered
  · obtain rfl : name = other := decides.unique too
    rw [Fields.find?_of_mem distinct mem] at rule
    rw [same, Option.some.inj rule]

/-! ### The rules of a configuration -/

section Rules

variable {α : Type} {name : α → String} {level : α → Except ConfigFault LogLevel}
  {start targets : LogTargets}

/-- Give each entry a rule, one after the other. -/
def withRules (name : α → String) (level : α → Except ConfigFault LogLevel) (entries : List α)
    (start : LogTargets) : Except ConfigFault LogTargets :=
  entries.foldlM (fun targets entry => do
    return targets.withRule (name entry) (← level entry)) start

/-- The first entry is given its rule, and then the others are. -/
theorem withRules_cons {entry : α} {rest : List α}
    (given : withRules name level (entry :: rest) start = .ok targets) :
    ∃ first, level entry = .ok first ∧
      withRules name level rest (start.withRule (name entry) first) = .ok targets := by
  rw [withRules, List.foldlM_cons, Outcome.bind_ok_iff] at given
  obtain ⟨after, stepped, further⟩ := given
  obtain ⟨first, read, made⟩ := Outcome.bind_ok_iff.1 stepped
  exact ⟨first, read, Except.ok.inj made ▸ further⟩

/-- Rules leave the level of everything else. -/
theorem default_withRules {entries : List α}
    (given : withRules name level entries start = .ok targets) :
    targets.default = start.default := by
  induction entries generalizing start with
  | nil => exact congrArg LogTargets.default (Except.ok.inj given).symm
  | cons entry rest ih =>
    obtain ⟨first, -, further⟩ := withRules_cons given
    have kept : targets.default = (start.withRule (name entry) first).default := ih further
    exact kept

/-- Each name keeps one rule. -/
theorem nodup_withRules {entries : List α} (distinct : start.rules.names.Nodup)
    (given : withRules name level entries start = .ok targets) : targets.rules.names.Nodup := by
  induction entries generalizing start with
  | nil => exact Except.ok.inj given ▸ distinct
  | cons entry rest ih =>
    obtain ⟨first, -, further⟩ := withRules_cons given
    have kept : (start.withRule (name entry) first).rules.names.Nodup :=
      Fields.nodup_put distinct _ _
    exact ih kept further

/-- The rules of other names stay. -/
theorem rule_of_not_given {entries : List α} {other : String} (apart : other ∉ entries.map name)
    (given : withRules name level entries start = .ok targets) :
    Fields.find? other targets.rules = Fields.find? other start.rules := by
  induction entries generalizing start with
  | nil => rw [Except.ok.inj given]
  | cons entry rest ih =>
    obtain ⟨first, -, further⟩ := withRules_cons given
    rw [List.map_cons, List.mem_cons, not_or] at apart
    rw [ih apart.2 further, withRule, Fields.find?_put_of_ne _ _ apart.1]

/-- Where no name comes up twice, each entry has its own rule. -/
theorem rule_of_given {entries : List α} (distinct : (entries.map name).Nodup)
    (given : withRules name level entries start = .ok targets) {entry : α}
    (mem : entry ∈ entries) :
    ∃ own, level entry = .ok own ∧ Fields.find? (name entry) targets.rules = some own := by
  induction entries generalizing start with
  | nil => cases mem
  | cons first rest ih =>
    obtain ⟨own, read, further⟩ := withRules_cons given
    rw [List.map_cons, List.nodup_cons] at distinct
    rcases List.mem_cons.1 mem with rfl | later
    · refine ⟨own, read, ?_⟩
      rw [rule_of_not_given distinct.1 further, withRule, Fields.find?_put_self]
    · exact ih distinct.2 further later

/-- All entries can be given a rule if each of them has a level. -/
theorem exists_withRules_iff {entries : List α} :
    (∃ targets, withRules name level entries start = .ok targets) ↔
      ∀ entry ∈ entries, ∃ own, level entry = .ok own := by
  induction entries generalizing start with
  | nil => exact ⟨fun _ entry mem => absurd mem List.not_mem_nil, fun _ => ⟨start, rfl⟩⟩
  | cons entry rest ih =>
    rw [List.forall_mem_cons]
    constructor
    · rintro ⟨targets, given⟩
      obtain ⟨first, read, further⟩ := withRules_cons given
      exact ⟨⟨first, read⟩, ih.1 ⟨targets, further⟩⟩
    · rintro ⟨⟨first, read⟩, others⟩
      obtain ⟨targets, further⟩ := @ih (start.withRule (name entry) first) |>.2 others
      refine ⟨targets, ?_⟩
      rw [withRules, List.foldlM_cons, read]
      exact further

end Rules

variable {log : LogConfig} {targets : LogTargets} {name text : String}

/-- The program's own targets are given their rules first, then those that the configuration
lists. -/
theorem ofConfig_eq_ok_iff : ofConfig log = .ok targets ↔
    ∃ global own, log.globalLevel = .ok global ∧
      withRules (fun name => name) log.levelFor known ⟨global, []⟩ = .ok own ∧
      withRules Prod.fst (fun entry => LogConfig.levelOf entry.2) log.targets own =
        .ok targets := by
  unfold ofConfig
  constructor
  · intro accepted
    obtain ⟨global, read, further⟩ := Outcome.bind_ok_iff.1 accepted
    obtain ⟨own, first, last⟩ := Outcome.bind_ok_iff.1 further
    exact ⟨global, own, read, first, last⟩
  · rintro ⟨global, own, read, first, last⟩
    rw [Outcome.bind_ok_iff]
    refine ⟨global, read, ?_⟩
    rw [Outcome.bind_ok_iff]
    exact ⟨own, first, last⟩

/-- The level of everything else is the one that the configuration gives to it. -/
theorem default_ofConfig (accepted : ofConfig log = .ok targets) :
    log.globalLevel = .ok targets.default := by
  obtain ⟨global, own, read, first, last⟩ := ofConfig_eq_ok_iff.1 accepted
  rw [read, default_withRules last, default_withRules first]

/-- A configuration gives each name one rule. -/
theorem nodup_ofConfig (accepted : ofConfig log = .ok targets) : targets.rules.names.Nodup := by
  obtain ⟨global, own, -, first, last⟩ := ofConfig_eq_ok_iff.1 accepted
  have none : (⟨global, []⟩ : LogTargets).rules.names.Nodup := List.nodup_nil
  exact nodup_withRules (nodup_withRules none first) last

/-- A listed name has a rule with the level listed there. -/
theorem rule_of_listed (distinct : log.targets.names.Nodup) (accepted : ofConfig log = .ok targets)
    (listed : (name, text) ∈ log.targets) :
    ∃ level, LogConfig.levelOf text = .ok level ∧
      Fields.find? name targets.rules = some level := by
  obtain ⟨global, own, -, -, last⟩ := ofConfig_eq_ok_iff.1 accepted
  obtain ⟨level, read, rule⟩ := rule_of_given distinct last listed
  exact ⟨level, read, rule⟩

/-- A target that is not listed has the level of everything else. -/
theorem levelFor_of_unlisted (unlisted : name ∉ log.targets.names) :
    log.levelFor name = log.globalLevel := by
  have absent : Fields.find? name log.targets = none := by
    rw [← Option.not_isSome_iff_eq_none, Fields.find?_isSome_iff]
    exact unlisted
  rw [LogConfig.levelFor, absent]

/-- One of the program's own targets that is not listed has a rule with the level of everything
else. -/
theorem rule_of_own (accepted : ofConfig log = .ok targets) (known : name ∈ known)
    (unlisted : name ∉ log.targets.names) :
    Fields.find? name targets.rules = some targets.default := by
  obtain ⟨global, own, -, first, last⟩ := ofConfig_eq_ok_iff.1 accepted
  obtain ⟨level, read, rule⟩ := rule_of_given (by decide) first known
  have held : log.levelFor name = .ok targets.default := by
    rw [levelFor_of_unlisted unlisted, default_ofConfig accepted]
  rw [held] at read
  rw [rule_of_not_given unlisted last, rule, Except.ok.inj read]

/-- No other name has a rule. -/
theorem mem_names_ofConfig (distinct : log.targets.names.Nodup)
    (accepted : ofConfig log = .ok targets) :
    name ∈ targets.rules.names ↔ name ∈ log.targets.names ++ known := by
  rw [← Fields.find?_isSome_iff, List.mem_append]
  by_cases listed : name ∈ log.targets.names
  · obtain ⟨⟨_, text⟩, mem, rfl⟩ := List.mem_map.1 listed
    obtain ⟨level, -, rule⟩ := rule_of_listed distinct accepted mem
    exact iff_of_true (rule ▸ rfl) (.inl listed)
  · by_cases own : name ∈ known
    · exact iff_of_true (rule_of_own accepted own listed ▸ rfl) (.inr own)
    · obtain ⟨global, before, -, first, last⟩ := ofConfig_eq_ok_iff.1 accepted
      have none : Fields.find? name targets.rules = none := by
        rw [rule_of_not_given listed last, rule_of_not_given (by simpa using own) first]
        rfl
      exact iff_of_false (by simp [none]) (not_or.2 ⟨listed, own⟩)

/-- The same names decide, whether they are the rules or what the rules come from. -/
theorem Decides.congr {names others : List String} {target : String}
    (same : ∀ name, name ∈ names ↔ name ∈ others) (decides : Decides names target name) :
    Decides others target name :=
  ⟨(same name).1 decides.mem, decides.covers,
    fun other mem => decides.longest other ((same other).2 mem)⟩

/-- A configuration gives its rules exactly if the level of everything else and every level it lists
can be read. -/
theorem exists_ofConfig_iff : (∃ targets, ofConfig log = .ok targets) ↔
    (∃ global, log.globalLevel = .ok global) ∧
      ∀ entry ∈ log.targets, ∃ level, LogConfig.levelOf entry.2 = .ok level := by
  constructor
  · rintro ⟨targets, accepted⟩
    obtain ⟨global, own, read, -, last⟩ := ofConfig_eq_ok_iff.1 accepted
    exact ⟨⟨global, read⟩, exists_withRules_iff.1 ⟨targets, last⟩⟩
  · rintro ⟨⟨global, read⟩, listed⟩
    -- An own target is listed, or has the level of everything else.
    have known : ∀ name ∈ known, ∃ level, log.levelFor name = .ok level := by
      intro name _
      unfold LogConfig.levelFor
      cases found : Fields.find? name log.targets with
      | none => exact ⟨global, read⟩
      | some text => exact listed (name, text) (Fields.mem_of_find? found)
    obtain ⟨own, first⟩ : ∃ own, withRules (fun name => name) log.levelFor LogTargets.known
        ⟨global, []⟩ = .ok own := exists_withRules_iff.2 known
    obtain ⟨targets, last⟩ : ∃ targets, withRules Prod.fst
        (fun entry => LogConfig.levelOf entry.2) log.targets own = .ok targets :=
      exists_withRules_iff.2 listed
    exact ⟨targets, ofConfig_eq_ok_iff.2 ⟨global, own, read, first, last⟩⟩

/-- The longest name that a target begins with has the say, of those that a configuration lists and
the program's own targets: if it is listed, the levels up to the one listed there are enabled, and
otherwise those up to the level of everything else. -/
theorem longest_name_has_the_say (log : LogConfig) (distinct : log.targets.names.Nodup)
    (targets : LogTargets) (accepted : ofConfig log = .ok targets) (target : String) :
    (∀ name text, (name, text) ∈ log.targets →
        Decides (log.targets.names ++ known) target name →
        ∃ level, LogConfig.levelOf text = .ok level ∧ targets.EnablesUpTo target level) ∧
      ((∀ name ∈ log.targets.names, ¬ Decides (log.targets.names ++ known) target name) →
        ∃ level, log.globalLevel = .ok level ∧ targets.EnablesUpTo target level) := by
  have names : ∀ name, name ∈ targets.rules.names ↔ name ∈ log.targets.names ++ known :=
    fun name => mem_names_ofConfig distinct accepted
  have enabled (level : LogLevel) (same : targets.levelOf target = level) :
      targets.EnablesUpTo target level := fun told => same ▸ LogLevel.mem_enabled
  refine ⟨fun name text listed decides => ?_, fun others => ?_⟩
  · obtain ⟨level, read, rule⟩ := rule_of_listed distinct accepted listed
    have decides := decides.congr fun name => (names name).symm
    exact ⟨level, read, enabled level (levelOf_of_decides (nodup_ofConfig accepted) rule decides)⟩
  · refine ⟨targets.default, default_ofConfig accepted, enabled _ ?_⟩
    rcases levelOf_cases targets target with ⟨-, same⟩ | ⟨⟨name, level⟩, mem, decides, same⟩
    · exact same
    · have decides := decides.congr names
      have unlisted : name ∉ log.targets.names := fun listed => others name listed decides
      have own : name ∈ known := (List.mem_append.1 decides.mem).resolve_left unlisted
      have rule := rule_of_own accepted own unlisted
      rw [Fields.find?_of_mem (nodup_ofConfig accepted) mem] at rule
      rw [same, Option.some.inj rule]

/-- A listed name reaches targets below it, but none of the program's own. -/
theorem listed_name_reaches_up_to_own_targets :
    ∃ targets, ofConfig { level := "warn",
                          targets := [("polyglot", "trace"), ("polyglot::lisp", "debug")] } =
        .ok targets ∧
      targets.EnablesUpTo "polyglot::report" .trace ∧
      targets.EnablesUpTo "polyglot::lisp::forms" .debug ∧
      targets.EnablesUpTo "polyglot::engine" .warn := by
  have deciding := longest_name_has_the_say
    { level := "warn", targets := [("polyglot", "trace"), ("polyglot::lisp", "debug")] }
    (by decide) _ rfl
  refine ⟨_, rfl, ?_, ?_, ?_⟩
  · obtain ⟨level, read, enabled⟩ :=
      (deciding "polyglot::report").1 "polyglot" "trace" (by decide) (by decide)
    obtain rfl : LogLevel.trace = level := Except.ok.inj read
    exact enabled
  · obtain ⟨level, read, enabled⟩ :=
      (deciding "polyglot::lisp::forms").1 "polyglot::lisp" "debug" (by decide) (by decide)
    obtain rfl : LogLevel.debug = level := Except.ok.inj read
    exact enabled
  · obtain ⟨level, read, enabled⟩ := (deciding "polyglot::engine").2 (by decide)
    obtain rfl : LogLevel.warn = level := Except.ok.inj read
    exact enabled

/-- The only listed name that one of the program's own targets begins with need not have the say:
the level listed for `polyglot` is not the level of `polyglot::registry`. -/
theorem listed_name_misses_own_target :
    ∃ targets, ofConfig { level := "info", targets := [("polyglot", "trace")] } = .ok targets ∧
      Decides ["polyglot"] "polyglot::registry" "polyglot" ∧
      LogConfig.levelOf "trace" = .ok .trace ∧
      ¬ targets.EnablesUpTo "polyglot::registry" .trace := by
  refine ⟨_, rfl, by decide, rfl, fun enabled => ?_⟩
  have told := (enabled .trace).2 (by decide)
  revert told
  decide

/-! ### Targets with a rule of their own -/

/-- Of names that a target is one of, the target itself is the longest that it begins with. -/
theorem decides_self {names : List String} {target : String} (mem : target ∈ names) :
    Decides names target target where
  mem := mem
  covers := List.isPrefixOf_iff_prefix.2 (List.prefix_refl _)
  longest := by
    intro other _ covering
    rw [covers, List.isPrefixOf_iff_prefix] at covering
    exact covering.length_le

/-- A target with a rule has the level of that rule. -/
theorem levelOf_of_rule {target : String} {level : LogLevel}
    (distinct : targets.rules.names.Nodup)
    (rule : Fields.find? target targets.rules = some level) : targets.levelOf target = level := by
  have mem : target ∈ targets.rules.names := (Fields.find?_isSome_iff target _).1 (rule ▸ rfl)
  exact levelOf_of_decides distinct rule (decides_self mem)

/-- The rule of a target is what the configuration says about that one target, if it is listed or
one of the program's own. -/
theorem find?_ofConfig (distinct : log.targets.names.Nodup) (accepted : ofConfig log = .ok targets)
    (named : name ∈ known ++ log.targets.names) :
    ∃ level, log.levelFor name = .ok level ∧ Fields.find? name targets.rules = some level := by
  by_cases listed : name ∈ log.targets.names
  · obtain ⟨⟨_, text⟩, mem, rfl⟩ := List.mem_map.1 listed
    obtain ⟨level, read, rule⟩ := rule_of_listed distinct accepted mem
    refine ⟨level, ?_, rule⟩
    rw [LogConfig.levelFor, Fields.find?_of_mem distinct mem]
    exact read
  · have own : name ∈ known := (List.mem_append.1 named).resolve_right listed
    refine ⟨targets.default, ?_, rule_of_own accepted own listed⟩
    rw [levelFor_of_unlisted listed, default_ofConfig accepted]

/-- The rules of a configuration can be given exactly if the level of everything else and every
level it lists can be read, and then they agree with what it says about single targets: a target
that is listed or one of the program's own has a level there, and the levels up to it are enabled,
whatever other names the target begins with. -/
theorem rules_agree_with_levels (log : LogConfig) (distinct : log.targets.names.Nodup) :
    ((∃ targets, ofConfig log = .ok targets) ↔
      (∃ global, log.globalLevel = .ok global) ∧
        ∀ entry ∈ log.targets, ∃ level, LogConfig.levelOf entry.2 = .ok level) ∧
      ∀ targets, ofConfig log = .ok targets → ∀ target ∈ known ++ log.targets.names,
        ∃ level, log.levelFor target = .ok level ∧ targets.EnablesUpTo target level := by
  refine ⟨exists_ofConfig_iff, fun targets accepted target named => ?_⟩
  obtain ⟨level, read, rule⟩ := find?_ofConfig distinct accepted named
  have same : targets.levelOf target = level := levelOf_of_rule (nodup_ofConfig accepted) rule
  exact ⟨level, read, fun told => same ▸ LogLevel.mem_enabled⟩

/-- A configuration that lists names that begin like each other. -/
def nestedNames : LogConfig := {
  level := "warn"
  targets := [("polyglot", "Trace"), ("polyglot::lisp", "silent"),
    ("polyglot::lisp::forms", "debug")] }

/-- Names that begin like each other keep their own levels, and so does an own target below them. -/
theorem nested_names_keep_their_levels :
    ∃ targets, ofConfig nestedNames = .ok targets ∧
      nestedNames.levelFor "polyglot::lisp" = .ok .off ∧
      targets.EnablesUpTo "polyglot::lisp" .off ∧
      nestedNames.levelFor "polyglot::lisp::forms" = .ok .debug ∧
      targets.EnablesUpTo "polyglot::lisp::forms" .debug ∧
      nestedNames.levelFor "polyglot::engine" = .ok .warn ∧
      targets.EnablesUpTo "polyglot::engine" .warn := by
  obtain ⟨given, agree⟩ := rules_agree_with_levels nestedNames (by decide)
  have global : nestedNames.globalLevel = .ok .warn := rfl
  have listed : ∀ entry ∈ nestedNames.targets,
      ∃ level, LogConfig.levelOf entry.2 = .ok level := by
    rw [nestedNames, List.forall_mem_cons, List.forall_mem_cons, List.forall_mem_singleton]
    exact ⟨⟨.trace, rfl⟩, ⟨.off, rfl⟩, ⟨.debug, rfl⟩⟩
  obtain ⟨targets, accepted⟩ := given.2 ⟨⟨_, global⟩, listed⟩
  refine ⟨targets, accepted, rfl, ?_, rfl, ?_, rfl, ?_⟩
  · obtain ⟨level, read, enabled⟩ := agree targets accepted "polyglot::lisp" (by decide)
    obtain rfl : LogLevel.off = level := Except.ok.inj read
    exact enabled
  · obtain ⟨level, read, enabled⟩ := agree targets accepted "polyglot::lisp::forms" (by decide)
    obtain rfl : LogLevel.debug = level := Except.ok.inj read
    exact enabled
  · obtain ⟨level, read, enabled⟩ := agree targets accepted "polyglot::engine" (by decide)
    obtain rfl : LogLevel.warn = level := Except.ok.inj read
    exact enabled

end LogTargets

end Interchange
