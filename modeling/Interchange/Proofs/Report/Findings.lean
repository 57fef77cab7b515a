import Interchange.Proofs.Registry.Journal
import Mathlib.Data.List.Induction

/-!
# What a report finds

The findings of a report, told from the journal that it is read off. Each kind of finding has its
own form (`Report.unresolved`, `Report.unused`), and each passes over the events once; what is left
of the passes is said here without them. Sorting what they have collected only puts the missing
sources behind the failed look-ups (`Report.findings_eq`). With a journal that agrees with its
registry, what a finding says of later exports is what the registry says now
(`Registry.Chronicled.exported_later`).
-/
namespace Interchange

/-- The name that an event says was bound. -/
def Event.exported? : Event → Option String
  | exported name .. => some name
  | imported .. => none

namespace Report

/-- What is said of a name that was looked up and not bound, with whether it was exported later. -/
def unboundWords (later : Bool) : String :=
  if later then " was imported before it was exported" else " was imported but never exported"

/-- What is said of a name that was exported and that no look-up found. -/
def unusedWords : String := " was exported but never imported"

/-- The finding of a look-up of a name that was not bound, with whether it was exported later. -/
def unresolved (name : String) (context : ContextId) (line : Option Nat) (later : Bool) :
    Finding where
  severity := .error
  category := .exchange
  context := context
  line := line
  subject := name
  message := named name ++ unboundWords later

/-- The finding of an export that no look-up found. -/
def unused (name : String) (context : ContextId) (line : Option Nat) : Finding where
  severity := .info
  category := .exchange
  context := context
  line := line
  subject := name
  message := named name ++ unusedWords

variable {events later : List Event} {missing : List MissingSource} {name : String}
  {context : ContextId} {finding : Finding}

/-- A name is exported by one of two lists of events if it is by the one or the other. -/
theorem isExported_append (name : String) (events later : List Event) :
    isExported name (events ++ later) = (isExported name events || isExported name later) :=
  List.any_append

/-- A name is exported exactly if it is one of those that events say were bound. -/
theorem isExported_iff :
    isExported name events = true ↔ name ∈ events.filterMap Event.exported? := by
  rw [isExported, List.any_eq_true, List.mem_filterMap]
  refine exists_congr fun event => and_congr_right fun _ => ?_
  cases event <;> simp [Event.exported?]

/-- A name was found by a look-up exactly if an event says so. -/
theorem isUsed_iff :
    isUsed name events = true ↔ ∃ context line, Event.imported name context true line ∈ events := by
  rw [isUsed, List.any_eq_true]
  constructor
  · rintro ⟨event, mem, used⟩
    cases event with
    | exported other context overwrote deferred line => cases used
    | imported other context resolved line =>
      rw [Bool.and_eq_true, beq_iff_eq] at used
      obtain ⟨rfl, rfl⟩ := used
      exact ⟨context, line, mem⟩
  · rintro ⟨context, line, mem⟩
    exact ⟨_, mem, by simp⟩

/-- A finding about an unbound name comes from a look-up of it, and says whether the name was
exported after that. -/
theorem exists_of_mem_unresolvedImports {reported : List (String × ContextId)}
    (mem : finding ∈ unresolvedImports reported events) :
    ∃ before name context line later,
      events = before ++ .imported name context false line :: later ∧
      finding = unresolved name context line (isExported name later) := by
  induction events generalizing reported with
  | nil => exact absurd mem List.not_mem_nil
  | cons event rest ih =>
    have further : ∀ reported, finding ∈ unresolvedImports reported rest →
        ∃ before name context line later,
          event :: rest = before ++ .imported name context false line :: later ∧
            finding = unresolved name context line (isExported name later) := by
      intro reported mem
      obtain ⟨before, name, context, line, later, rfl, same⟩ := ih mem
      exact ⟨event :: before, name, context, line, later, rfl, same⟩
    cases event with
    | exported name context overwrote deferred line => exact further reported mem
    | imported name context resolved line =>
      cases resolved with
      | true => exact further reported mem
      | false =>
        rw [unresolvedImports] at mem
        split at mem
        · exact further reported mem
        · rcases List.mem_cons.1 mem with rfl | mem
          · exact ⟨[], name, context, line, rest, rfl, rfl⟩
          · exact further _ mem

/-- A look-up of an unbound name is reported, if it was not before. -/
theorem exists_mem_unresolvedImports {reported : List (String × ContextId)} {line : Option Nat}
    (mem : Event.imported name context false line ∈ events) (fresh : (name, context) ∉ reported) :
    ∃ line later, unresolved name context line later ∈ unresolvedImports reported events := by
  induction events generalizing reported with
  | nil => exact absurd mem List.not_mem_nil
  | cons event rest ih =>
    cases event with
    | exported other caller overwrote deferred place =>
      rcases List.mem_cons.1 mem with impossible | mem
      · cases impossible
      · exact ih mem fresh
    | imported other caller resolved place =>
      cases resolved with
      | true =>
        rcases List.mem_cons.1 mem with impossible | mem
        · cases impossible
        · exact ih mem fresh
      | false =>
        rw [unresolvedImports]
        by_cases same : (other, caller) = (name, context)
        · obtain ⟨rfl, rfl⟩ := Prod.mk.inj same
          rw [if_neg fresh]
          exact ⟨place, _, List.mem_cons_self⟩
        · have later : Event.imported name context false line ∈ rest := by
            rcases List.mem_cons.1 mem with here | mem
            · cases here
              exact absurd rfl same
            · exact mem
          split
          · exact ih later fresh
          · have unreported : (name, context) ∉ (other, caller) :: reported :=
              List.not_mem_cons_of_ne_of_not_mem (Ne.symm same) fresh
            obtain ⟨line, told, mem⟩ := ih later unreported
            exact ⟨line, told, List.mem_cons_of_mem _ mem⟩

/-- A finding about an unused export has the form of one. -/
theorem exists_of_mem_unusedExports {told : List String} {backwards : List Event}
    (mem : finding ∈ unusedExports events told backwards) :
    ∃ name context line, finding = unused name context line := by
  induction backwards generalizing told with
  | nil => exact absurd mem List.not_mem_nil
  | cons event earlier ih =>
    cases event with
    | imported name context resolved line => exact ih mem
    | exported name context overwrote deferred line =>
      rw [unusedExports] at mem
      split at mem
      · exact ih mem
      · rcases List.mem_cons.1 mem with rfl | mem
        · exact ⟨name, context, line, rfl⟩
        · exact ih mem

/-- One more finding about an unused export is one about its own name and context. -/
theorem exists_unused_mem_cons_iff {other : String} {caller : ContextId} {place : Option Nat}
    {findings : List Finding} :
    (∃ line, unused name context line ∈ unused other caller place :: findings) ↔
      (other = name ∧ caller = context) ∨ ∃ line, unused name context line ∈ findings := by
  constructor
  · rintro ⟨line, mem⟩
    rcases List.mem_cons.1 mem with here | later
    · have subject : name = other := congrArg Finding.subject here
      have origin : context = caller := congrArg Finding.context here
      exact .inl ⟨subject.symm, origin.symm⟩
    · exact .inr ⟨line, later⟩
  · rintro (⟨rfl, rfl⟩ | ⟨line, later⟩)
    · exact ⟨place, List.mem_cons_self⟩
    · exact ⟨line, List.mem_cons_of_mem _ later⟩

/-- An export is reported as unused, with the context of the last one of its name, exactly if no
look-up found the name and it was not told before. -/
theorem mem_unusedExports_iff {told : List String} {backwards : List Event} :
    (∃ line, unused name context line ∈ unusedExports events told backwards) ↔
      backwards.findSome? (Event.exporter? name) = some context ∧ isUsed name events = false ∧
        name ∉ told := by
  induction backwards generalizing told with
  | nil => simp [unusedExports]
  | cons event earlier ih =>
    cases event with
    | imported other caller resolved line => exact ih
    | exported other caller overwrote deferred place =>
      rw [unusedExports, List.findSome?_cons, Event.exporter?]
      by_cases silent : isUsed other events = true ∨ other ∈ told
      · rw [if_pos silent, ih]
        by_cases same : other = name
        · subst same
          have neither : ¬ (isUsed other events = false ∧ other ∉ told) := by
            rintro ⟨unused, untold⟩
            rcases silent with used | there
            · rw [unused] at used
              cases used
            · exact untold there
          exact ⟨fun found => absurd found.2 neither, fun found => absurd found.2 neither⟩
        · rw [if_neg same]
      · rw [if_neg silent]
        obtain ⟨idle, untold⟩ := not_or.1 silent
        have unused : isUsed other events = false := eq_false_of_ne_true idle
        refine exists_unused_mem_cons_iff.trans ?_
        rw [ih]
        by_cases same : other = name
        · subst same
          simp [unused, untold]
        · simp [same, Ne.symm same]

/-- An export is reported as unused unless its name was found or told. -/
theorem unusedExports_eq_nil_iff :
    unusedExports events [] events.reverse = [] ↔
      ∀ name, isExported name events = true → isUsed name events = true := by
  rw [List.eq_nil_iff_forall_not_mem]
  constructor
  · intro nothing name exported
    rw [← isSome_lastExporter?] at exported
    obtain ⟨context, last⟩ := Option.isSome_iff_exists.1 exported
    cases idle : isUsed name events with
    | true => rfl
    | false =>
      obtain ⟨line, mem⟩ := mem_unusedExports_iff.2 ⟨last, idle, List.not_mem_nil⟩
      exact absurd mem (nothing _)
  · intro all finding mem
    obtain ⟨name, context, line, rfl⟩ := exists_of_mem_unusedExports mem
    obtain ⟨last, idle, _⟩ := mem_unusedExports_iff.1 ⟨line, mem⟩
    have exported : isExported name events = true := by
      rw [← isSome_lastExporter?]
      exact Option.isSome_iff_exists.2 ⟨context, last⟩
    rw [all name exported] at idle
    cases idle

/-- A look-up of an unbound name is all it takes for a finding about one. -/
theorem unresolvedImports_eq_nil_iff :
    unresolvedImports [] events = [] ↔
      ∀ name context line, Event.imported name context false line ∉ events := by
  rw [List.eq_nil_iff_forall_not_mem]
  constructor
  · intro nothing name context line mem
    obtain ⟨line, later, mem⟩ := exists_mem_unresolvedImports mem List.not_mem_nil
    exact nothing _ mem
  · intro none finding mem
    obtain ⟨before, name, context, line, later, rfl, _⟩ := exists_of_mem_unresolvedImports mem
    exact none name context line (List.mem_append_right _ List.mem_cons_self)

/-- The finding of an overwritten export is a warning. -/
theorem severity_overwrite {event : Event} (warns : overwrite? event = some finding) :
    finding.severity = .warning := by
  unfold overwrite? at warns
  split at warns
  · obtain rfl := Option.some.inj warns
    rfl
  · cases warns

/-- The findings of one severity, in their order. -/
def only (severity : Severity) (findings : List Finding) : List Finding :=
  findings.filter fun finding => finding.severity = severity

/-- Only findings of the severity are left. -/
theorem severity_of_mem_only {severity : Severity} {findings : List Finding}
    (mem : finding ∈ only severity findings) : finding.severity = severity :=
  of_decide_eq_true (List.mem_filter.1 mem).2

/-- Findings of one severity are all that is left of them. -/
theorem only_self {severity : Severity} {findings : List Finding}
    (all : ∀ finding ∈ findings, finding.severity = severity) : only severity findings = findings :=
  List.filter_eq_self.2 fun finding mem => decide_eq_true (all finding mem)

/-- Of findings of other severities nothing is left. -/
theorem only_nil {severity : Severity} {findings : List Finding}
    (none : ∀ finding ∈ findings, finding.severity ≠ severity) : only severity findings = [] :=
  List.filter_eq_nil_iff.2 fun finding mem same => none finding mem (of_decide_eq_true same)

/-- Findings one after the other. -/
theorem only_append (severity : Severity) (findings others : List Finding) :
    only severity (findings ++ others) = only severity findings ++ only severity others :=
  List.filter_append _ _

/-- The order of the findings of a report is an order. -/
theorem precedes_trans (first second third : Finding) (before : first.precedes second = true)
    (after : second.precedes third = true) : first.precedes third = true := by
  simp only [Finding.precedes, decide_eq_true_eq] at before after ⊢
  exact Nat.le_trans before after

/-- Of two findings one may stand before the other. -/
theorem precedes_total (first second : Finding) :
    (first.precedes second || second.precedes first) = true := by
  simp only [Finding.precedes, Bool.or_eq_true, decide_eq_true_eq]
  exact Nat.le_total _ _

/-- Sorting leaves the findings of one severity in their order. -/
theorem only_mergeSort (severity : Severity) (findings : List Finding) :
    only severity (findings.mergeSort Finding.precedes) = only severity findings := by
  have equal : (only severity findings).Pairwise fun first second =>
      first.precedes second = true := by
    refine List.pairwise_of_forall_mem_list fun first here second there => ?_
    have same : first.severity = second.severity :=
      (severity_of_mem_only here).trans (severity_of_mem_only there).symm
    rw [Finding.precedes, same]
    exact decide_eq_true (Nat.le_refl _)
  have sorted : (only severity findings).Sublist (findings.mergeSort Finding.precedes) :=
    List.sublist_mergeSort precedes_trans precedes_total equal List.filter_sublist
  -- There are as many of the severity after sorting, so the sublist is all of them.
  have kept : (only severity (only severity findings)).Sublist
      (only severity (findings.mergeSort Finding.precedes)) := sorted.filter _
  rw [only_self fun finding => severity_of_mem_only] at kept
  have same := (List.mergeSort_perm findings Finding.precedes).filter
    fun finding => finding.severity = severity
  exact (kept.eq_of_length same.length_eq.symm).symm

/-- Findings in the order of a report are first those that are errors, then those that are warnings
and then those that are remarks. -/
theorem eq_of_precedes {findings : List Finding}
    (ordered : findings.Pairwise fun first second => first.precedes second = true) :
    findings = only .error findings ++ only .warning findings ++ only .info findings := by
  induction findings with
  | nil => rfl
  | cons first rest ih =>
    obtain ⟨before, ordered⟩ := List.pairwise_cons.1 ordered
    have parts := ih ordered
    have later (severity : Severity) (less : ¬ first.severity.rank ≤ severity.rank) :
        only severity rest = [] := by
      refine only_nil fun finding mem same => less ?_
      rw [← same]
      exact of_decide_eq_true (before finding mem)
    have splits (severity : Severity) : only severity (first :: rest) =
        only severity [first] ++ only severity rest := only_append severity [first] rest
    rw [splits, splits, splits]
    cases kind : first.severity with
    | error =>
      simp only [only, List.filter_singleton, kind] at parts ⊢
      exact congrArg (first :: ·) parts
    | warning =>
      rw [later .error (by rw [kind]; decide)] at parts ⊢
      simp only [only, List.filter_singleton, kind] at parts ⊢
      exact congrArg (first :: ·) parts
    | info =>
      rw [later .error (by rw [kind]; decide), later .warning (by rw [kind]; decide)] at parts ⊢
      simp only [only, List.filter_singleton, kind] at parts ⊢
      exact congrArg (first :: ·) parts

/-- Findings of one severity are none of another. -/
theorem only_of_ne {severity other : Severity} {findings : List Finding}
    (all : ∀ finding ∈ findings, finding.severity = other) (different : other ≠ severity) :
    only severity findings = [] :=
  only_nil fun finding mem same => different ((all finding mem).symm.trans same)

/-- The findings of each pass are of one severity: what is collected is sorted by passes. -/
theorem only_collected (events : List Event) (missing : List MissingSource) :
    only .error (collected events missing) =
      unresolvedImports [] events ++ missing.map missingFile ∧
    only .warning (collected events missing) = events.filterMap overwrite? ∧
    only .info (collected events missing) = unusedExports events [] events.reverse := by
  have unbound : ∀ finding ∈ unresolvedImports [] events, finding.severity = .error := by
    intro finding mem
    obtain ⟨_, name, context, line, later, _, rfl⟩ := exists_of_mem_unresolvedImports mem
    rfl
  have overwritten : ∀ finding ∈ events.filterMap overwrite?, finding.severity = .warning := by
    intro finding mem
    obtain ⟨event, _, warns⟩ := List.mem_filterMap.1 mem
    exact severity_overwrite warns
  have idle : ∀ finding ∈ unusedExports events [] events.reverse, finding.severity = .info := by
    intro finding mem
    obtain ⟨name, context, line, rfl⟩ := exists_of_mem_unusedExports mem
    rfl
  have lost : ∀ finding ∈ missing.map missingFile, finding.severity = .error := by
    intro finding mem
    obtain ⟨source, _, rfl⟩ := List.mem_map.1 mem
    rfl
  simp only [collected, only_append]
  refine ⟨?_, ?_, ?_⟩
  · rw [only_self unbound, only_self lost, only_of_ne overwritten (by decide),
      only_of_ne idle (by decide), List.append_nil, List.append_nil]
  · rw [only_self overwritten, only_of_ne unbound (by decide), only_of_ne idle (by decide),
      only_of_ne lost (by decide), List.append_nil, List.append_nil, List.nil_append]
  · rw [only_self idle, only_of_ne unbound (by decide), only_of_ne overwritten (by decide),
      only_of_ne lost (by decide), List.append_nil, List.nil_append, List.nil_append]

/-- The errors of a report are the failed look-ups and then the missing sources. -/
theorem errors_eq (events : List Event) (missing : List MissingSource) :
    (ofEvents events missing).errors = unresolvedImports [] events ++ missing.map missingFile :=
  (only_mergeSort .error _).trans (only_collected events missing).1

/-- In a report the failed look-ups come first, then the missing sources, then the exports that
replaced a binding, and the unused names come last. -/
theorem findings_eq (events : List Event) (missing : List MissingSource) :
    (ofEvents events missing).findings =
      unresolvedImports [] events ++ missing.map missingFile ++ events.filterMap overwrite? ++
        unusedExports events [] events.reverse := by
  obtain ⟨severe, warning, remark⟩ := only_collected events missing
  have ordered := List.pairwise_mergeSort precedes_trans precedes_total (collected events missing)
  rw [ofEvents, eq_of_precedes ordered, only_mergeSort, only_mergeSort, only_mergeSort, severe,
    warning, remark]

/-- Every finding of a report is of one of four kinds. -/
theorem mem_findings_iff :
    finding ∈ (ofEvents events missing).findings ↔
      finding ∈ unresolvedImports [] events ∨ (∃ source ∈ missing, missingFile source = finding) ∨
        (∃ event ∈ events, overwrite? event = some finding) ∨
          finding ∈ unusedExports events [] events.reverse := by
  rw [findings_eq, List.mem_append, List.mem_append, List.mem_append, List.mem_map,
    List.mem_filterMap, or_assoc, or_assoc]

/-- A report has errors exactly if a name was looked up that was not bound or a source was
missing. -/
theorem hasErrors_iff :
    (ofEvents events missing).hasErrors = true ↔
      (∃ name context line, Event.imported name context false line ∈ events) ∨ missing ≠ [] := by
  rw [hasErrors, Bool.not_eq_true', ← Bool.not_eq_true, List.isEmpty_iff, errors_eq,
    List.append_eq_nil_iff, List.map_eq_nil_iff, unresolvedImports_eq_nil_iff, not_and_or]
  simp only [not_forall, not_not]

/-- A report is empty exactly if there is nothing to tell in any of the four ways. -/
theorem isEmpty_iff :
    (ofEvents events missing).isEmpty = true ↔
      (∀ name context line, Event.imported name context false line ∉ events) ∧ missing = [] ∧
        (∀ event ∈ events, overwrite? event = none) ∧
          ∀ name, isExported name events = true → isUsed name events = true := by
  rw [isEmpty, List.isEmpty_iff, findings_eq, List.append_eq_nil_iff, List.append_eq_nil_iff,
    List.append_eq_nil_iff, List.map_eq_nil_iff, List.filterMap_eq_nil_iff,
    unresolvedImports_eq_nil_iff, unusedExports_eq_nil_iff, and_assoc, and_assoc]

/-- The report says something of a name and of a context. -/
def Tells (report : Report) (name : String) (context : ContextId) (words : String) : Prop :=
  ∃ finding ∈ report.findings, finding.subject = name ∧ finding.context = context ∧
    finding.message = named name ++ words

/-- What is said of a name after naming it. -/
theorem words_eq {words other : String} (same : named name ++ words = named name ++ other) :
    words = other := (String.append_right_inj _).1 same

/-- The two things said of unbound names are different. -/
theorem unboundWords_injective {one other : Bool} (same : unboundWords one = unboundWords other) :
    one = other := by
  have differ : unboundWords true ≠ unboundWords false := by decide
  cases one <;> cases other
  · rfl
  · exact absurd same.symm differ
  · exact absurd same differ
  · rfl

/-- What is said of an unbound name is said of no unused export. -/
theorem unboundWords_ne_unusedWords (later : Bool) : unboundWords later ≠ unusedWords := by
  cases later <;> decide

/-- A finding about a missing source says nothing of a name. -/
theorem missingFile_tells_nothing {source : MissingSource} {words : String} :
    (missingFile source).message ≠ named name ++ words := by
  intro same
  have characters := congrArg String.toList same
  simp [missingFile, named] at characters

/-- A warning says of a name that its export was overwritten, which is said of no unbound name and
of no unused export. -/
theorem overwrite_tells_otherwise {event : Event} (warns : overwrite? event = some finding)
    (subject : finding.subject = name) :
    (∀ later, finding.message ≠ named name ++ unboundWords later) ∧
      finding.message ≠ named name ++ unusedWords := by
  unfold overwrite? at warns
  split at warns
  · rename_i other context previous deferred line
    obtain rfl := Option.some.inj warns
    obtain rfl : other = name := subject
    have tail : ∀ words,
        named other ++ " exported by " ++ previous.label ++ " was overwritten" =
          named other ++ words →
        " exported by " ++ (previous.label ++ " was overwritten") = words := by
      intro words same
      rw [String.append_assoc, String.append_assoc] at same
      exact words_eq same
    refine ⟨fun later same => ?_, fun same => ?_⟩
    · have characters := congrArg String.toList (tail _ same)
      cases later <;> simp [unboundWords] at characters
    · have characters := congrArg String.toList (tail _ same)
      simp [unusedWords] at characters
  · cases warns

/-- Of a name it is said that it was not bound exactly if it was looked up by the context while it
was not, in the words that tell whether it was exported later. -/
theorem tells_unbound_iff {bound : Bool} (settled : ∀ before context line later,
      events = before ++ .imported name context false line :: later →
        isExported name later = bound) (later : Bool) :
    (ofEvents events missing).Tells name context (unboundWords later) ↔
      (∃ line, Event.imported name context false line ∈ events) ∧ bound = later := by
  constructor
  · rintro ⟨finding, mem, subject, caller, message⟩
    rcases mem_findings_iff.1 mem with told | ⟨source, _, rfl⟩ | ⟨event, _, warns⟩ | told
    · obtain ⟨before, other, teller, line, rest, split, rfl⟩ :=
        exists_of_mem_unresolvedImports told
      obtain rfl : other = name := subject
      obtain rfl : teller = context := caller
      have same : isExported other rest = later := unboundWords_injective (words_eq message)
      refine ⟨⟨line, ?_⟩, ?_⟩
      · rw [split]
        exact List.mem_append_right _ List.mem_cons_self
      · rw [← settled before teller line rest split, same]
    · exact absurd message missingFile_tells_nothing
    · exact absurd message ((overwrite_tells_otherwise warns subject).1 later)
    · obtain ⟨other, teller, line, rfl⟩ := exists_of_mem_unusedExports told
      obtain rfl : other = name := subject
      exact absurd (words_eq message).symm (unboundWords_ne_unusedWords later)
  · rintro ⟨⟨line, mem⟩, rfl⟩
    obtain ⟨line, later, told⟩ := exists_mem_unresolvedImports mem List.not_mem_nil
    obtain ⟨before, other, teller, place, rest, split, same⟩ :=
      exists_of_mem_unresolvedImports told
    obtain rfl : name = other := congrArg Finding.subject same
    have words : unboundWords later = unboundWords (isExported name rest) :=
      words_eq (congrArg Finding.message same)
    rw [settled before teller place rest split] at words
    exact ⟨_, mem_findings_iff.2 (.inl told), rfl, rfl, congrArg (named name ++ ·) words⟩

/-- Of a name it is said that it was never imported exactly if no look-up found it and the context
was the last to export it. -/
theorem tells_unused_iff :
    (ofEvents events missing).Tells name context unusedWords ↔
      lastExporter? name events = some context ∧ isUsed name events = false := by
  constructor
  · rintro ⟨finding, mem, subject, caller, message⟩
    rcases mem_findings_iff.1 mem with told | ⟨source, _, rfl⟩ | ⟨event, _, warns⟩ | told
    · obtain ⟨before, other, teller, line, rest, split, rfl⟩ :=
        exists_of_mem_unresolvedImports told
      obtain rfl : other = name := subject
      exact absurd (words_eq message) (unboundWords_ne_unusedWords _)
    · exact absurd message missingFile_tells_nothing
    · exact absurd message (overwrite_tells_otherwise warns subject).2
    · obtain ⟨other, teller, line, rfl⟩ := exists_of_mem_unusedExports told
      obtain rfl : other = name := subject
      obtain rfl : teller = context := caller
      obtain ⟨last, idle, _⟩ := mem_unusedExports_iff.1 ⟨line, told⟩
      exact ⟨last, idle⟩
  · rintro ⟨last, idle⟩
    obtain ⟨line, told⟩ := mem_unusedExports_iff.2 ⟨last, idle, List.not_mem_nil⟩
    exact ⟨_, mem_findings_iff.2 (.inr (.inr (.inr told))), rfl, rfl, rfl⟩

end Report

namespace Registry

variable {registry : Registry} {events : List Event} {name : String}

/-- A name that was looked up while it was not bound was exported later exactly if it is bound. -/
theorem Chronicled.exported_later (chronicled : registry.Chronicled events)
    {before later : List Event} {context : ContextId} {line : Option Nat}
    (split : events = before ++ .imported name context false line :: later) :
    Report.isExported name later = registry.contains name := by
  have placed : events[before.length]? = some (.imported name context false line) := by
    rw [split, List.getElem?_append_right (Nat.le_refl _), Nat.sub_self, List.getElem?_cons_zero]
  have unbound := chronicled.resolved before.length name context false line placed
  rw [split, List.take_left] at unbound
  rw [chronicled.contains, split, Report.isExported_append, ← unbound, Bool.false_or]
  rfl

/-- Exports of a journal that tell the exporter before them replaced nothing exactly if no name
was exported twice. -/
theorem nothing_overwritten_iff (told : ∀ (position : Nat) name context overwrote deferred line,
      events[position]? = some (.exported name context overwrote deferred line) →
        overwrote = lastExporter? name (events.take position)) :
    (∀ event ∈ events, Report.overwrite? event = none) ↔
      (events.filterMap Event.exported?).Nodup := by
  induction events using List.reverseRecOn with
  | nil => simp
  | append_singleton before event ih =>
    have toldBefore : ∀ (position : Nat) name context overwrote deferred line,
        before[position]? = some (.exported name context overwrote deferred line) →
          overwrote = lastExporter? name (before.take position) := by
      intro position name context overwrote deferred line placed
      have inside := (List.getElem?_eq_some_iff.1 placed).1
      have further := told position name context overwrote deferred line
        (by rw [List.getElem?_append_left inside, placed])
      rwa [List.take_append_of_le_length (Nat.le_of_lt inside)] at further
    have last := told before.length
    rw [List.getElem?_append_right (Nat.le_refl _), Nat.sub_self, List.getElem?_cons_zero,
      List.take_left] at last
    rw [List.forall_mem_append, ih toldBefore, List.forall_mem_singleton, List.filterMap_append]
    cases event with
    | imported name context resolved line =>
      rw [List.filterMap_cons_none rfl, List.filterMap_nil, List.append_nil]
      exact and_iff_left rfl
    | exported name context overwrote deferred line =>
      have replaced := last name context overwrote deferred line rfl
      have name_only : [Event.exported name context overwrote deferred line].filterMap
          Event.exported? = [name] := rfl
      have warns : Report.overwrite? (.exported name context overwrote deferred line) = none ↔
          name ∉ before.filterMap Event.exported? := by
        rw [← Report.isExported_iff, ← isSome_lastExporter?, ← replaced]
        cases overwrote <;> simp [Report.overwrite?]
      rw [name_only, warns, List.nodup_append]
      constructor
      · rintro ⟨once, fresh⟩
        refine ⟨once, List.nodup_cons.2 ⟨List.not_mem_nil, List.nodup_nil⟩,
          fun other mem last here => ?_⟩
        obtain rfl := List.mem_singleton.1 here
        exact fun same => fresh (same ▸ mem)
      · rintro ⟨once, _, apart⟩
        exact ⟨once, fun mem => apart name mem name (List.mem_singleton.2 rfl) rfl⟩

end Registry

end Interchange
