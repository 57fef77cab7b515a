import Interchange.Proofs.Report.Findings

/-!
# The contents of a report

What a report contains, told of the positions of the journal: which of them have a finding, and what
it says (`Report.TellsMiss`, `Report.TellsOverwrite`, `Report.TellsUnused`). The passes that make a
report remember what they have told already; what they remember is what a prefix or a suffix of the
journal says, so each pass finds at a position what can be computed there (`Report.missAt`,
`Report.overwriteAt`, `Report.unusedAt`) without it (`Report.unresolvedImports_eq`,
`Report.unusedExports_eq`).
-/
namespace Interchange.Report

variable {events before later : List Event} {name : String} {context : ContextId}

/-- Whether a context looked a name up in one of the events and did not find it bound. -/
def isMissed (name : String) (context : ContextId) (events : List Event) : Bool :=
  events.any fun
    | .imported other caller false _ => other == name && caller == context
    | _ => false

/-- The finding of the look-up at a position: there is one if it failed and the context had not
looked the name up in vain before. What comes after the position decides whether the name was
exported later. -/
def missAt (events : List Event) (position : Nat) : Option Finding :=
  match events[position]? with
  | some (.imported name context false line) =>
    if isMissed name context (events.take position) then none
    else some (unresolved name context line (isExported name (events.drop (position + 1))))
  | _ => none

/-- The finding of the export at a position: there is one if it replaced a binding. -/
def overwriteAt (events : List Event) (position : Nat) : Option Finding :=
  events[position]?.bind overwrite?

/-- The finding of the export at a position: there is one if it is the last of its name and no
look-up found the name. -/
def unusedAt (events : List Event) (position : Nat) : Option Finding :=
  match events[position]? with
  | some (.exported name context _ _ line) =>
    if isUsed name events || isExported name (events.drop (position + 1)) then none
    else some (unused name context line)
  | _ => none

/-- The failed look-ups that are reported, in the order of the events. -/
def misses (events : List Event) : List Finding :=
  (List.range events.length).filterMap (missAt events)

/-- The exports that replaced a binding, in the order of the events. -/
def overwrites (events : List Event) : List Finding :=
  (List.range events.length).filterMap (overwriteAt events)

/-- The names that were exported in vain, the one whose last export came last first. -/
def leftovers (events : List Event) : List Finding :=
  (List.range events.length).reverse.filterMap (unusedAt events)

/-- A context looked a name up in vain exactly if an event says so. -/
theorem isMissed_iff : isMissed name context events = true ↔
    ∃ line, Event.imported name context false line ∈ events := by
  rw [isMissed, List.any_eq_true]
  constructor
  · rintro ⟨event, mem, missed⟩
    cases event with
    | exported other caller overwrote deferred line => cases missed
    | imported other caller resolved line =>
      cases resolved with
      | true => cases missed
      | false =>
        rw [Bool.and_eq_true, beq_iff_eq, beq_iff_eq] at missed
        obtain ⟨rfl, rfl⟩ := missed
        exact ⟨line, mem⟩
  · rintro ⟨line, mem⟩
    exact ⟨_, mem, by simp⟩

/-- The event between two lists is found at the length of the first. -/
theorem getElem?_between (before : List Event) (event : Event) (later : List Event) :
    (before ++ event :: later)[before.length]? = some event := by
  rw [List.getElem?_append_right (Nat.le_refl _), Nat.sub_self, List.getElem?_cons_zero]

/-- What comes after the event between two lists is the second. -/
theorem drop_between (before : List Event) (event : Event) (later : List Event) :
    (before ++ event :: later).drop (before.length + 1) = later := by
  rw [List.drop_append, List.drop_eq_nil_of_le (Nat.le_succ _), List.nil_append,
    Nat.add_sub_cancel_left, List.drop_one, List.tail_cons]

/-- The finding of a failed look-up between other events. -/
theorem missAt_imported (before : List Event) (name : String) (context : ContextId)
    (line : Option Nat) (later : List Event) :
    missAt (before ++ .imported name context false line :: later) before.length =
      if isMissed name context before then none
      else some (unresolved name context line (isExported name later)) := by
  simp only [missAt, getElem?_between, List.take_left, drop_between]

/-- The finding of an export between other events. -/
theorem unusedAt_exported (before : List Event) (name : String) (context : ContextId)
    (overwrote : Option ContextId) (deferred : Bool) (line : Option Nat) (later : List Event) :
    unusedAt (before ++ .exported name context overwrote deferred line :: later) before.length =
      if isUsed name (before ++ .exported name context overwrote deferred line :: later) ||
          isExported name later then none
      else some (unused name context line) := by
  simp only [unusedAt, getElem?_between, drop_between]

/-- The pass over the failed look-ups. What it remembers of the events before is which contexts
looked which names up in vain. -/
theorem unresolvedImports_append {reported : List (String × ContextId)}
    (remembers : ∀ name context,
      (name, context) ∈ reported ↔ isMissed name context before = true) :
    unresolvedImports reported later =
      (List.range' before.length later.length).filterMap (missAt (before ++ later)) := by
  induction later generalizing before reported with
  | nil => rfl
  | cons event rest ih =>
    -- The pass goes on with the event behind it.
    have onward : ∀ {reported}, (∀ name context,
        (name, context) ∈ reported ↔ isMissed name context (before ++ [event]) = true) →
        unresolvedImports reported rest = (List.range' (before.length + 1) rest.length).filterMap
          (missAt (before ++ event :: rest)) := by
      intro reported remembers
      have further := ih remembers
      rwa [List.length_append, List.length_singleton, List.append_assoc,
        List.singleton_append] at further
    have also (name : String) (context : ContextId) :
        isMissed name context (before ++ [event]) =
          (isMissed name context before || isMissed name context [event]) := List.any_append
    rw [List.length_cons, List.range'_succ, List.filterMap_cons]
    cases event with
    | exported name context overwrote deferred line =>
      have nothing : missAt (before ++ .exported name context overwrote deferred line :: rest)
          before.length = none := by
        rw [missAt, getElem?_between]
      rw [nothing]
      change unresolvedImports reported rest = _
      refine onward fun other caller => ?_
      rw [remembers, also, Bool.or_eq_true]
      exact (or_iff_left Bool.false_ne_true).symm
    | imported name context resolved line =>
      cases resolved with
      | true =>
        have nothing : missAt (before ++ .imported name context true line :: rest)
            before.length = none := by
          rw [missAt, getElem?_between]
        rw [nothing]
        change unresolvedImports reported rest = _
        refine onward fun other caller => ?_
        rw [remembers, also, Bool.or_eq_true]
        exact (or_iff_left Bool.false_ne_true).symm
      | false =>
        have here (other : String) (caller : ContextId) :
            isMissed other caller [.imported name context false line] = true ↔
              (other, caller) = (name, context) := by
          rw [isMissed_iff, Prod.mk.injEq]
          constructor
          · rintro ⟨place, mem⟩
            cases List.mem_singleton.1 mem
            exact ⟨rfl, rfl⟩
          · rintro ⟨rfl, rfl⟩
            exact ⟨line, List.mem_singleton_self _⟩
        rw [missAt_imported, unresolvedImports]
        by_cases told : (name, context) ∈ reported
        · rw [if_pos told, if_pos ((remembers name context).1 told)]
          refine onward fun other caller => ?_
          rw [remembers, also, Bool.or_eq_true, here]
          refine (or_iff_left_of_imp fun same => ?_).symm
          obtain ⟨rfl, rfl⟩ := Prod.mk.inj same
          exact (remembers other caller).1 told
        · rw [if_neg told, if_neg fun missed => told ((remembers name context).2 missed)]
          refine congrArg _ (onward fun other caller => ?_)
          rw [List.mem_cons, remembers, also, Bool.or_eq_true, here, or_comm]

/-- The first look-ups that failed are reported, each pair of a name and a context once. -/
theorem unresolvedImports_eq (events : List Event) :
    unresolvedImports [] events = misses events := by
  have whole : unresolvedImports [] events =
      (List.range' ([] : List Event).length events.length).filterMap (missAt ([] ++ events)) :=
    unresolvedImports_append fun name context => by simp [isMissed]
  rwa [List.nil_append, List.length_nil, ← List.range_eq_range'] at whole

/-- The pass over the unused names, from the last event to the first. What it remembers of the
events behind is which unused names were exported there. -/
theorem unusedExports_append {told : List String} {backwards : List Event}
    (whole : events = backwards.reverse ++ later)
    (remembers : ∀ name, isUsed name events = false →
      (name ∈ told ↔ isExported name later = true)) :
    unusedExports events told backwards =
      (List.range backwards.length).reverse.filterMap (unusedAt events) := by
  induction backwards generalizing told later with
  | nil => rfl
  | cons event earlier ih =>
    have split : events = earlier.reverse ++ event :: later := by
      rw [whole, List.reverse_cons, List.append_assoc, List.singleton_append]
    have place : earlier.reverse.length = earlier.length := List.length_reverse
    have also (name : String) :
        isExported name (event :: later) = (isExported name [event] || isExported name later) :=
      isExported_append name [event] later
    rw [List.length_cons, List.range_succ, List.reverse_append, List.reverse_singleton,
      List.singleton_append, List.filterMap_cons]
    cases event with
    | imported name context resolved line =>
      have nothing : unusedAt events earlier.length = none := by
        rw [split, ← place, unusedAt, getElem?_between]
      rw [nothing]
      change unusedExports events told earlier = _
      refine ih split fun other idle => ?_
      rw [remembers other idle, also, Bool.or_eq_true]
      exact (or_iff_right Bool.false_ne_true).symm
    | exported name context overwrote deferred line =>
      have found : unusedAt events earlier.length =
          if isUsed name events || isExported name later then none
          else some (unused name context line) := by
        have last := unusedAt_exported earlier.reverse name context overwrote deferred line later
        rwa [← split, place] at last
      have here (other : String) :
          isExported other [.exported name context overwrote deferred line] = true ↔
            other = name := by
        rw [isExported_iff]
        exact List.mem_singleton
      rw [found, unusedExports]
      by_cases silent : isUsed name events = true ∨ name ∈ told
      · have nothing : (isUsed name events || isExported name later) = true := by
          rw [Bool.or_eq_true]
          cases idle : isUsed name events with
          | true => exact .inl rfl
          | false =>
            have mentioned : name ∈ told := silent.resolve_left (by rw [idle]; decide)
            exact .inr ((remembers name idle).1 mentioned)
        rw [if_pos silent, if_pos nothing]
        refine ih split fun other idle => ?_
        rw [remembers other idle, also, Bool.or_eq_true, here]
        refine (or_iff_right_of_imp fun same => ?_).symm
        subst same
        rw [idle, Bool.false_or] at nothing
        exact nothing
      · obtain ⟨busy, untold⟩ := not_or.1 silent
        have idle : isUsed name events = false := eq_false_of_ne_true busy
        have something : ¬ (isUsed name events || isExported name later) = true := by
          rw [idle, Bool.false_or]
          exact fun exported => untold ((remembers name idle).2 exported)
        rw [if_neg silent, if_neg something]
        refine congrArg _ (ih split fun other unusedOther => ?_)
        rw [List.mem_cons, remembers other unusedOther, also, Bool.or_eq_true, here]

/-- The unused names are reported where they were exported last, the latest first. -/
theorem unusedExports_eq (events : List Event) :
    unusedExports events [] events.reverse = leftovers events := by
  have turned : events = events.reverse.reverse ++ [] := by
    rw [List.reverse_reverse, List.append_nil]
  have whole : unusedExports events [] events.reverse =
      (List.range events.reverse.length).reverse.filterMap (unusedAt events) :=
    unusedExports_append turned fun name _ => by simp [isExported]
  rwa [List.length_reverse] at whole

/-- Every export that replaced a binding is reported where it stands. -/
theorem filterMap_overwrite?_eq (events : List Event) :
    events.filterMap overwrite? = overwrites events := by
  have positions : events.map some = (List.range events.length).map fun position =>
      events[position]? := by
    apply List.ext_getElem?
    intro position
    by_cases inside : position < events.length <;> simp [inside]
  have bound : events.filterMap overwrite? =
      (events.map some).filterMap fun event => event.bind overwrite? := by
    rw [List.filterMap_map]
    rfl
  rw [bound, positions, List.filterMap_map]
  rfl

/-- What it takes for a finding about a failed look-up at a position. -/
theorem missAt_eq_some_iff {position : Nat} {finding : Finding} :
    missAt events position = some finding ↔ ∃ name context line,
      events[position]? = some (.imported name context false line) ∧
      isMissed name context (events.take position) = false ∧
      unresolved name context line (isExported name (events.drop (position + 1))) = finding := by
  unfold missAt
  constructor
  · intro found
    split at found
    · rename_i name context line here
      split at found
      · cases found
      · rename_i fresh
        exact ⟨name, context, line, here, eq_false_of_ne_true fresh, Option.some.inj found⟩
    · cases found
  · rintro ⟨name, context, line, here, fresh, rfl⟩
    simp only [here, fresh, Bool.false_eq_true, if_false]

/-- What it takes for a finding about an unused name at a position. -/
theorem unusedAt_eq_some_iff {position : Nat} {finding : Finding} :
    unusedAt events position = some finding ↔ ∃ name context overwrote deferred line,
      events[position]? = some (.exported name context overwrote deferred line) ∧
      isUsed name events = false ∧ isExported name (events.drop (position + 1)) = false ∧
      unused name context line = finding := by
  unfold unusedAt
  constructor
  · intro found
    split at found
    · rename_i name context overwrote deferred line here
      split at found
      · cases found
      · rename_i fresh
        rw [Bool.or_eq_true, not_or] at fresh
        exact ⟨name, context, overwrote, deferred, line, here, eq_false_of_ne_true fresh.1,
          eq_false_of_ne_true fresh.2, Option.some.inj found⟩
    · cases found
  · rintro ⟨name, context, overwrote, deferred, line, here, idle, last, rfl⟩
    simp only [here, idle, last, Bool.or_false, Bool.false_eq_true, if_false]

/-- An event at an earlier position is among those before. -/
theorem mem_take_of_lt {position earlier : Nat} {event : Event} (before : earlier < position)
    (there : events[earlier]? = some event) : event ∈ events.take position := by
  apply List.mem_of_getElem? (i := earlier)
  rw [List.getElem?_take_of_lt before, there]

/-- An event at a later position is among those after. -/
theorem mem_drop_of_lt {position later : Nat} {event : Event} (after : position < later)
    (there : events[later]? = some event) : event ∈ events.drop (position + 1) := by
  apply List.mem_of_getElem? (i := later - (position + 1))
  rw [List.getElem?_drop, Nat.add_sub_cancel' after, there]

/-- Of each name and context at most one failed look-up is reported. -/
theorem misses_nodup (events : List Event) :
    ((misses events).map fun finding => (finding.subject, finding.context)).Nodup := by
  refine List.pairwise_map.2 (List.pairwise_filterMap.2 ?_)
  refine List.pairwise_lt_range.imp fun {earlier later} before one found other further same => ?_
  obtain ⟨name, context, line, here, _, rfl⟩ := missAt_eq_some_iff.1 found
  obtain ⟨again, caller, place, there, fresh, rfl⟩ := missAt_eq_some_iff.1 further
  obtain ⟨subject, origin⟩ : name = again ∧ context = caller := Prod.mk.inj same
  subst subject origin
  have missed : isMissed name context (events.take later) = true :=
    isMissed_iff.2 ⟨line, mem_take_of_lt before here⟩
  rw [missed] at fresh
  cases fresh

/-- A failed look-up of a name by a context is reported exactly if there is one. -/
theorem mem_misses_iff :
    (name, context) ∈ (misses events).map (fun finding => (finding.subject, finding.context)) ↔
      ∃ line, Event.imported name context false line ∈ events := by
  rw [← unresolvedImports_eq, List.mem_map]
  constructor
  · rintro ⟨finding, mem, same⟩
    obtain ⟨before, other, caller, line, later, rfl, rfl⟩ := exists_of_mem_unresolvedImports mem
    obtain ⟨rfl, rfl⟩ := Prod.mk.inj same
    exact ⟨line, List.mem_append_right _ List.mem_cons_self⟩
  · rintro ⟨line, mem⟩
    obtain ⟨line, later, reported⟩ := exists_mem_unresolvedImports mem List.not_mem_nil
    exact ⟨_, reported, rfl⟩

/-- Each name is reported as unused at most once. -/
theorem leftovers_nodup (events : List Event) :
    ((leftovers events).map Finding.subject).Nodup := by
  refine List.pairwise_map.2 (List.pairwise_filterMap.2 (List.pairwise_reverse.2 ?_))
  refine List.pairwise_lt_range.imp fun {earlier later} before one found other further same => ?_
  obtain ⟨name, context, overwrote, deferred, line, here, _, _, rfl⟩ :=
    unusedAt_eq_some_iff.1 found
  obtain ⟨again, caller, replaced, lazy, place, there, _, last, rfl⟩ :=
    unusedAt_eq_some_iff.1 further
  have subject : name = again := same
  subst subject
  have exported : isExported name (events.drop (earlier + 1)) = true :=
    isExported_iff.2 (List.mem_filterMap.2 ⟨_, mem_drop_of_lt before here, rfl⟩)
  rw [exported] at last
  cases last

/-- A name is reported as unused exactly if it was exported and no look-up found it. -/
theorem mem_leftovers_iff :
    name ∈ (leftovers events).map Finding.subject ↔
      isExported name events = true ∧ isUsed name events = false := by
  rw [← unusedExports_eq, ← isSome_lastExporter?, Option.isSome_iff_exists, List.mem_map]
  constructor
  · rintro ⟨finding, mem, rfl⟩
    obtain ⟨name, context, line, rfl⟩ := exists_of_mem_unusedExports mem
    obtain ⟨last, idle, _⟩ := mem_unusedExports_iff.1 ⟨line, mem⟩
    exact ⟨⟨context, last⟩, idle⟩
  · rintro ⟨⟨context, last⟩, idle⟩
    obtain ⟨line, mem⟩ := mem_unusedExports_iff.2 ⟨last, idle, List.not_mem_nil⟩
    exact ⟨_, mem, rfl⟩

/-- Some export of a name is at a position of the events. -/
def IsExportedAt (events : List Event) (name : String) (position : Nat) : Prop :=
  ∃ context overwrote deferred line,
    events[position]? = some (.exported name context overwrote deferred line)

/-- The finding about the event at a position if it is a look-up that failed, the first one of its
name by its context. What it says depends on whether an export of the name comes after it. -/
inductive TellsMiss (events : List Event) (position : Nat) : Finding → Prop where
  /-- The name is exported later. -/
  | early {name : String} {context : ContextId} {line : Option Nat}
      (here : events[position]? = some (.imported name context false line))
      (first : ∀ other place, events[other]? = some (.imported name context false place) →
        position ≤ other)
      (later : ∃ other, position < other ∧ IsExportedAt events name other) :
      TellsMiss events position {
        severity := .error, category := .exchange, context, line, subject := name,
        message := "`" ++ name ++ "`" ++ " was imported before it was exported" }
  /-- The name is not exported any more. -/
  | vain {name : String} {context : ContextId} {line : Option Nat}
      (here : events[position]? = some (.imported name context false line))
      (first : ∀ other place, events[other]? = some (.imported name context false place) →
        position ≤ other)
      (never : ∀ other, position < other → ¬ IsExportedAt events name other) :
      TellsMiss events position {
        severity := .error, category := .exchange, context, line, subject := name,
        message := "`" ++ name ++ "`" ++ " was imported but never exported" }

/-- The finding about the event at a position if it is an export that replaced a binding. -/
inductive TellsOverwrite (events : List Event) (position : Nat) : Finding → Prop where
  /-- It names the context that had exported what was replaced. -/
  | replaced {name : String} {context previous : ContextId} {deferred : Bool} {line : Option Nat}
      (here : events[position]? = some (.exported name context (some previous) deferred line)) :
      TellsOverwrite events position {
        severity := .warning, category := .exchange, context, line, subject := name,
        message := "`" ++ name ++ "`" ++ " exported by " ++ previous.label ++ " was overwritten" }

/-- The finding about the event at a position if it is the last export of a name that no look-up
found bound, be it before or after. -/
inductive TellsUnused (events : List Event) (position : Nat) : Finding → Prop where
  /-- It is told where the name was exported last. -/
  | idle {name : String} {context : ContextId} {overwrote : Option ContextId} {deferred : Bool}
      {line : Option Nat}
      (here : events[position]? = some (.exported name context overwrote deferred line))
      (last : ∀ other, IsExportedAt events name other → other ≤ position)
      (unused : ∀ caller place, Event.imported name caller true place ∉ events) :
      TellsUnused events position {
        severity := .info, category := .exchange, context, line, subject := name,
        message := "`" ++ name ++ "`" ++ " was exported but never imported" }

/-- The finding about a source that could not be loaded. -/
inductive TellsMissing : MissingSource → Finding → Prop where
  /-- It has the context and the line of the request, and is about the path. -/
  | lost (context : ContextId) (path : String) (line : Option Nat) :
      TellsMissing ⟨context, path, line⟩ {
        severity := .error, category := .missingFile, context, line, subject := path,
        message := "file not found: " ++ path }

/-- The findings are those about the events at the positions where there is anything to tell, one at
each of these positions, and they come in an order of the positions. -/
def Lists (precedes : Nat → Nat → Prop) (tells : Nat → Finding → Prop) (findings : List Finding) :
    Prop :=
  ∃ positions : List Nat, positions.Pairwise precedes ∧ List.Forall₂ tells positions findings ∧
    ∀ position finding, tells position finding → position ∈ positions

/-- A name is exported exactly if there is a position where it is. -/
theorem isExported_iff_exists :
    isExported name events = true ↔ ∃ position, IsExportedAt events name position := by
  rw [isExported_iff, List.mem_filterMap]
  constructor
  · rintro ⟨event, mem, exported⟩
    obtain ⟨position, there⟩ := List.mem_iff_getElem?.1 mem
    cases event with
    | imported other caller resolved line => cases exported
    | exported other caller overwrote deferred line =>
      obtain rfl := Option.some.inj exported
      exact ⟨position, caller, overwrote, deferred, line, there⟩
  · rintro ⟨position, caller, overwrote, deferred, line, there⟩
    exact ⟨_, List.mem_of_getElem? there, rfl⟩

/-- A name is exported by an event behind a position exactly if there is such a position. -/
theorem isExported_drop_iff {position : Nat} :
    isExported name (events.drop (position + 1)) = true ↔
      ∃ other, position < other ∧ IsExportedAt events name other := by
  simp only [isExported_iff_exists, IsExportedAt, List.getElem?_drop]
  constructor
  · rintro ⟨index, there⟩
    exact ⟨_, by omega, there⟩
  · rintro ⟨other, behind, there⟩
    exact ⟨other - (position + 1), by rwa [Nat.add_sub_cancel' behind]⟩

/-- A context has looked a name up in vain before a position unless none of its failed look-ups of
the name stands there. -/
theorem isMissed_take_iff {position : Nat} :
    isMissed name context (events.take position) = false ↔
      ∀ other place, events[other]? = some (.imported name context false place) →
        position ≤ other := by
  rw [← Bool.not_eq_true, isMissed_iff, not_exists]
  constructor
  · intro fresh other place there
    by_contra before
    exact fresh place (mem_take_of_lt (Nat.lt_of_not_le before) there)
  · intro first place mem
    obtain ⟨other, there⟩ := List.mem_iff_getElem?.1 mem
    rw [List.getElem?_take] at there
    split at there
    · rename_i before
      exact Nat.not_le_of_lt before (first other place there)
    · cases there

/-- What is found at a position about a failed look-up is what is to be told. -/
theorem missAt_eq_some_iff_tellsMiss {position : Nat} {finding : Finding} :
    missAt events position = some finding ↔ TellsMiss events position finding := by
  rw [missAt_eq_some_iff]
  constructor
  · rintro ⟨name, context, line, here, fresh, rfl⟩
    have first := isMissed_take_iff.1 fresh
    cases later : isExported name (events.drop (position + 1)) with
    | true => exact .early here first (isExported_drop_iff.1 later)
    | false =>
      refine .vain here first fun other behind there => ?_
      rw [isExported_drop_iff.2 ⟨other, behind, there⟩] at later
      cases later
  · rintro (⟨here, first, later⟩ | ⟨here, first, never⟩)
    · refine ⟨_, _, _, here, isMissed_take_iff.2 first, ?_⟩
      rw [isExported_drop_iff.2 later]
      rfl
    · refine ⟨_, _, _, here, isMissed_take_iff.2 first, ?_⟩
      have silent : isExported _ (events.drop (position + 1)) = false :=
        eq_false_of_ne_true fun later =>
          let ⟨other, behind, there⟩ := isExported_drop_iff.1 later
          never other behind there
      rw [silent]
      rfl

/-- What is found at a position about an export that replaced a binding is what is to be told. -/
theorem overwriteAt_eq_some_iff {position : Nat} {finding : Finding} :
    overwriteAt events position = some finding ↔ TellsOverwrite events position finding := by
  rw [overwriteAt, Option.bind_eq_some_iff]
  constructor
  · rintro ⟨event, here, warns⟩
    unfold overwrite? at warns
    split at warns
    · obtain rfl := Option.some.inj warns
      exact .replaced here
    · cases warns
  · rintro ⟨here⟩
    exact ⟨_, here, rfl⟩

/-- What is found at a position about an unused name is what is to be told. -/
theorem unusedAt_eq_some_iff_tellsUnused {position : Nat} {finding : Finding} :
    unusedAt events position = some finding ↔ TellsUnused events position finding := by
  rw [unusedAt_eq_some_iff]
  constructor
  · rintro ⟨name, context, overwrote, deferred, line, here, idle, last, rfl⟩
    refine .idle here (fun other there => ?_) fun caller place mem => ?_
    · by_contra behind
      rw [isExported_drop_iff.2 ⟨other, Nat.lt_of_not_le behind, there⟩] at last
      cases last
    · rw [isUsed_iff.2 ⟨caller, place, mem⟩] at idle
      cases idle
  · rintro ⟨here, last, unused⟩
    refine ⟨_, _, _, _, _, here, eq_false_of_ne_true fun used => ?_,
      eq_false_of_ne_true fun exported => ?_, rfl⟩
    · obtain ⟨caller, place, mem⟩ := isUsed_iff.1 used
      exact unused caller place mem
    · obtain ⟨other, behind, there⟩ := isExported_drop_iff.1 exported
      exact Nat.not_le_of_lt behind (last other there)

/-- The findings that are collected at positions in their order. -/
theorem lists_filterMap {precedes : Nat → Nat → Prop} {tells : Nat → Finding → Prop}
    {found : Nat → Option Finding} {positions : List Nat} (ordered : positions.Pairwise precedes)
    (agree : ∀ position finding, found position = some finding ↔ tells position finding)
    (all : ∀ position finding, found position = some finding → position ∈ positions) :
    Lists precedes tells (positions.filterMap found) := by
  refine ⟨positions.filter fun position => (found position).isSome, ordered.filter _, ?_,
    fun position finding told => ?_⟩
  · clear ordered all
    induction positions with
    | nil => exact .nil
    | cons position rest ih =>
      cases here : found position with
      | none => simpa [here] using ih
      | some finding => simpa [here] using ⟨(agree _ _).1 here, ih⟩
  · have there := (agree _ _).2 told
    exact List.mem_filter.2 ⟨all _ _ there, by rw [there]; rfl⟩

/-- Nothing is told about a position behind the events. -/
theorem mem_range_of_getElem? {position : Nat} {event : Event}
    (there : events[position]? = some event) : position ∈ List.range events.length :=
  List.mem_range.2 (List.getElem?_eq_some_iff.1 there).1

/-- A report contains exactly this, in this order: the errors, which are the findings about the
look-ups that failed, each the first one of its name by its context, in the order of the events, and
then those about the missing sources in their order; the warnings, which are the findings about the
exports that replaced a binding, in the order of the events; and the remarks, which are the findings
about the last exports of the names that no look-up found bound, from the last event to the first.
Of each pair of a name and a context for which a look-up failed there is one error, for each export
that replaced a binding there is one warning, and of each name that was exported and found by no
look-up there is one remark. What each finding says is written out with it. -/
theorem report_contents (events : List Event) (missing : List MissingSource) :
    ∃ misses lost overwrites leftovers : List Finding,
      (ofEvents events missing).findings = misses ++ lost ++ overwrites ++ leftovers ∧
      (ofEvents events missing).errors = misses ++ lost ∧
      Lists (· < ·) (TellsMiss events) misses ∧
      List.Forall₂ TellsMissing missing lost ∧
      Lists (· < ·) (TellsOverwrite events) overwrites ∧
      Lists (· > ·) (TellsUnused events) leftovers ∧
      (misses.map fun finding => (finding.subject, finding.context)).Nodup ∧
      (∀ name context,
        (name, context) ∈ misses.map (fun finding => (finding.subject, finding.context)) ↔
          ∃ line, Event.imported name context false line ∈ events) ∧
      (leftovers.map Finding.subject).Nodup ∧
      ∀ name, name ∈ leftovers.map Finding.subject ↔
        (∃ position, IsExportedAt events name position) ∧
          ∀ caller place, Event.imported name caller true place ∉ events := by
  have forwards := List.pairwise_lt_range (n := events.length)
  have backwards : (List.range events.length).reverse.Pairwise (· > ·) :=
    List.pairwise_reverse.2 forwards
  refine ⟨misses events, missing.map missingFile, overwrites events, leftovers events, ?_, ?_, ?_,
    ?_, ?_, ?_, misses_nodup events, fun _ _ => mem_misses_iff, leftovers_nodup events,
    fun name => ?_⟩
  · rw [findings_eq, unresolvedImports_eq, filterMap_overwrite?_eq, unusedExports_eq]
  · rw [errors_eq, unresolvedImports_eq]
  · refine lists_filterMap forwards (fun _ _ => missAt_eq_some_iff_tellsMiss) ?_
    intro position finding found
    obtain ⟨_, _, _, here, _⟩ := missAt_eq_some_iff.1 found
    exact mem_range_of_getElem? here
  · exact List.forall₂_map_right_iff.2 (List.forall₂_same.2 fun source _ => .lost _ _ _)
  · refine lists_filterMap forwards (fun _ _ => overwriteAt_eq_some_iff) ?_
    intro position finding found
    obtain ⟨here⟩ := overwriteAt_eq_some_iff.1 found
    exact mem_range_of_getElem? here
  · refine lists_filterMap backwards (fun _ _ => unusedAt_eq_some_iff_tellsUnused) ?_
    intro position finding found
    obtain ⟨_, _, _, _, _, here, _⟩ := unusedAt_eq_some_iff.1 found
    exact List.mem_reverse.2 (mem_range_of_getElem? here)
  · rw [mem_leftovers_iff, isExported_iff_exists, ← Bool.not_eq_true, isUsed_iff]
    simp only [not_exists]

end Interchange.Report
