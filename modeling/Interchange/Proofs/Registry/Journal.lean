import Interchange.Proofs.Registry.Runs

/-!
# The journal and the bindings

The bindings of a registry and its journal are kept apart, and they agree: what is bound, by
which context, and what each export replaced and each look-up found can be read off the events
alone (`Registry.Chronicled`). Main statement: they agree after all calls and at every moment of
every run, and no name is ever unbound (`journal_agrees_with_bindings`).
-/
namespace Interchange

/-- The context that an event says has bound a name. -/
def Event.exporter? (name : String) : Event → Option ContextId
  | exported other context .. => if other = name then some context else none
  | imported .. => none

/-- The context of the last export of a name. -/
def lastExporter? (name : String) (events : List Event) : Option ContextId :=
  events.reverse.findSome? (Event.exporter? name)

/-- The last event decides if it is an export of the name. -/
theorem lastExporter?_append (name : String) (events : List Event) (event : Event) :
    lastExporter? name (events ++ [event]) =
      (event.exporter? name).or (lastExporter? name events) := by
  simp only [lastExporter?, List.reverse_append, List.reverse_cons, List.reverse_nil,
    List.nil_append, List.cons_append, List.findSome?_cons]
  cases event.exporter? name <;> rfl

/-- A name was exported exactly when some context was the last to export it. -/
theorem isSome_lastExporter? (name : String) (events : List Event) :
    (lastExporter? name events).isSome = Report.isExported name events := by
  rw [Bool.eq_iff_iff, lastExporter?, List.findSome?_isSome_iff, Report.isExported,
    List.any_eq_true]
  refine exists_congr fun event => ?_
  cases event with
  | exported other context overwrote deferred line =>
    by_cases same : other = name <;> simp [Event.exporter?, same]
  | imported other context resolved line => simp [Event.exporter?]

namespace Registry

/-- A registry whose journal is a list of events, with which its bindings agree. -/
structure Chronicled (registry : Registry) (events : List Event) : Prop where
  /-- The events are the journal. -/
  journal : registry.journal = some events
  /-- The bindings are sorted by name. -/
  sorted : registry.Sorted
  /-- A name is bound by the context of its last export. -/
  origin : ∀ name, registry.originOf name = lastExporter? name events
  /-- An export tells the context of the export of its name before it. -/
  overwrote : ∀ (position : Nat) name context overwrote deferred line,
    events[position]? = some (.exported name context overwrote deferred line) →
      overwrote = lastExporter? name (events.take position)
  /-- A look-up was resolved exactly when an export of its name came before it. -/
  resolved : ∀ (position : Nat) name context resolved line,
    events[position]? = some (.imported name context resolved line) →
      resolved = Report.isExported name (events.take position)

/-- An event of a longer journal is an older one or the last one. -/
theorem eq_of_getElem?_append {events : List Event} {event found : Event} {position : Nat}
    (placed : (events ++ [event])[position]? = some found) :
    (events[position]? = some found ∧ (events ++ [event]).take position = events.take position) ∨
      (found = event ∧ (events ++ [event]).take position = events) := by
  obtain ⟨inside, rfl⟩ := List.getElem?_eq_some_iff.1 placed
  rw [List.length_append, List.length_singleton] at inside
  by_cases older : position < events.length
  · left
    rw [List.getElem_append_left older, List.take_append_of_le_length (by omega)]
    exact ⟨List.getElem?_eq_getElem older, rfl⟩
  · right
    obtain rfl : position = events.length := by omega
    simp

/-- The journal of a registry at its start is empty, and so are its bindings. -/
theorem start_chronicled : (start true).Chronicled [] where
  journal := rfl
  sorted := Fields.sorted_nil
  origin _ := rfl
  overwrote := by simp
  resolved := by simp

variable {registry : Registry} {events : List Event}

/-- A name is bound exactly when it was exported. -/
theorem Chronicled.contains (chronicled : registry.Chronicled events) (name : String) :
    registry.contains name = Report.isExported name events := by
  rw [contains_eq_isSome_originOf, chronicled.origin, isSome_lastExporter?]

/-- An export agrees with the journal. -/
theorem Chronicled.bind (chronicled : registry.Chronicled events) (name : String) (slot : Slot)
    (context : ContextId) (line : Option Nat) :
    (registry.bind name slot context line).Chronicled
      (events ++ [.exported name context (registry.originOf name) slot.isDeferred line]) where
  journal := by rw [journal_bind, chronicled.journal, Option.map_some]
  sorted := chronicled.sorted.bind name slot context line
  origin other := by
    rw [originOf_bind, lastExporter?_append, ← chronicled.origin, Event.exporter?]
    by_cases same : other = name
    · rw [if_pos same, if_pos same.symm, Option.some_or]
    · rw [if_neg same, if_neg (Ne.symm same), Option.none_or]
  overwrote position other context' overwrote deferred line' placed := by
    rcases eq_of_getElem?_append placed with ⟨older, before⟩ | ⟨last, before⟩
    · rw [before]
      exact chronicled.overwrote position other context' overwrote deferred line' older
    · rw [before]
      simp only [Event.exported.injEq] at last
      rw [last.2.2.1, last.1, chronicled.origin]
  resolved position other context' resolved line' placed := by
    rcases eq_of_getElem?_append placed with ⟨older, before⟩ | ⟨last, before⟩
    · rw [before]
      exact chronicled.resolved position other context' resolved line' older
    · simp at last

/-- A look-up agrees with the journal. -/
theorem Chronicled.lookUp (chronicled : registry.Chronicled events) (name : String)
    (context : ContextId) (line : Option Nat) :
    (registry.lookUp name context line).2.Chronicled
      (events ++ [.imported name context (registry.contains name) line]) where
  journal := by rw [journal_lookUp, chronicled.journal, Option.map_some]
  sorted := chronicled.sorted.lookUp name context line
  origin other := by
    rw [lastExporter?_append, Event.exporter?, Option.none_or]
    exact chronicled.origin other
  overwrote position other context' overwrote deferred line' placed := by
    rcases eq_of_getElem?_append placed with ⟨older, before⟩ | ⟨last, before⟩
    · rw [before]
      exact chronicled.overwrote position other context' overwrote deferred line' older
    · simp at last
  resolved position other context' resolved line' placed := by
    rcases eq_of_getElem?_append placed with ⟨older, before⟩ | ⟨last, before⟩
    · rw [before]
      exact chronicled.resolved position other context' resolved line' older
    · rw [before]
      simp only [Event.imported.injEq] at last
      rw [last.2.2.1, last.1, chronicled.contains]

/-- Marking a binding is no event. -/
theorem Chronicled.replace (chronicled : registry.Chronicled events) (name : String)
    (slot : Slot) : (registry.replace name slot).Chronicled events where
  journal := by rw [journal_replace, chronicled.journal]
  sorted := chronicled.sorted.replace name slot
  origin other := by rw [originOf_replace, chronicled.origin]
  overwrote := chronicled.overwrote
  resolved := chronicled.resolved

/-- The end of a routine is no event. -/
theorem Chronicled.settle (chronicled : registry.Chronicled events) (name : String)
    (generation routine : Nat) {ε : Type} (result : Except ε Value) :
    (registry.settle name generation routine result).Chronicled events where
  journal := by rw [journal_settle, chronicled.journal]
  sorted := chronicled.sorted.settle name generation routine result
  origin other := by rw [originOf_settle, chronicled.origin]
  overwrote := chronicled.overwrote
  resolved := chronicled.resolved

end Registry

namespace Exchange

/-- Whatever happens at a registry agrees with its journal. -/
theorem Step.chronicled {exchange next : Exchange} {deed : Deed}
    (now : Step exchange deed next)
    (before : ∃ events, exchange.registry.Chronicled events) :
    ∃ events, next.registry.Chronicled events := by
  obtain ⟨events, chronicled⟩ := before
  cases now with
  | exported registry forcings name content context line =>
    exact ⟨_, chronicled.bind name content.slot context line⟩
  | unbound forcings context line missing => exact ⟨_, chronicled.lookUp _ context line⟩
  | ready forcings context line found held => exact ⟨_, chronicled.lookUp _ context line⟩
  | cyclic forcings context line found held => exact ⟨_, chronicled.lookUp _ context line⟩
  | started forcings context line found held =>
    exact ⟨_, (chronicled.lookUp _ context line).replace _ _⟩
  | ended registry forcing forcings result => exact ⟨_, chronicled.settle _ _ _ result⟩

/-- So does a registry at which at most one thing happens. -/
theorem Moves.chronicled {exchange next : Exchange} {deed : Option Deed}
    (moves : exchange.Moves deed next) (before : ∃ events, exchange.registry.Chronicled events) :
    ∃ events, next.registry.Chronicled events := by
  cases moves with
  | rest => exact before
  | step now => exact now.chronicled before

/-- Whatever happens at a registry, a bound name stays bound. -/
theorem Step.contains {exchange next : Exchange} {deed : Deed} (now : Step exchange deed next)
    {name : String} (bound : exchange.registry.contains name = true) :
    next.registry.contains name = true := by
  rw [Registry.contains_eq_isSome_originOf] at bound ⊢
  cases now with
  | exported registry forcings other content context line =>
    rw [Registry.originOf_bind]
    split
    · rfl
    · exact bound
  | unbound forcings context line missing => exact bound
  | ready forcings context line found held => exact bound
  | cyclic forcings context line found held => exact bound
  | started forcings context line found held =>
    rw [Registry.originOf_replace]
    exact bound
  | ended registry forcing forcings result =>
    rw [Registry.originOf_settle]
    exact bound

end Exchange

/-- What a journal says about a registry. -/
structure Registry.Agrees (registry : Registry) (events : List Event) : Prop extends
    registry.Chronicled events where
  /-- A name is bound exactly when it was exported. -/
  contains : ∀ name, registry.contains name = Report.isExported name events
  /-- The names are listed in strictly rising order. -/
  rising : registry.names.Pairwise (· < ·)
  /-- The exported names are listed, and no others. -/
  listed : ∀ name, name ∈ registry.names ↔ Report.isExported name events = true
  /-- There are as many bindings as names. -/
  size : registry.bindings.length = registry.names.length

/-- All that a journal says follows from what is kept. -/
theorem Registry.Chronicled.agrees {registry : Registry} {events : List Event}
    (chronicled : registry.Chronicled events) : registry.Agrees events where
  toChronicled := chronicled
  contains := chronicled.contains
  rising := chronicled.sorted
  listed name := by rw [← Registry.contains_iff_mem_names, chronicled.contains]
  size := by rw [Registry.names, Fields.names, List.length_map]

/-- A registry that keeps a journal from its start agrees with it after all calls that nest, and
at every moment of every run, and a name that is bound stays bound. -/
theorem journal_agrees_with_bindings :
    (∀ history exchange, Exchange.Reaches (.start true) history exchange →
      (∃ events, exchange.registry.Agrees events) ∧
      ∀ later next, exchange.Reaches later next → ∀ name,
        exchange.registry.contains name = true → next.registry.contains name = true) ∧
    ∀ (routines : Routines) (α : Type) (context : ContextId) (program : Program α)
      (world : World), world.registry = .start true → world.HasOneRegistry →
      ∀ history moment, Moment.Reaches routines (.start context program world) history moment →
        (∃ events, moment.world.registry.Agrees events) ∧
        ∀ later next, Moment.Reaches routines moment later next → ∀ name,
          moment.world.registry.contains name = true →
            next.world.registry.contains name = true := by
  have calls : ∀ history exchange, Exchange.Reaches (.start true) history exchange →
      (∃ events, exchange.registry.Agrees events) ∧
      ∀ later next, exchange.Reaches later next → ∀ name,
        exchange.registry.contains name = true → next.registry.contains name = true := by
    intro history exchange reached
    constructor
    · obtain ⟨events, chronicled⟩ := reached.keeps Exchange.Step.chronicled
        ⟨[], Registry.start_chronicled⟩
      exact ⟨events, chronicled.agrees⟩
    · intro later next after name bound
      exact after.keeps (P := fun exchange => exchange.registry.contains name = true)
        (fun now before => now.contains before) bound
  refine ⟨calls, ?_⟩
  intro routines α context program world fresh one history moment reached
  obtain ⟨oneMoment, made⟩ :=
    Moment.exchange_of_reaches reached (Moment.start_hasOneRegistry one)
  have begins : (Moment.start context program world).exchange = .start true := by
    simp only [Moment.exchange, Moment.start, Stack.forcings, Exchange.start, fresh]
  obtain ⟨agrees, stays⟩ := calls history moment.exchange (begins ▸ made)
  refine ⟨agrees, ?_⟩
  intro later next after
  exact stays later next.exchange (Moment.exchange_of_reaches after oneMoment).2

/-- The journal agrees with a binding that was replaced while its routine was running. -/
theorem journal_agrees_while_rebinding :
    ∃ after events,
      Runner.within rebinding 2 _ .host lookUpTwice (.untouched true) = some (oldThenNew, after) ∧
      after.registry.Agrees events ∧ Report.isExported "n" events = true := by
  obtain ⟨after, run, bound⟩ : ∃ after, Runner.within rebinding 2 _ .host lookUpTwice
      (.untouched true) = some (oldThenNew, after) ∧ after.registry.contains "n" = true :=
    ⟨_, rfl, rfl⟩
  obtain ⟨history, reached⟩ := Moment.reaches_of_within run
  obtain ⟨⟨events, agrees⟩, _⟩ := journal_agrees_with_bindings.2 rebinding _ .host lookUpTwice
    (.untouched true) rfl (World.untouched_hasOneRegistry true) history _ (reached .bottom)
  exact ⟨after, events, run, agrees, (agrees.contains "n") ▸ bound⟩

end Interchange
