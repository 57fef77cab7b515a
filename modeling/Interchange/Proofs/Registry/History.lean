import Interchange.Proofs.Registry.Exchange
import Interchange.Proofs.Registry.Operations

/-!
# What the history of a registry decides

A history tells backwards what has happened at a registry. It alone decides how a look-up is
answered: by the latest binding of the name, and if that is lazy, by what has become of the
runs of its routine (`History.Allows`). A history in which everything happened as the history
before allows is lawful. Every history of a registry is lawful, and the registry holds exactly
what its history says (`Exchange.follows_of_reaches`).
-/
namespace Interchange

/-- What has happened at a registry, the latest first. -/
abbrev History := List Deed

namespace History

/-- How many bindings were made. -/
def count : History → Nat
  | [] => 0
  | .exported .. :: earlier => count earlier + 1
  | _ :: earlier => count earlier

/-- The number and the content of the latest binding of a name; bindings are numbered from
zero. -/
def latest? (name : String) : History → Option (Nat × Content)
  | [] => none
  | .exported other content :: earlier =>
    if other = name then some (count earlier, content) else latest? name earlier
  | _ :: earlier => latest? name earlier

/-- The name and the content of the binding with a number. -/
def made? (number : Nat) : History → Option (String × Content)
  | [] => none
  | .exported name content :: earlier =>
    if count earlier = number then some (name, content) else made? number earlier
  | _ :: earlier => made? number earlier

/-- The routines that have started and not ended, the one started last first. -/
def underway : History → List Forcing
  | [] => []
  | .started forcing :: earlier => forcing :: underway earlier
  | .ended .. :: earlier => (underway earlier).tail
  | _ :: earlier => underway earlier

/-- The routine of the binding with a number has started and not ended. -/
def Running (history : History) (number : Nat) : Prop :=
  ∃ forcing ∈ history.underway, forcing.generation = number

/-- A run of the routine of the binding with a number has ended with a value. -/
def Succeeded (history : History) (number : Nat) (value : Value) : Prop :=
  ∃ forcing, forcing.generation = number ∧ .ended forcing (.ok value) ∈ history

/-- What can happen next. -/
inductive Allows (earlier : History) : Deed → Prop where
  /-- Any name can be bound at any time. -/
  | exported (name : String) (content : Content) : Allows earlier (.exported name content)
  /-- A name that was never bound is unresolved. -/
  | unbound {name : String} (never : earlier.latest? name = none) :
      Allows earlier (.answered name (.error (.unresolvedName name)))
  /-- A binding to a value answers with that value. -/
  | ready {name : String} {number : Nat} {value : Value}
      (latest : earlier.latest? name = some (number, .value value)) :
      Allows earlier (.answered name (.ok value))
  /-- A lazy binding whose routine has succeeded answers with the value of that run. -/
  | memoized {name : String} {number routine : Nat} {value : Value}
      (latest : earlier.latest? name = some (number, .routine routine))
      (succeeded : earlier.Succeeded number value) :
      Allows earlier (.answered name (.ok value))
  /-- A lazy binding whose routine is running answers with a cycle. -/
  | cyclic {name : String} {number routine : Nat}
      (latest : earlier.latest? name = some (number, .routine routine))
      (running : earlier.Running number) :
      Allows earlier (.answered name (.error (.cyclicLazyExport name)))
  /-- A lazy binding whose routine is not running and has never succeeded runs its routine. -/
  | started {name : String} {number routine : Nat}
      (latest : earlier.latest? name = some (number, .routine routine))
      (idle : ¬ earlier.Running number) (fresh : ∀ value, ¬ earlier.Succeeded number value) :
      Allows earlier (.started ⟨name, number, routine⟩)
  /-- The routine started last can end, with any result. -/
  | ended {forcing : Forcing} {others : List Forcing}
      (innermost : earlier.underway = forcing :: others) (result : Except Fault Value) :
      Allows earlier (.ended forcing result)

/-- Everything happened as the history before it allows. -/
def Lawful : History → Prop
  | [] => True
  | deed :: earlier => Allows earlier deed ∧ Lawful earlier

/-- What the slot of the binding with a number holds. -/
inductive Holds (history : History) (number : Nat) : Content → Slot → Prop where
  /-- An exported value stays. -/
  | value (value : Value) : Holds history number (.value value) (.ready value)
  /-- A routine at work is marked. -/
  | running (routine : Nat) (running : history.Running number) :
      Holds history number (.routine routine) (.forcing routine)
  /-- The value of a successful run is kept. -/
  | succeeded {value : Value} (routine : Nat) (succeeded : history.Succeeded number value) :
      Holds history number (.routine routine) (.ready value)
  /-- A routine that has not started, or has failed each time, is there to be run. -/
  | idle (routine : Nat) (idle : ¬ history.Running number)
      (fresh : ∀ value, ¬ history.Succeeded number value) :
      Holds history number (.routine routine) (.deferred routine)

/-- No routine is started again, and none succeeds again, once a run of it for the same binding
has succeeded. -/
def Once (history : History) : Prop :=
  ∀ later earlier forcing value, history = later ++ .ended forcing (.ok value) :: earlier →
    ∀ other : Forcing, other.generation = forcing.generation →
      .started other ∉ later ∧ ∀ result, .ended other result ∉ later

/-- The binding with a number is older than what comes next. -/
theorem lt_count_of_made? {history : History} {number : Nat} {found : String × Content}
    (made : history.made? number = some found) : number < history.count := by
  induction history with
  | nil => simp [made?] at made
  | cons deed earlier ih =>
    cases deed with
    | exported name content =>
      rw [made?] at made
      rw [count]
      split at made
      · rename_i last
        omega
      · exact Nat.lt_succ_of_lt (ih made)
    | answered name answer => exact ih made
    | started forcing => exact ih made
    | ended forcing result => exact ih made

/-- The latest binding of a name is one that was made. -/
theorem made?_of_latest? {history : History} {name : String} {number : Nat} {content : Content}
    (latest : history.latest? name = some (number, content)) :
    history.made? number = some (name, content) := by
  induction history with
  | nil => simp [latest?] at latest
  | cons deed earlier ih =>
    cases deed with
    | exported other made =>
      rw [latest?] at latest
      rw [made?]
      split at latest
      · rename_i same
        simp only [Option.some.injEq, Prod.mk.injEq] at latest
        rw [if_pos latest.1, same, latest.2]
      · have older := lt_count_of_made? (ih latest)
        rw [if_neg (by omega), ih latest]
    | answered other answer => exact ih latest
    | started forcing => exact ih latest
    | ended forcing result => exact ih latest

/-- What was made stays made. -/
theorem made?_cons {history : History} {number : Nat} {found : String × Content} (deed : Deed)
    (made : history.made? number = some found) :
    made? number (deed :: history) = some found := by
  cases deed with
  | exported name content =>
    have older := lt_count_of_made? made
    rw [made?, if_neg (by omega), made]
  | answered name answer => exact made
  | started forcing => exact made
  | ended forcing result => exact made

/-- What makes a run successful after one more deed. -/
theorem succeeded_cons {history : History} {deed : Deed} {number : Nat} {value : Value} :
    Succeeded (deed :: history) number value ↔
      (∃ forcing, forcing.generation = number ∧ deed = .ended forcing (.ok value)) ∨
        history.Succeeded number value := by
  constructor
  · rintro ⟨forcing, same, mem⟩
    rcases List.mem_cons.1 mem with now | before
    · exact .inl ⟨forcing, same, now.symm⟩
    · exact .inr ⟨forcing, same, before⟩
  · rintro (⟨forcing, same, rfl⟩ | ⟨forcing, same, before⟩)
    · exact ⟨forcing, same, List.mem_cons_self⟩
    · exact ⟨forcing, same, List.mem_cons_of_mem _ before⟩

variable {history : History}

/-- A routine at work belongs to a lazy binding that was made. -/
theorem Lawful.made?_of_underway (lawful : history.Lawful) {forcing : Forcing}
    (mem : forcing ∈ history.underway) :
    history.made? forcing.generation = some (forcing.name, .routine forcing.routine) := by
  induction history with
  | nil => simp [underway] at mem
  | cons deed earlier ih =>
    obtain ⟨allowed, lawful⟩ := lawful
    apply made?_cons
    cases allowed with
    | exported name content => exact ih lawful mem
    | unbound never => exact ih lawful mem
    | ready latest => exact ih lawful mem
    | memoized latest succeeded => exact ih lawful mem
    | cyclic latest running => exact ih lawful mem
    | started latest idle fresh =>
      rcases List.mem_cons.1 mem with rfl | older
      · exact made?_of_latest? latest
      · exact ih lawful older
    | ended innermost result => exact ih lawful (List.mem_of_mem_tail mem)

/-- Only the routine of a lazy binding that was made ever ends. -/
theorem Lawful.made?_of_ended (lawful : history.Lawful) {forcing : Forcing}
    {result : Except Fault Value} (mem : .ended forcing result ∈ history) :
    history.made? forcing.generation = some (forcing.name, .routine forcing.routine) := by
  induction history with
  | nil => simp at mem
  | cons deed earlier ih =>
    obtain ⟨allowed, lawful⟩ := lawful
    apply made?_cons
    rcases List.mem_cons.1 mem with rfl | before
    · cases allowed with
      | ended innermost result =>
        exact lawful.made?_of_underway (innermost ▸ List.mem_cons_self)
    · exact ih lawful before

/-- Routines at work run for different bindings. -/
theorem Lawful.underway_nodup (lawful : history.Lawful) :
    (history.underway.map Forcing.generation).Nodup := by
  induction history with
  | nil => exact List.nodup_nil
  | cons deed earlier ih =>
    obtain ⟨allowed, lawful⟩ := lawful
    cases allowed with
    | exported name content => exact ih lawful
    | unbound never => exact ih lawful
    | ready latest => exact ih lawful
    | memoized latest succeeded => exact ih lawful
    | cyclic latest running => exact ih lawful
    | started latest idle fresh =>
      refine List.nodup_cons.2 ⟨fun mem => idle ?_, ih lawful⟩
      obtain ⟨forcing, inside, same⟩ := List.mem_map.1 mem
      exact ⟨forcing, inside, same⟩
    | ended innermost result =>
      have distinct := ih lawful
      rw [innermost] at distinct
      rw [underway, innermost]
      exact (List.nodup_cons.1 distinct).2

/-- A routine at work has not succeeded before for the same binding. -/
theorem Lawful.not_succeeded_of_running (lawful : history.Lawful) {number : Nat}
    (running : history.Running number) (value : Value) : ¬ history.Succeeded number value := by
  induction history with
  | nil => simp [Running, underway] at running
  | cons deed earlier ih =>
    obtain ⟨allowed, lawful⟩ := lawful
    rw [succeeded_cons]
    rintro (⟨forcing, same, rfl⟩ | before)
    · -- The routine that ends now is the innermost one, and no other runs for its binding.
      cases allowed with
      | ended innermost result =>
        obtain ⟨other, mem, sameOther⟩ := running
        have distinct := lawful.underway_nodup
        rw [innermost] at distinct
        rw [underway, innermost] at mem
        apply (List.nodup_cons.1 distinct).1
        rw [same, ← sameOther]
        exact List.mem_map_of_mem mem
    · cases allowed with
      | exported name content => exact ih lawful running before
      | unbound never => exact ih lawful running before
      | ready latest => exact ih lawful running before
      | memoized latest succeeded => exact ih lawful running before
      | cyclic latest other => exact ih lawful running before
      | started latest idle fresh =>
        obtain ⟨forcing, mem, same⟩ := running
        rcases List.mem_cons.1 mem with rfl | older
        · subst same
          exact fresh value before
        · exact ih lawful ⟨forcing, older, same⟩ before
      | ended innermost result =>
        obtain ⟨forcing, mem, same⟩ := running
        exact ih lawful ⟨forcing, List.mem_of_mem_tail mem, same⟩ before

/-- In a lawful history a routine is done with a binding once it has succeeded for it. -/
theorem Lawful.once (lawful : history.Lawful) : history.Once := by
  intro later earlier forcing value told other same
  induction later generalizing history with
  | nil => simp
  | cons deed later ih =>
    subst told
    obtain ⟨allowed, lawful⟩ := lawful
    have succeeded : Succeeded (later ++ .ended forcing (.ok value) :: earlier)
        other.generation value :=
      ⟨forcing, same.symm, List.mem_append_right _ List.mem_cons_self⟩
    have older := ih lawful rfl
    constructor
    · intro mem
      rcases List.mem_cons.1 mem with rfl | before
      · cases allowed with
        | started latest idle fresh => exact fresh value succeeded
      · exact older.1 before
    · intro result mem
      rcases List.mem_cons.1 mem with rfl | before
      · cases allowed with
        | ended innermost result =>
          have running : Running _ other.generation := ⟨other, innermost ▸ List.mem_cons_self, rfl⟩
          exact lawful.not_succeeded_of_running running value succeeded
      · exact older.2 result before

end History

/-- A registry and the routines at work are what a history says. -/
structure Exchange.Follows (exchange : Exchange) (history : History) : Prop where
  /-- Every export has used up one number. -/
  count : exchange.registry.nextGeneration = history.count
  /-- The routines at work are those that have started and not ended. -/
  forcings : exchange.forcings = history.underway
  /-- A name that was never exported is unbound. -/
  unbound : ∀ name, history.latest? name = none → exchange.registry.find? name = none
  /-- Every other name has its latest binding, which holds what the history says. -/
  bound : ∀ name number content, history.latest? name = some (number, content) →
    ∃ binding, exchange.registry.find? name = some binding ∧ binding.generation = number ∧
      history.Holds number content binding.slot

namespace History

variable {history : History}

/-- What a slot holds depends only on the runs for its own binding. -/
theorem Holds.congr {other : History} {number : Nat} {content : Content} {slot : Slot}
    (holds : history.Holds number content slot)
    (running : other.Running number ↔ history.Running number)
    (succeeded : ∀ value, other.Succeeded number value ↔ history.Succeeded number value) :
    other.Holds number content slot := by
  cases holds with
  | value value => exact .value value
  | running routine now => exact .running routine (running.2 now)
  | succeeded routine before => exact .succeeded routine ((succeeded _).2 before)
  | idle routine idle fresh =>
    exact .idle routine (fun now => idle (running.1 now))
      fun value before => fresh value ((succeeded value).1 before)

/-- A deed that starts and ends nothing leaves what all slots hold. -/
theorem Holds.cons {deed : Deed} {number : Nat} {content : Content} {slot : Slot}
    (holds : history.Holds number content slot)
    (same : underway (deed :: history) = history.underway)
    (notEnded : ∀ forcing result, deed ≠ .ended forcing result) :
    Holds (deed :: history) number content slot := by
  refine holds.congr ?_ fun value => ?_
  · simp only [Running, same]
  · rw [succeeded_cons]
    exact or_iff_right fun ⟨forcing, _, now⟩ => notEnded forcing _ now

end History

namespace Exchange

open History

variable {registry : Registry} {forcings : List Forcing} {history : History}

/-- Every bound name was exported, and its slot holds what the history says. -/
theorem Follows.latest (follows : Follows ⟨registry, forcings⟩ history) {name : String}
    {binding : Binding} (found : registry.find? name = some binding) :
    ∃ content, history.latest? name = some (binding.generation, content) ∧
      history.Holds binding.generation content binding.slot := by
  cases latest : history.latest? name with
  | none => simp [follows.unbound name latest] at found
  | some known =>
    obtain ⟨number, content⟩ := known
    obtain ⟨other, same, rfl, holds⟩ := follows.bound name number content latest
    obtain rfl : other = binding := Option.some.inj (same.symm.trans found)
    exact ⟨content, rfl, holds⟩

/-- A look-up that is answered at once changes nothing that the history tells of. -/
theorem Follows.answered (follows : Follows ⟨registry, forcings⟩ history) (name : String)
    (answer : Except Fault Value) (context : ContextId) (line : Option Nat) :
    Follows ⟨(registry.lookUp name context line).2, forcings⟩
      (.answered name answer :: history) where
  count := follows.count
  forcings := follows.forcings
  unbound := follows.unbound
  bound other number content latest := by
    obtain ⟨binding, found, same, holds⟩ := follows.bound other number content latest
    exact ⟨binding, found, same, holds.cons rfl (by simp)⟩

/-- An export binds its name to what it exports. -/
theorem Follows.exported (follows : Follows ⟨registry, forcings⟩ history)
    (lawful : history.Lawful) (name : String) (content : Content) (context : ContextId)
    (line : Option Nat) :
    Follows ⟨registry.bind name content.slot context line, forcings⟩
      (.exported name content :: history) where
  count := by rw [Registry.nextGeneration_bind, follows.count, History.count]
  forcings := follows.forcings
  unbound other never := by
    rw [latest?] at never
    split at never
    · simp at never
    · rename_i different
      rw [Registry.find?_bind, if_neg (Ne.symm different)]
      exact follows.unbound other never
  bound other number found latest := by
    rw [latest?] at latest
    rw [Registry.find?_bind]
    split at latest
    · rename_i same
      simp only [Option.some.injEq, Prod.mk.injEq] at latest
      obtain ⟨rfl, rfl⟩ := latest
      refine ⟨_, if_pos same.symm, follows.count, ?_⟩
      -- No run can belong to a number that was given away only now.
      cases content with
      | value value => exact .value value
      | routine routine =>
        refine .idle routine ?_ fun value succeeded => ?_
        · rintro ⟨forcing, mem, same⟩
          have older := lt_count_of_made? (lawful.made?_of_underway mem)
          omega
        · rcases succeeded_cons.1 succeeded with ⟨forcing, _, now⟩ | ⟨forcing, same, mem⟩
          · simp at now
          · have older := lt_count_of_made? (lawful.made?_of_ended mem)
            omega
    · rename_i different
      obtain ⟨binding, bound, same, holds⟩ := follows.bound other number found latest
      exact ⟨binding, by rw [if_neg (Ne.symm different), bound], same, holds.cons rfl (by simp)⟩

/-- Two names never have the same binding. -/
theorem eq_of_latest? {name other : String} {number : Nat} {content found : Content}
    (latest : history.latest? name = some (number, content))
    (otherLatest : history.latest? other = some (number, found)) : other = name := by
  have made := made?_of_latest? latest
  rw [made?_of_latest? otherLatest] at made
  simp only [Option.some.injEq, Prod.mk.injEq] at made
  exact made.1

/-- A look-up that starts a routine marks its binding. -/
theorem Follows.started (follows : Follows ⟨registry, forcings⟩ history) {name : String}
    {binding : Binding} {routine : Nat} (found : registry.find? name = some binding)
    (latest : history.latest? name = some (binding.generation, .routine routine))
    (context : ContextId) (line : Option Nat) :
    Follows ⟨(registry.lookUp name context line).2.replace name (.forcing routine),
        ⟨name, binding.generation, routine⟩ :: forcings⟩
      (.started ⟨name, binding.generation, routine⟩ :: history) where
  count := by
    rw [Registry.nextGeneration_replace]
    exact follows.count
  forcings := by rw [underway, ← follows.forcings]
  unbound other never := by
    have different : other ≠ name := by
      rintro rfl
      change history.latest? other = none at never
      simp [latest] at never
    rw [Registry.find?_replace, if_neg different]
    exact follows.unbound other never
  bound other number content otherLatest := by
    rw [Registry.find?_replace, Registry.find?_lookUp, Registry.find?_lookUp]
    by_cases same : other = name
    · subst same
      change history.latest? other = _ at otherLatest
      simp only [latest, Option.some.injEq, Prod.mk.injEq] at otherLatest
      obtain ⟨rfl, rfl⟩ := otherLatest
      refine ⟨{ binding with slot := .forcing routine }, by simp [found], rfl, ?_⟩
      exact .running routine ⟨_, List.mem_cons_self, rfl⟩
    · obtain ⟨held, bound, rfl, holds⟩ := follows.bound other number content otherLatest
      refine ⟨held, by rw [if_neg same, bound], rfl, holds.congr ⟨?_, ?_⟩ fun value => ?_⟩
      · rintro ⟨forcing, mem, sameNumber⟩
        rcases List.mem_cons.1 mem with rfl | older
        · rw [← sameNumber] at otherLatest
          exact absurd (eq_of_latest? latest otherLatest) same
        · exact ⟨forcing, older, sameNumber⟩
      · rintro ⟨forcing, mem, sameNumber⟩
        exact ⟨forcing, List.mem_cons_of_mem _ mem, sameNumber⟩
      · rw [succeeded_cons]
        exact or_iff_right fun ⟨_, _, now⟩ => by simp at now

/-- The end of the innermost routine concerns its own binding, if that is still the latest of
its name. -/
theorem Follows.ended {forcing : Forcing}
    (follows : Follows ⟨registry, forcing :: forcings⟩ history) (lawful : history.Lawful)
    (result : Except Fault Value) :
    Follows ⟨registry.settle forcing.name forcing.generation forcing.routine result, forcings⟩
      (.ended forcing result :: history) where
  count := by
    rw [Registry.nextGeneration_settle]
    exact follows.count
  forcings := by rw [underway, ← follows.forcings, List.tail_cons]
  unbound other never := by
    have missing := follows.unbound other never
    rw [Registry.find?_settle]
    split
    · rename_i same
      subst same
      simp only [missing, Option.map_none]
    · exact missing
  bound other number content latest := by
    have innermost : history.underway = forcing :: forcings := follows.forcings.symm
    have distinct := lawful.underway_nodup
    rw [innermost] at distinct
    have made := lawful.made?_of_underway (innermost ▸ List.mem_cons_self : forcing ∈ _)
    have madeOther : history.made? number = some (other, content) := made?_of_latest? latest
    obtain ⟨binding, bound, rfl, holds⟩ := follows.bound other number content latest
    have running : history.Running forcing.generation :=
      ⟨forcing, innermost ▸ List.mem_cons_self, rfl⟩
    have stopped : ¬ Running (.ended forcing result :: history) forcing.generation := by
      rintro ⟨later, mem, same⟩
      rw [underway, innermost] at mem
      exact (List.nodup_cons.1 distinct).1 (same ▸ List.mem_map_of_mem mem)
    rw [Registry.find?_settle]
    by_cases current : binding.generation = forcing.generation
    · -- The binding that the routine ran for: a value is kept, a failure makes it lazy again.
      rw [current, made] at madeOther
      simp only [Option.some.injEq, Prod.mk.injEq] at madeOther
      obtain ⟨rfl, rfl⟩ := madeOther
      rw [if_pos rfl, show registry.find? forcing.name = some binding from bound,
        Option.map_some, if_pos current]
      refine ⟨_, rfl, rfl, ?_⟩
      rw [current]
      cases result with
      | ok value => exact .succeeded _ ⟨forcing, rfl, List.mem_cons_self⟩
      | error fault =>
        refine .idle _ stopped fun value succeeded => ?_
        rcases succeeded_cons.1 succeeded with ⟨_, _, now⟩ | before
        · simp at now
        · exact lawful.not_succeeded_of_running running value before
    · refine ⟨binding, ?_, rfl, holds.congr ⟨?_, ?_⟩ fun value => ?_⟩
      · split
        · rename_i same
          subst same
          rw [show registry.find? forcing.name = some binding from bound, Option.map_some,
            if_neg current]
        · exact bound
      · rintro ⟨later, mem, same⟩
        exact ⟨later, List.mem_of_mem_tail mem, same⟩
      · rintro ⟨later, mem, same⟩
        rw [innermost] at mem
        rcases List.mem_cons.1 mem with rfl | older
        · exact absurd same.symm current
        · refine ⟨later, ?_, same⟩
          rw [underway, innermost]
          exact older
      · rw [succeeded_cons]
        refine or_iff_right fun ⟨other, same, now⟩ => current ?_
        simp only [Deed.ended.injEq] at now
        rw [← same, now.1]

/-- What happens at a registry is what its history allows, and is what its history then
tells. -/
theorem Follows.step {exchange next : Exchange} {deed : Deed}
    (follows : exchange.Follows history) (lawful : history.Lawful)
    (now : Step exchange deed next) : history.Allows deed ∧ next.Follows (deed :: history) := by
  cases now with
  | exported registry forcings name content context line =>
    exact ⟨.exported name content, follows.exported lawful name content context line⟩
  | @unbound registry forcings name context line missing =>
    refine ⟨.unbound ?_, follows.answered name _ context line⟩
    cases latest : history.latest? name with
    | none => rfl
    | some known =>
      obtain ⟨binding, found, _⟩ := follows.bound name known.1 known.2 latest
      simp [missing] at found
  | @ready registry forcings name binding value context line found held =>
    refine ⟨?_, follows.answered name _ context line⟩
    obtain ⟨content, latest, holds⟩ := follows.latest found
    rw [held] at holds
    cases holds with
    | value value => exact .ready latest
    | succeeded routine succeeded => exact .memoized latest succeeded
  | @cyclic registry forcings name binding routine context line found held =>
    refine ⟨?_, follows.answered name _ context line⟩
    obtain ⟨content, latest, holds⟩ := follows.latest found
    rw [held] at holds
    cases holds with
    | running routine running => exact .cyclic latest running
  | @started registry forcings name binding routine context line found held =>
    obtain ⟨content, latest, holds⟩ := follows.latest found
    rw [held] at holds
    cases holds with
    | idle routine idle fresh =>
      exact ⟨.started latest idle fresh, follows.started found latest context line⟩
  | ended registry forcing forcings result =>
    exact ⟨.ended follows.forcings.symm result, follows.ended lawful result⟩

/-- A registry at its start, without bindings. -/
def start (journaling : Bool) : Exchange := { registry := .start journaling }

/-- A registry at its start has no history. -/
theorem start_follows (journaling : Bool) : (start journaling).Follows [] where
  count := rfl
  forcings := rfl
  unbound _ _ := rfl
  bound _ _ _ latest := by simp [latest?] at latest

/-- The history of a registry is lawful, and the registry holds what its history says. -/
theorem follows_of_reaches {journaling : Bool} {exchange : Exchange}
    (reached : Reaches (start journaling) history exchange) :
    history.Lawful ∧ exchange.Follows history := by
  induction reached with
  | refl => exact ⟨trivial, start_follows journaling⟩
  | step before now ih =>
    obtain ⟨lawful, follows⟩ := ih
    obtain ⟨allowed, next⟩ := follows.step lawful now
    exact ⟨⟨allowed, lawful⟩, next⟩

end Exchange

end Interchange
