import Interchange.Host.Routine
import Interchange.Proofs.Guests.Execution
import Interchange.Proofs.Registry.Operations
import Interchange.Proofs.Value.Items

/-!
# Values relayed through guest languages

A relay is a chain of hops: each looks the current name up in a context of a guest language and
exports what it finds there under a name of its own, by the shortest script that does so
(`Hop.program`). A value is carried through all hops, equal to what it was, if the statement
language can take it or never meets it; otherwise the first hop that cannot take it refuses it in
the name of its language, and from there on nothing is bound
(`relay_carries_equal_or_binds_nothing`).
-/
namespace Interchange

/-- A guest language with the locals of one of its contexts. -/
inductive Guest where
  /-- The form language. -/
  | forms (locals : Fields Forms.Datum)
  /-- The statement language. -/
  | statements (locals : Fields Statements.Item)

/-- What a value is when it has gone into the guest language and come out again. -/
def Guest.carry : Guest → Value → Except Fault Value
  | forms _, value => (Forms.Datum.ofValue value).toValue
  | statements _, value => do (← Statements.Item.ofValue value).toValue

/-- One look-up and one export in a context of a guest language. -/
structure Hop where
  /-- The language with its locals. -/
  guest : Guest
  /-- The context. -/
  context : ContextId
  /-- The line of the script. -/
  line : Nat
  /-- The name that is exported. -/
  name : String

/-- A name is bound to a value. -/
def Registry.IsBoundTo (registry : Registry) (name : String) (value : Value) : Prop :=
  ∃ binding, registry.find? name = some binding ∧ binding.slot = .ready value

namespace Hop

/-- Whether the hop goes through the form language. -/
def IsForms (hop : Hop) : Prop :=
  match hop.guest with
  | .forms _ => True
  | .statements _ => False

/-- The form that imports one name and exports another. -/
def form (current name : String) : Forms.Sexp :=
  .list [.symbol "export", .string name, .list [.symbol "import", .string current] none] none

/-- The statement that imports one name and exports another. -/
def statement (current name : String) : Statements.Statement := .publish name (.imported current)

/-- What a hop does when a name is current. -/
def program (hop : Hop) (current : String) : Program (Except Fault Unit) :=
  match hop.guest with
  | .forms locals => do
    let (result, _) ← (Forms.evalUnit [(hop.line, form current hop.name)]).run.run locals
    return result.mapError Forms.Trouble.fault
  | .statements locals => do
    let (_, result) ← Statements.execute locals [(hop.line, statement current hop.name)]
    return result.mapError Statements.Trouble.fault

/-- What is left of a hop when the current name was looked up. -/
def afterLookUp (hop : Hop) : Except Fault Value → Program (Except Fault Unit)
  | .error fault => .done (.error fault)
  | .ok value =>
    match hop.guest.carry value with
    | .error fault => .done (.error fault)
    | .ok carried =>
      .ask (.exportValue hop.name carried (some hop.line)) fun _ => .done (.ok ())

/-- A hop looks the current name up, takes what it finds into its language and out again, and
exports that. -/
theorem program_eq (hop : Hop) (current : String) :
    hop.program current =
      .ask (.importName current (some hop.line)) fun found => hop.afterLookUp found := by
  obtain ⟨guest, context, line, name⟩ := hop
  cases guest with
  | forms locals =>
    simp only [program, form, Forms.evalUnit]
    rw [Forms.eval]
    simp only [Forms.nameOf, pure_bind]
    rw [Forms.eval]
    simp only [Forms.nameOf, pure_bind, Forms.Evaluation.run_bind, Forms.Evaluation.run_request,
      Forms.Evaluation.run_ofOutcome, Forms.Evaluation.run_pure, Forms.Evaluation.run_liftM]
    refine congrArg (Program.ask _) (funext fun found => ?_)
    cases found with
    | error fault => rfl
    | ok value =>
      cases carried : (Forms.Datum.ofValue value).toValue with
      | error fault =>
        simp only [Program.bind, mapError_ok, mapError_error, afterLookUp, Guest.carry, carried]
        rfl
      | ok value =>
        simp only [Program.bind, mapError_ok, afterLookUp, Guest.carry, carried]
        rfl
  | statements locals =>
    simp only [program, statement, Statements.execute_cons, Statements.execute_nil,
      Statements.Statement.yields, Statements.Expression.eval, Statements.Evaluation.run_bind,
      Statements.Evaluation.run_request, Statements.Evaluation.run_ofOutcome,
      Statements.Evaluation.run_pure, Statements.Evaluation.run_liftM]
    refine congrArg (Program.ask _) (funext fun found => ?_)
    cases found with
    | error fault => rfl
    | ok value =>
      cases taken : Statements.Item.ofValue value with
      | error fault =>
        simp only [Program.bind, mapError_ok, mapError_error, afterLookUp, Guest.carry, taken]
        rfl
      | ok item =>
        cases carried : item.toValue with
        | error fault =>
          simp only [Program.bind, mapError_ok, mapError_error, afterLookUp, Guest.carry, taken,
            bind, Except.bind, carried]
          rfl
        | ok value =>
          simp only [Program.bind, mapError_ok, afterLookUp, Guest.carry, taken, bind, Except.bind,
            carried]
          rfl

variable (routines : Routines) (allowance : Nat) {current : String} {world : World}

/-- What a hop does in a world. -/
def run (routines : Routines) (allowance : Nat) (hop : Hop) (current : String) :
    Action (Except Fault Unit) :=
  Runner.within routines (allowance + 1) _ hop.context (hop.program current)

/-- The world after the look-up of a hop. -/
def lookedUp (hop : Hop) (current : String) (world : World) : World :=
  { world with registry := (world.registry.lookUp current hop.context (some hop.line)).2 }

/-- Looking the current name up binds nothing. -/
@[simp] theorem find?_lookedUp (hop : Hop) (name : String) :
    (hop.lookedUp current world).registry.find? name = world.registry.find? name :=
  Registry.find?_lookUp world.registry current name hop.context (some hop.line)

/-- A hop that finds nothing binds nothing. -/
theorem run_of_unbound (hop : Hop) (unbound : world.registry.find? current = none) :
    hop.run routines allowance current world =
      some (.error (.unresolvedName current), hop.lookedUp current world) := by
  simp only [run, Runner.within, program_eq, Program.run, Engine.answer, Engine.importName,
    Registry.lookUp_fst, unbound, Option.bind_some, afterLookUp]
  rfl

/-- A hop that finds a value that its language does not carry binds nothing. -/
theorem run_of_refused (hop : Hop) {value : Value} {fault : Fault}
    (bound : world.registry.IsBoundTo current value)
    (refused : hop.guest.carry value = .error fault) :
    hop.run routines allowance current world =
      some (.error fault, hop.lookedUp current world) := by
  obtain ⟨binding, found, ready⟩ := bound
  simp only [run, Runner.within, program_eq, Program.run, Engine.answer, Engine.importName,
    Registry.lookUp_fst, found, ready, Option.bind_some, afterLookUp, refused]
  rfl

/-- A hop that finds a value binds its name to what its language carries. -/
theorem run_of_carried (hop : Hop) {value carried : Value}
    (bound : world.registry.IsBoundTo current value)
    (carries : hop.guest.carry value = .ok carried) :
    hop.run routines allowance current world =
      some (.ok (), Engine.bindName hop.context hop.name (.ready carried) (some hop.line)
        (hop.lookedUp current world)) := by
  obtain ⟨binding, found, ready⟩ := bound
  simp only [run, Runner.within, program_eq, Program.run, Engine.answer, Engine.importName,
    Registry.lookUp_fst, found, ready, Option.bind_some, afterLookUp, carries]
  rfl

/-- What names are bound to after a hop that carries. -/
theorem find?_bindName (hop : Hop) (current : String) (world : World) (carried : Value)
    (name : String) :
    (Engine.bindName hop.context hop.name (.ready carried) (some hop.line)
        (hop.lookedUp current world)).registry.find? name =
      if name = hop.name then
        some ⟨.ready carried, hop.context, (hop.lookedUp current world).registry.nextGeneration⟩
      else world.registry.find? name := by
  rw [Engine.bindName, Registry.find?_bind, find?_lookedUp]

end Hop

/-- Hops one after the other, each with the name that the one before it exports. A hop that fails
does not keep the next one from being tried. -/
def relay (routines : Routines) (allowance : Nat) :
    List Hop → String → Action (List (Except Fault Unit))
  | [], _ => fun world => some ([], world)
  | hop :: hops, current => fun world =>
    (hop.run routines allowance current world).bind fun (outcome, world) =>
      (relay routines allowance hops hop.name world).map fun (outcomes, world) =>
        (outcome :: outcomes, world)

/-- The name that is current after some hops. -/
def relayedName (start : String) : List Hop → String
  | [] => start
  | hop :: hops => relayedName hop.name hops

/-- A value as it comes out of some hops: with sorted fields if one of them was in the statement
language. -/
def Value.relayed (value : Value) : List Hop → Value
  | [] => value
  | hop :: hops =>
    match hop.guest with
    | .forms _ => value.relayed hops
    | .statements _ => value.sorted.relayed hops

section Relays

variable (routines : Routines) (allowance : Nat) {world after : World}

/-- The relay of a chain is the relay of its first part, then that of the rest. -/
theorem relay_append {routines : Routines} {allowance : Nat} {before : List Hop}
    (later : List Hop) {start : String} {outcomes : List (Except Fault Unit)}
    (run : relay routines allowance before start world = some (outcomes, after)) :
    relay routines allowance (before ++ later) start world =
      (relay routines allowance later (relayedName start before) after).map
        fun (rest, world) => (outcomes ++ rest, world) := by
  induction before generalizing start world outcomes with
  | nil =>
    simp only [relay, Option.some.injEq, Prod.mk.injEq] at run
    obtain ⟨rfl, rfl⟩ := run
    simp only [List.nil_append, relayedName]
    exact (Option.map_id' ..).symm
  | cons hop hops ih =>
    simp only [relay, Option.bind_eq_some_iff, Option.map_eq_some_iff, Prod.exists,
      Prod.mk.injEq] at run
    obtain ⟨outcome, between, first, rest, _, run, rfl, rfl⟩ := run
    simp only [List.cons_append, relay, first, Option.bind_some, ih run, Option.map_map,
      relayedName]
    rfl

/-- What a language carries through one hop is what the value is after it. -/
theorem carry_forms {value : Value} (distinct : value.NamesDistinct)
    (locals : Fields Forms.Datum) : (Guest.forms locals).carry value = .ok value :=
  Forms.Datum.toValue_ofValue distinct

/-- The statement language carries a value whose numbers are numbers of JSON, and sorts its
fields. -/
theorem carry_statements {value : Value} (fits : value.FitsJson)
    (locals : Fields Statements.Item) :
    (Guest.statements locals).carry value = .ok value.sorted := by
  obtain ⟨item, made⟩ := (Statements.Item.ofValue_ok_iff value).2 fits
  simp only [Guest.carry, made]
  exact Statements.Item.toValue_of_ofValue made

/-- The statement language refuses every other value in its own name. -/
theorem carry_refused {value : Value} (misfits : ¬ value.FitsJson)
    (locals : Fields Statements.Item) :
    ∃ reason, (Guest.statements locals).carry value =
      .error (.unrepresentable Statements.languageName reason) := by
  cases made : Statements.Item.ofValue value with
  | error fault =>
    obtain ⟨reason, rfl⟩ := Statements.Item.refuses_of_ofValue made
    exact ⟨reason, by simp only [Guest.carry, made]; rfl⟩
  | ok item => exact absurd ((Statements.Item.ofValue_ok_iff value).1 ⟨item, made⟩) misfits

/-- Sorted fields stay sorted through all hops. -/
theorem relayed_sorted (value : Value) (hops : List Hop) :
    value.sorted.relayed hops = value.sorted := by
  induction hops with
  | nil => rfl
  | cons hop hops ih =>
    rw [Value.relayed]
    split
    · exact ih
    · rw [Value.sorted_sorted, ih]

/-- Hops at most sort the fields of a value. -/
theorem relayed_cases (value : Value) (hops : List Hop) :
    value.relayed hops = value ∨ value.relayed hops = value.sorted := by
  induction hops with
  | nil => exact .inl rfl
  | cons hop hops ih =>
    rw [Value.relayed]
    split
    · exact ih
    · exact .inr (relayed_sorted value hops)

/-- Hops through the form language leave a value as it is. -/
theorem relayed_of_forms (value : Value) {hops : List Hop} (forms : ∀ hop ∈ hops, hop.IsForms) :
    value.relayed hops = value := by
  induction hops with
  | nil => rfl
  | cons hop hops ih =>
    obtain ⟨first, rest⟩ := List.forall_mem_cons.1 forms
    rw [Value.relayed]
    split
    · exact ih rest
    · rename_i guest
      simp [Hop.IsForms, guest] at first

/-- A value goes through every hop if it fits JSON or all hops are in the form language. -/
theorem relay_of_carried {value : Value} {hops : List Hop} {start : String}
    (distinct : value.NamesDistinct) (bound : world.registry.IsBoundTo start value)
    (carried : value.FitsJson ∨ ∀ hop ∈ hops, hop.IsForms) :
    ∃ after, relay routines allowance hops start world =
        some (hops.map fun _ => .ok (), after) ∧
      after.registry.IsBoundTo (relayedName start hops) (value.relayed hops) ∧
      ∀ name, name ∉ hops.map Hop.name →
        after.registry.find? name = world.registry.find? name := by
  induction hops generalizing value start world with
  | nil => exact ⟨world, rfl, bound, fun name _ => rfl⟩
  | cons hop hops ih =>
    -- What the first hop carries fits as well, and all other hops find it under its name.
    obtain ⟨next, carries, nextDistinct, nextCarried, relayed⟩ : ∃ next,
        hop.guest.carry value = .ok next ∧ next.NamesDistinct ∧
        (next.FitsJson ∨ ∀ hop ∈ hops, hop.IsForms) ∧
        next.relayed hops = value.relayed (hop :: hops) := by
      cases guest : hop.guest with
      | forms locals =>
        refine ⟨value, carry_forms distinct locals, distinct, ?_, ?_⟩
        · exact carried.imp_right fun forms later mem => forms later (List.mem_cons_of_mem _ mem)
        · simp only [Value.relayed, guest]
      | statements locals =>
        have fits : value.FitsJson := carried.resolve_right fun forms => by
          simpa [Hop.IsForms, guest] using forms hop (List.mem_cons_self ..)
        refine ⟨value.sorted, carry_statements fits locals, distinct.sorted,
          .inl (fits.sorted distinct), ?_⟩
        simp only [Value.relayed, guest]
    have first := hop.run_of_carried routines allowance bound carries
    have found := hop.find?_bindName start world next
    obtain ⟨after, run, held, kept⟩ := ih nextDistinct ⟨_, by rw [found, if_pos rfl], rfl⟩
      nextCarried
    refine ⟨after, ?_, ?_, fun name other => ?_⟩
    · simp only [relay, first, Option.bind_some, run, Option.map_some, List.map_cons]
    · rw [relayedName, ← relayed]
      exact held
    · simp only [List.map_cons, List.mem_cons, not_or] at other
      rw [kept name other.2, found, if_neg other.1]

/-- Where nothing is bound, hops bind nothing. -/
theorem relay_of_unbound {hops : List Hop} {start : String}
    (unbound : ∀ name ∈ start :: hops.map Hop.name, world.registry.find? name = none) :
    ∃ after, relay routines allowance hops start world =
        some ((start :: hops.map Hop.name).dropLast.map fun name =>
          .error (.unresolvedName name), after) ∧
      ∀ name, after.registry.find? name = world.registry.find? name := by
  induction hops generalizing start world with
  | nil => exact ⟨world, rfl, fun name => rfl⟩
  | cons hop hops ih =>
    obtain ⟨here, later⟩ := List.forall_mem_cons.1 unbound
    have first := hop.run_of_unbound routines allowance here
    have unboundAfter : ∀ name ∈ hop.name :: hops.map Hop.name,
        (hop.lookedUp start world).registry.find? name = none := fun name mem => by
      rw [Hop.find?_lookedUp]
      exact later name mem
    obtain ⟨after, run, kept⟩ := ih unboundAfter
    refine ⟨after, ?_, fun name => ?_⟩
    · simp only [relay, first, Option.bind_some, run, Option.map_some]
      rfl
    · rw [kept, Hop.find?_lookedUp]

/-- From the first hop that refuses the value, nothing is bound. -/
theorem relay_of_refused {value : Value} {hop : Hop} {later : List Hop} {current : String}
    (bound : world.registry.IsBoundTo current value) (misfits : ¬ value.FitsJson)
    (refuses : ¬ hop.IsForms)
    (fresh : ∀ name ∈ (hop :: later).map Hop.name, world.registry.find? name = none) :
    ∃ reason after, relay routines allowance (hop :: later) current world =
        some (.error (.unrepresentable Statements.languageName reason) ::
          ((hop :: later).map Hop.name).dropLast.map fun name => .error (.unresolvedName name),
          after) ∧
      ∀ name, after.registry.find? name = world.registry.find? name := by
  obtain ⟨reason, refused⟩ : ∃ reason, hop.guest.carry value =
      .error (.unrepresentable Statements.languageName reason) := by
    cases guest : hop.guest with
    | forms locals => simp [Hop.IsForms, guest] at refuses
    | statements locals => exact carry_refused misfits locals
  have first := hop.run_of_refused routines allowance bound refused
  have unboundAfter : ∀ name ∈ hop.name :: later.map Hop.name,
      (hop.lookedUp current world).registry.find? name = none := fun name mem => by
    rw [Hop.find?_lookedUp]
    exact fresh name mem
  obtain ⟨after, run, kept⟩ := relay_of_unbound routines allowance unboundAfter
  refine ⟨reason, after, ?_, fun name => ?_⟩
  · simp only [relay, first, Option.bind_some, run, Option.map_some]
    rfl
  · rw [kept, Hop.find?_lookedUp]

end Relays

/-- A value that is bound to a name is relayed through any chain of hops. If its numbers are
numbers of JSON, or no hop is in the statement language, every hop succeeds and the name exported
last is bound to a value equal to the first one, with the same references; hops through the form
language alone leave it unchanged. If not, the first hop in the statement language refuses it in
the name of that language, and neither it nor any later hop binds anything. -/
theorem relay_carries_equal_or_binds_nothing (routines : Routines) (allowance : Nat)
    (hops : List Hop) (start : String) (value : Value) (world : World)
    (distinct : value.NamesDistinct) (bound : world.registry.IsBoundTo start value) :
    ((value.FitsJson ∨ ∀ hop ∈ hops, hop.IsForms) →
      ∃ after relayed,
        relay routines allowance hops start world = some (hops.map fun _ => .ok (), after) ∧
        after.registry.IsBoundTo (relayedName start hops) relayed ∧
        value.equal relayed = true ∧ relayed.equal value = true ∧
        relayed.references.Perm value.references ∧
        ((∀ hop ∈ hops, hop.IsForms) → relayed = value)) ∧
    (¬ value.FitsJson → ∀ before hop later, hops = before ++ hop :: later →
      (∀ earlier ∈ before, earlier.IsForms) → ¬ hop.IsForms →
      (hops.map Hop.name).Nodup → (∀ name ∈ hops.map Hop.name, world.registry.find? name = none) →
      ∃ reason between after,
        relay routines allowance before start world =
          some (before.map fun _ => .ok (), between) ∧
        between.registry.IsBoundTo (relayedName start before) value ∧
        relay routines allowance hops start world =
          some ((before.map fun _ => .ok ()) ++
            .error (.unrepresentable Statements.languageName reason) ::
              ((hop :: later).map Hop.name).dropLast.map fun name =>
                .error (.unresolvedName name), after) ∧
        ∀ name, after.registry.find? name = between.registry.find? name) := by
  constructor
  · intro carried
    obtain ⟨after, run, held, _⟩ := relay_of_carried routines allowance distinct bound carried
    refine ⟨after, value.relayed hops, run, held, ?_⟩
    rcases relayed_cases value hops with same | sorted
    · rw [same]
      exact ⟨Value.equal_self distinct, Value.equal_self distinct, .refl _, fun _ => rfl⟩
    · refine ⟨?_, ?_, ?_, relayed_of_forms value⟩
      · rw [sorted]
        exact Value.equal_sorted distinct
      · rw [sorted]
        exact Value.sorted_equal distinct
      · rw [sorted]
        exact Value.references_sorted distinct
  · rintro misfits before hop later rfl forms refuses namesDistinct fresh
    obtain ⟨between, run, held, kept⟩ :=
      relay_of_carried routines allowance distinct bound (.inr forms)
    rw [relayed_of_forms value forms] at held
    rw [List.map_append] at namesDistinct fresh
    have freshLater : ∀ name ∈ (hop :: later).map Hop.name,
        between.registry.find? name = none := fun name mem => by
      have notEarlier : name ∉ before.map Hop.name := fun earlier =>
        (List.nodup_append.1 namesDistinct).2.2 name earlier name mem rfl
      rw [kept name notEarlier]
      exact fresh name (List.mem_append_right _ mem)
    obtain ⟨reason, after, refused, unchanged⟩ :=
      relay_of_refused routines allowance held misfits refuses freshLater
    refine ⟨reason, between, after, run, held, ?_, unchanged⟩
    rw [relay_append (hop :: later) run, refused]
    rfl

/-- A world in which nothing has happened but that a value was exported. -/
def World.exporting (name : String) (value : Value) : World where
  engine := { languages := {}, loader := .memory [], maxDepth := 64 }
  registry := Registry.bind {} name (.ready value) .host none

/-- A record with the greatest number that JSON has and a reference, its names not in order. -/
def shipment : Value :=
  .record [("weight", .integer (.ofInt 0xffffffffffffffff)),
    ("crates", .sequence [.reference ⟨.host, 0, .handle⟩])]

/-- Through the form language, the statement language and the form language again. -/
def thereAndBack : List Hop :=
  [⟨.forms [], ⟨1⟩, 1, "out"⟩, ⟨.statements [], ⟨2⟩, 1, "there"⟩, ⟨.forms [], ⟨3⟩, 1, "back"⟩]

/-- The shipment comes back equal to what it was; a double that is no number is left in front of
the statement language. -/
theorem shipment_relayed_nan_refused :
    (∃ after relayed,
      relay (Host.routines []) 0 thereAndBack "v"
          (.exporting "v" shipment) = some ([.ok (), .ok (), .ok ()], after) ∧
        after.registry.IsBoundTo "back" relayed ∧ shipment.equal relayed = true ∧
        relayed.references.Perm [⟨.host, 0, .handle⟩]) ∧
    ∃ reason between after,
      relay (Host.routines []) 0 (thereAndBack.take 1) "v"
          (.exporting "v" (.float Double.quietNaN)) = some ([.ok ()], between) ∧
      relay (Host.routines []) 0 thereAndBack "v"
          (.exporting "v" (.float Double.quietNaN)) =
        some ([.ok (), .error (.unrepresentable "jsonscript" reason),
          .error (.unresolvedName "there")], after) ∧
        between.registry.IsBoundTo "out" (.float Double.quietNaN) ∧
        ∀ name, after.registry.find? name = between.registry.find? name := by
  constructor
  · have distinct : shipment.NamesDistinct := by
      refine .record (by decide) fun field mem => ?_
      rcases List.mem_pair.1 mem with rfl | rfl
      · exact .integer _
      · refine .sequence fun item mem => ?_
        obtain rfl := List.mem_singleton.1 mem
        exact .reference _
    have fits : shipment.FitsJson := by
      refine .record fun field mem => ?_
      rcases List.mem_pair.1 mem with rfl | rfl
      · exact .integer (by decide) (by decide)
      · refine .sequence fun item mem => ?_
        obtain rfl := List.mem_singleton.1 mem
        exact .reference _
    obtain ⟨after, relayed, run, held, equal, _, references, _⟩ :=
      (relay_carries_equal_or_binds_nothing (Host.routines []) 0 thereAndBack "v" shipment
        (.exporting "v" shipment) distinct ⟨_, rfl, rfl⟩).1 (.inl fits)
    exact ⟨after, relayed, run, held, equal, references⟩
  · have misfits : ¬ (Value.float Double.quietNaN).FitsJson := by
      rintro (_ | finite)
      exact absurd finite (by decide)
    obtain ⟨reason, between, after, first, held, run, unchanged⟩ :=
      (relay_carries_equal_or_binds_nothing (Host.routines []) 0
        thereAndBack "v" (.float Double.quietNaN) (.exporting "v" (.float Double.quietNaN))
        (.float _) ⟨_, rfl, rfl⟩).2 misfits [⟨.forms [], ⟨1⟩, 1, "out"⟩]
          ⟨.statements [], ⟨2⟩, 1, "there"⟩ [⟨.forms [], ⟨3⟩, 1, "back"⟩] rfl
          (fun earlier mem => by rw [List.mem_singleton.1 mem]; trivial) (fun forms => forms)
          (by decide) (by decide)
    exact ⟨reason, between, after, first, run, held, unchanged⟩

end Interchange
