import Interchange.Proofs.Engine.Outside
import Interchange.Proofs.Guests.Records

/-!
# Shared objects throughout runs

Programs make shared objects and set fields of shared records; nothing else that happens touches an
object (`Moment.Step.object`). So what an object has become at any moment can be told from the
updates alone that were made through its references (`Moment.Updates.object_eq`), and a shared
record holds what its first fields and those updates, one after the other, are gathered into
(`record_builders_agree`).
-/
namespace Interchange

/-- A field of a shared object is given a value. -/
structure FieldUpdate where
  /-- The reference through which that is done. -/
  target : Reference
  /-- The name of the field. -/
  name : String
  /-- The value. -/
  value : Value

namespace FieldUpdate

/-- The names and values that updates give to one object, through whichever references. -/
def on (number : Nat) (updates : List FieldUpdate) : List (String × Value) :=
  updates.filterMap fun update =>
    if update.target.object = number then some (update.name, update.value) else none

/-- Updates of other objects give it nothing. -/
theorem on_eq_nil {number : Nat} {updates : List FieldUpdate}
    (others : ∀ update ∈ updates, update.target.object ≠ number) : on number updates = [] :=
  List.filterMap_eq_nil_iff.2 fun update mem => if_neg (others update mem)

/-- Later updates come later. -/
theorem on_append (number : Nat) (updates later : List FieldUpdate) :
    on number (updates ++ later) = on number updates ++ on number later := List.filterMap_append

end FieldUpdate

/-- The object when its fields have been given values, one after the other; only records have fields
that can be given one. -/
def SharedObject.updated (object : SharedObject) (pairs : List (String × Value)) : SharedObject :=
  match object with
  | record fields => record (pairs.foldl (fun fields (name, value) => fields.put name value) fields)
  | other => other

namespace SharedObject

/-- Without updates an object stays as it is. -/
theorem updated_nil (object : SharedObject) : object.updated [] = object := by
  cases object <;> rfl

/-- Updates are made one after the other. -/
theorem updated_append (object : SharedObject) (pairs later : List (String × Value)) :
    object.updated (pairs ++ later) = (object.updated pairs).updated later := by
  cases object with
  | record fields => exact congrArg record List.foldl_append
  | function name routine => rfl
  | array items => rfl
  | handle => rfl

/-- A record that was gathered is updated by gathering more. -/
theorem updated_ofPairs (pairs later : List (String × Value)) :
    (record (Fields.ofPairs pairs)).updated later = record (Fields.ofPairs (pairs ++ later)) :=
  congrArg record (Fields.ofPairs_append pairs later).symm

end SharedObject

namespace Heap

variable {heap : Heap} {number : Nat} {object : SharedObject}

/-- The shared objects after an update, which may be refused. -/
def update (heap : Heap) (update : FieldUpdate) : Heap :=
  match heap.setField update.target update.name update.value with
  | .ok after => after
  | .error _ => heap

/-- An update concerns the object that it is made to, if that is a record. -/
theorem update_object (there : heap.objects[number]? = some object) (update : FieldUpdate) :
    (heap.update update).objects[number]? =
      some (object.updated (FieldUpdate.on number [update])) := by
  obtain ⟨target, name, value⟩ := update
  by_cases same : target.object = number
  · have found : heap.object? target = some object := by
      rw [object?, same]
      exact there
    have given : FieldUpdate.on number [⟨target, name, value⟩] = [(name, value)] := by
      simp only [FieldUpdate.on, List.filterMap_cons, same, if_pos, List.filterMap_nil]
    obtain ⟨inside, _⟩ := List.getElem?_eq_some_iff.1 there
    rw [given]
    cases object with
    | record fields =>
      simp only [Heap.update, setField, found, same]
      exact List.getElem?_set_self inside
    | _ =>
      simp only [Heap.update, setField, found]
      exact there
  · have given : FieldUpdate.on number [⟨target, name, value⟩] = [] := by
      simp only [FieldUpdate.on, List.filterMap_cons, same, if_false, List.filterMap_nil]
    rw [given, SharedObject.updated_nil, ← there]
    simp only [Heap.update, setField]
    cases heap.object? target with
    | none => rfl
    | some other =>
      cases other with
      | record fields => exact List.getElem?_set_ne same
      | _ => rfl

/-- A new object stands beside the others. -/
theorem allocate_object (there : heap.objects[number]? = some object) (origin : ContextId)
    (pairs : List (String × Value)) :
    (heap.allocateRecord origin pairs).2.objects[number]? = some object := by
  obtain ⟨inside, _⟩ := List.getElem?_eq_some_iff.1 there
  have kept : (heap.objects ++ [.record (Fields.ofPairs pairs)])[number]? = heap.objects[number]? :=
    List.getElem?_append_left inside
  exact kept.trans there

end Heap

/-- The update that a request makes. -/
def Request.update? : Request → Option FieldUpdate
  | .setField target name value => some ⟨target, name, value⟩
  | _ => none

/-- The shared objects after a request of a context. -/
def Heap.after (heap : Heap) (context : ContextId) : Request → Heap
  | .allocate pairs => (heap.allocateRecord context pairs).2
  | .setField target name value => heap.update ⟨target, name, value⟩
  | _ => heap

/-- The world in which a request is answered, or in which another program is started for it. -/
def Reply.onward {α : Type} : Reply α → World
  | now _ left => left
  | after _ _ opened _ => opened

namespace World

/-- The objects are shared by all engines. -/
theorem heap_atHome (world : World) : world.atHome.heap = world.heap := by
  unfold atHome
  split <;> rfl

/-- The objects are shared by all engines. -/
theorem heap_backFrom (before after : World) : (before.backFrom after).heap = after.heap := by
  unfold backFrom
  split <;> rfl

end World

/-- What is left to do touches no object. -/
theorem Pending.heap_conclude {β α : Type} (pending : Pending β α) (result : β) (world : World) :
    (pending.conclude result world).2.heap = world.heap := by
  induction pending with
  | passing => rfl
  | settling name generation routine => rfl
  | finishing context unit => rfl
  | naming child pending ih => exact ih result
  | returning before pending ih => exact (World.heap_backFrom before _).trans (ih result)

namespace Reply

variable {α : Type} {heap : Heap}

/-- Naming a context touches no object. -/
theorem onward_name (child : ContextId) (reply : Reply (Except Fault Unit)) :
    (reply.name child).onward = reply.onward := by
  cases reply <;> rfl

/-- Returning touches no object. -/
theorem heap_back (before : World) (reply : Reply α) :
    (reply.back before).onward.heap = reply.onward.heap := by
  cases reply with
  | now answer left => exact World.heap_backFrom before left
  | after inner program opened pending => rfl

end Reply

namespace Engine

variable (world : World)

/-- Evaluating a unit in a context touches no object before the unit does. -/
theorem heap_respondEvaluate (context : ContextId) (unit : SourceUnit) :
    (respondEvaluate context unit world).onward.heap = world.heap := by
  unfold respondEvaluate
  split
  · rfl
  · split <;> rfl

/-- Creating a context touches no object. -/
theorem heap_createContext (parent : Option ContextId) (language : String) :
    (createContext parent language world).2.heap = world.heap := by
  rcases createContext_cases parent language world with
    ⟨fault, refused⟩ | ⟨found, child, contexts, _, _, created⟩
  · rw [refused]
  · rw [created]
    rfl

/-- Evaluating a unit in a new context touches no object before the unit does. -/
theorem heap_respondBelow (parent : ContextId) (unit : SourceUnit) :
    (respondBelow parent unit world).onward.heap = world.heap := by
  have same := heap_createContext world (some parent) unit.language
  unfold respondBelow
  split
  · rename_i fault left refused
    rw [refused] at same
    exact same
  · rename_i child opened created
    rw [created] at same
    rw [Reply.onward_name, heap_respondEvaluate]
    exact same

/-- Evaluating a source touches no object before the source does. -/
theorem heap_respondEval (caller : ContextId) (language path : String) (line : Option Nat) :
    (respondEval caller language path line world).onward.heap = world.heap := by
  unfold respondEval
  dsimp only
  split
  · rfl
  · split
    · unfold noteMissing
      split <;> rfl
    · exact heap_respondBelow world caller _

/-- Looking a name up touches no object before a routine does. -/
theorem heap_respondImport (routines : Routines) (context : ContextId) (name : String)
    (line : Option Nat) :
    (respondImport routines context name line world).onward.heap = world.heap := by
  unfold respondImport
  dsimp only
  split
  · rfl
  · split <;> rfl

/-- A request touches objects only if it makes one or updates one. -/
theorem heap_respond (routines : Routines) (context : ContextId) (request : Request) :
    (respond routines context request world).onward.heap = world.heap.after context request := by
  cases request with
  | setField target name value =>
    simp only [respond, Heap.after, Heap.update]
    cases world.heap.setField target name value <;> rfl
  | call function arguments =>
    simp only [respond, respondCall]
    split
    · rfl
    · exact World.heap_atHome world
  | importName name line => exact heap_respondImport world routines context name line
  | eval language path line => exact heap_respondEval world context language path line
  | evaluate target unit => exact heap_respondEvaluate world target unit
  | evalUnit unit =>
    simp only [respond, Reply.heap_back, heap_respondBelow]
    exact World.heap_atHome world
  | inspect | look | allocate | exportValue | exportLazy | print | tally => rfl

end Engine

/-- A call from outside touches no object before a unit does. -/
theorem Call.heap_reply (call : Call) (world : World) :
    (call.reply world).onward.heap = world.heap := by
  cases call with
  | source caller language path line =>
    exact Engine.heap_respondEval world caller language path line
  | file path =>
    rw [reply]
    cases world.engine.languages.forPath path with
    | error fault => rfl
    | ok language => exact Engine.heap_respondEval world .host language.id path none
  | text unit => exact Engine.heap_respondBelow world .host unit

/-- What a request makes of an object. -/
theorem Heap.after_object {heap : Heap} {number : Nat} {object : SharedObject}
    (there : heap.objects[number]? = some object) (context : ContextId) (request : Request) :
    (heap.after context request).objects[number]? =
      some (object.updated (FieldUpdate.on number request.update?.toList)) := by
  have unchanged : object.updated (FieldUpdate.on number []) = object :=
    SharedObject.updated_nil object
  cases request with
  | allocate pairs => exact unchanged.symm ▸ allocate_object there context pairs
  | setField target name value => exact update_object there ⟨target, name, value⟩
  | _ => exact unchanged.symm ▸ there

namespace Operation

/-- The update that an operation from outside makes at once. -/
def update? : Operation → Option FieldUpdate
  | ask _ request => request.update?
  | create .. => none
  | evaluate _ => none

/-- What an operation makes of an object at once. -/
theorem reply_object {world : World} {number : Nat} {object : SharedObject}
    (there : world.heap.objects[number]? = some object) (routines : Routines)
    (operation : Operation) :
    (operation.reply routines world).onward.heap.objects[number]? =
      some (object.updated (FieldUpdate.on number operation.update?.toList)) := by
  have unchanged : object.updated (FieldUpdate.on number []) = object :=
    SharedObject.updated_nil object
  cases operation with
  | ask context request =>
    rw [reply, Engine.heap_respond]
    exact Heap.after_object there context request
  | create parent language =>
    rw [reply, Reply.onward, Engine.heap_createContext]
    exact unchanged.symm ▸ there
  | evaluate call =>
    rw [reply, call.heap_reply]
    exact unchanged.symm ▸ there

end Operation

/-- At the moment after a reply the world is the one in which the request was answered or another
program started. -/
theorem Reply.world_moment {γ α : Type} (context : ContextId) (next : γ → Program α)
    (stack : Stack α) (reply : Reply γ) :
    (reply.moment context next stack).world = reply.onward := by
  cases reply <;> rfl

namespace Moment

/-- The update that the program at work makes next. -/
def update? (moment : Moment) : Option FieldUpdate :=
  match moment.program with
  | .done _ => none
  | .ask request _ => request.update?

/-- What the program at work makes of an object. -/
theorem Step.object {routines : Routines} {before after : Moment} {deed : Option Deed}
    (now : Step routines before deed after) {number : Nat} {object : SharedObject}
    (there : before.world.heap.objects[number]? = some object) :
    after.world.heap.objects[number]? =
      some (object.updated (FieldUpdate.on number before.update?.toList)) := by
  cases now with
  | @answered α context request next stack world left answer reply =>
    have made := Heap.after_object there context request
    rwa [← Engine.heap_respond world routines, reply] at made
  | @started α β context inner request next stack world opened program pending reply =>
    have made := Heap.after_object there context request
    rwa [← Engine.heap_respond world routines, reply] at made
  | @ended α β γ inner context result pending next stack world =>
    have unchanged : object.updated (FieldUpdate.on number []) = object :=
      SharedObject.updated_nil object
    have kept := pending.heap_conclude result world
    exact unchanged.symm ▸ kept.symm ▸ there

/-- From one moment to another, by what runs and by operations from outside, with the updates of
fields that are made. -/
inductive Updates (routines : Routines) (first : Moment) : List FieldUpdate → Moment → Prop where
  /-- Nothing was done. -/
  | refl : Updates routines first [] first
  /-- What runs went on. -/
  | step {last next : Moment} {made : List FieldUpdate} {deed : Option Deed}
      (before : Updates routines first made last) (now : Step routines last deed next) :
      Updates routines first (made ++ last.update?.toList) next
  /-- An operation was begun. -/
  | performed {last : Moment} {made : List FieldUpdate} (before : Updates routines first made last)
      (operation : Operation) :
      Updates routines first (made ++ operation.update?.toList)
        (last.interrupted routines operation)

/-- What an object has become is told by the updates that were made to it. -/
theorem Updates.object_eq {routines : Routines} {first last : Moment} {made : List FieldUpdate}
    (updates : Updates routines first made last) {number : Nat} {object : SharedObject}
    (there : first.world.heap.objects[number]? = some object) :
    last.world.heap.objects[number]? = some (object.updated (FieldUpdate.on number made)) := by
  induction updates with
  | refl => exact (SharedObject.updated_nil object).symm ▸ there
  | step _ now ih =>
    rw [FieldUpdate.on_append, SharedObject.updated_append]
    exact now.object ih
  | performed _ operation ih =>
    rw [FieldUpdate.on_append, SharedObject.updated_append, interrupted, Reply.world_moment]
    exact Operation.reply_object ih routines operation

end Moment

open Forms

/-- Names with values are made into the same fields in the same order in every way: as a record, as
a shared record, and as data with these values by the form `record`; each name stands once, where it
occurred first, for its last value. The form `object` makes such a shared record. When fields of it
have been updated, through whichever references to it and whatever else has happened in between, it
holds what its first fields and the updates are made into; no object changes that was not updated. A
record that is made of the fields of a record is that record. -/
theorem record_builders_agree (pairs : List (String × Value)) :
    ∃ fields, fields.Gathers pairs ∧ (∀ others, Fields.Gathers pairs others → others = fields) ∧
      Value.recordOf pairs = .record fields ∧ Value.recordOf fields = .record fields ∧
      (∀ {line : Nat} {locals left : Fields Datum} {parts : List Sexp}
        {answers : List ((request : Request) × request.Answer)} {data : List (String × Datum)},
        FieldsGive line locals parts answers data left →
        Fields.Matched (fun datum value => datum.toValue = .ok value) data pairs →
        ∃ made, ((eval line (.list (.symbol "record" :: parts) none)).run.run locals).Told answers
            (.ok (.record made), left) ∧
          Fields.Matched (fun datum value => datum.toValue = .ok value) made fields ∧
          (Datum.record made).toValue = .ok (.record fields) ∧
          ∀ reference, ((eval line (.list (.symbol "object" :: parts) none)).run.run locals).Told
            (answers ++ [⟨.allocate pairs, reference⟩]) (.ok (.foreign reference), left)) ∧
      ∀ {heap shared : Heap} {origin : ContextId} {reference : Reference},
        heap.allocateRecord origin pairs = (reference, shared) →
        shared.object? reference = some (.record fields) ∧
        ∀ {routines : Routines} {first last : Moment} {made : List FieldUpdate},
          first.world.heap = shared → Moment.Updates routines first made last →
          (∀ clone : Reference, clone.object = reference.object →
            (∃ held, Value.recordOf (pairs ++ FieldUpdate.on clone.object made) = .record held ∧
              last.world.heap.object? clone = some (.record held)) ∧
            ∀ name value, ∃ after, last.world.heap.setField clone name value = .ok after) ∧
          ∀ (number : Nat) (object : SharedObject), shared.objects[number]? = some object →
            (∀ update ∈ made, update.target.object ≠ number) →
            last.world.heap.objects[number]? = some object := by
  refine ⟨Fields.ofPairs pairs, Fields.gathers_ofPairs pairs, fun _ gathers => gathers.eq_ofPairs,
    rfl, congrArg Value.record (Fields.ofPairs_ofPairs pairs), ?_, ?_⟩
  · intro line locals left parts answers data gives values
    have told := told_record_iff.2 ⟨data, gives, rfl⟩
    exact ⟨Fields.ofPairs data, told, values.ofPairs, toValue_gathered values,
      fun reference => told_object gives values reference⟩
  · intro heap shared origin reference allocated
    obtain ⟨rfl, rfl⟩ := Prod.mk.inj allocated
    have there : (heap.objects ++ [.record (Fields.ofPairs pairs)])[heap.objects.length]? =
        some (.record (Fields.ofPairs pairs)) := List.getElem?_concat_length
    refine ⟨there, fun {routines first last made} begun updates => ⟨?_, ?_⟩⟩
    · intro clone same
      have found : last.world.heap.object? clone =
          some (.record (Fields.ofPairs (pairs ++ FieldUpdate.on clone.object made))) := by
        rw [← SharedObject.updated_ofPairs]
        apply updates.object_eq
        rw [begun, same]
        exact there
      refine ⟨⟨_, rfl, found⟩, fun name value => ?_⟩
      rw [Heap.setField, found]
      exact ⟨_, rfl⟩
    · intro number object held others
      have kept := updates.object_eq (begun ▸ held)
      rwa [FieldUpdate.on_eq_nil others, SharedObject.updated_nil] at kept

/-- Names with values, one name twice. -/
def namedTwice : List (String × Value) :=
  [("a", .text "one"), ("b", .text "two"), ("a", .text "three")]

/-- The form that gives strings to these names. -/
def namedTwiceForm : List Sexp :=
  [.list [.symbol "a", .string "one"] none, .list [.symbol "b", .string "two"] none,
    .list [.string "a", .string "three"] none]

/-- The world with a shared record that was made of them. -/
def World.withNamedTwice : World :=
  { World.withoutSources with heap := ((Heap.mk []).allocateRecord .host namedTwice).2 }

/-- The form comes to a record of two fields, and the shared record has three when the host has
given one of them another value and has added one. -/
theorem repetition_keeps_place :
    (∃ made, ((eval 1 (.list (.symbol "record" :: namedTwiceForm) none)).run.run []).Told []
        (.ok (.record made), []) ∧
      (Datum.record made).toValue = .ok (.record [("a", .text "three"), ("b", .text "two")])) ∧
    ∃ last reference, Moment.Updates (Host.routines []) (.idle .withNamedTwice)
        [⟨reference, "b", .text "four"⟩, ⟨reference, "c", .text "five"⟩] last ∧
      last.world.heap.object? reference = some
        (.record [("a", .text "three"), ("b", .text "four"), ("c", .text "five")]) := by
  obtain ⟨fields, _, _, same, _, forms, objects⟩ := record_builders_agree namedTwice
  obtain rfl : [("a", .text "three"), ("b", .text "two")] = fields := Value.record.inj same
  constructor
  · have itself (s : String) : ((eval 1 (.string s)).run.run []).Told [] (.ok (.string s), []) := by
      rw [eval.eq_def]
      exact .done _
    have gives : FieldsGive 1 [] namedTwiceForm []
        [("a", .string "one"), ("b", .string "two"), ("a", .string "three")] [] :=
      .cons rfl (itself "one") (.cons rfl (itself "two") (.cons rfl (itself "three") (.nil [])))
    have values : Fields.Matched (fun datum value => Datum.toValue datum = .ok value)
        [("a", .string "one"), ("b", .string "two"), ("a", .string "three")] namedTwice :=
      .cons ⟨rfl, rfl⟩ (.cons ⟨rfl, rfl⟩ (.cons ⟨rfl, rfl⟩ .nil))
    obtain ⟨made, told, _, given, _⟩ := forms gives values
    exact ⟨made, told, given⟩
  · have start : Moment.Updates (Host.routines []) (.idle .withNamedTwice) []
        (.idle .withNamedTwice) := .refl
    have updates := (start.performed
      (.ask .host (.setField ⟨.host, 0, .sharedRecord⟩ "b" (.text "four")))).performed
        (.ask .host (.setField ⟨.host, 0, .sharedRecord⟩ "c" (.text "five")))
    refine ⟨_, ⟨.host, 0, .sharedRecord⟩, updates, ?_⟩
    obtain ⟨_, kept⟩ := objects rfl
    obtain ⟨⟨held, gathered, found⟩, _⟩ := (kept rfl updates).1 ⟨.host, 0, .sharedRecord⟩ rfl
    obtain rfl : [("a", .text "three"), ("b", .text "four"), ("c", .text "five")] = held :=
      Value.record.inj gathered
    exact found

end Interchange
