import Interchange.Forms.Evaluation
import Interchange.Proofs.Value.Equality
import Interchange.Proofs.Value.Reading
import Interchange.Statements.Expression

/-!
# Paths into values and into what the guests make of them

A guest reads its own data, not the values they were made of: the form language keeps the fields of
a record in order, the statement language sorts them, and both look a shared object up again at each
step that leads through a reference. Still a path comes to the same in all three, or fails for the
same reason (`reading_commutes_with_import`). One step is compared with one step
(`Forms.Datum.follow_ofValue`, `Statements.Item.follow_of_ofValue`), and a path is a sequence of
steps. Only the statement language stops earlier, where a shared object gives a value that it cannot
take (`Value.Blocked`).
-/
namespace Interchange

open Statements (Step Item)

/-- Two faults of a reading tell of the same: that there is no field of that name, that the same
index lies beyond the same length, or that what was read has no such parts. They need not name the
type that was read in the same words. -/
inductive Fault.SameKind : Fault → Fault → Prop where
  /-- There is no field of that name. -/
  | noSuchField (name target other : String) :
      SameKind (.noSuchField name target) (.noSuchField name other)
  /-- The index lies beyond the length. -/
  | indexOutOfBounds (index length : Nat) :
      SameKind (.indexOutOfBounds index length) (.indexOutOfBounds index length)
  /-- What was read has no such parts. -/
  | typeMismatch (expected found otherExpected otherFound : String) :
      SameKind (.typeMismatch expected found) (.typeMismatch otherExpected otherFound)

/-- What is looked up comes to what is found. -/
theorem Fault.orElse_ok_iff {α : Type} {fault : Fault} {found : Option α} {value : α} :
    Fault.orElse fault found = .ok value ↔ found = some value := by
  cases found <;> simp [orElse]

/-- Looking up fails with the fault that tells of it. -/
theorem Fault.eq_of_orElse_error {α : Type} {fault other : Fault} {found : Option α}
    (failed : Fault.orElse fault found = .error other) : other = fault := by
  cases found with
  | none => exact (Except.error.inj failed).symm
  | some value => cases failed

/-- Two readings go together: they come to parts that are related, or fail alike. -/
inductive GoTogether {α β : Type} (related : α → β → Prop) :
    Except Fault α → Except Fault β → Prop where
  /-- They come to parts. -/
  | parts {part : α} {other : β} (relates : related part other) :
      GoTogether related (.ok part) (.ok other)
  /-- They fail. -/
  | faults {fault other : Fault} (same : fault.SameKind other) :
      GoTogether related (.error fault) (.error other)

namespace GoTogether

variable {α β : Type} {related : α → β → Prop}

/-- What is there in both or in neither is read from both or from neither. -/
theorem of_optionRel {found : Option α} {other : Option β} {fault otherFault : Fault}
    (same : fault.SameKind otherFault) (both : Option.Rel related found other) :
    GoTogether related (Fault.orElse fault found) (Fault.orElse otherFault other) := by
  cases both with
  | none => exact .faults same
  | some relates => exact .parts relates

/-- A path is followed together if each of its steps is. -/
theorem foldlM {Step : Type} {follow : α → Step → Except Fault α}
    {other : β → Step → Except Fault β}
    (each : ∀ a b step, related a b → GoTogether related (follow a step) (other b step))
    (path : List Step) {a : α} {b : β} (relates : related a b) :
    GoTogether related (path.foldlM follow a) (path.foldlM other b) := by
  induction path generalizing a b with
  | nil => exact .parts relates
  | cons step path ih =>
    rw [List.foldlM_cons, List.foldlM_cons]
    have first := each a b step relates
    generalize follow a step = one at first ⊢
    generalize other b step = two at first ⊢
    cases first with
    | parts relates => exact ih relates
    | faults same => exact .faults same

end GoTogether

/-- Follow one step from a value. -/
def Value.follow (heap : Heap) (value : Value) : Step → Except Fault Value
  | .field name => value.field heap (String.ofList name)
  | .index position => value.index heap position

/-- Follow one step from a datum. -/
def Forms.Datum.follow (heap : Heap) (datum : Datum) : Step → Except Fault Datum
  | .field name => datum.field heap (String.ofList name)
  | .index position => datum.nth heap position

namespace Heap

variable {heap : Heap} {target : Reference} {part : Value} {fault : Fault}

/-- Reading a field of an object fails because there is none of that name. -/
theorem sameKind_of_getField {name : String} (read : heap.getField target name = .error fault) :
    fault.SameKind fault := by
  have missing : ∃ what, fault = .noSuchField name what := by
    unfold getField at read
    split at read
    · exact ⟨_, Fault.eq_of_orElse_error read⟩
    · split at read <;> cases read
      exact ⟨_, rfl⟩
    · exact ⟨_, (Except.error.inj read).symm⟩
  obtain ⟨what, rfl⟩ := missing
  exact .noSuchField name what what

/-- Reading an item of an object fails because it has too few, or none at all. -/
theorem sameKind_of_getIndex {position : Nat}
    (read : heap.getIndex target position = .error fault) : fault.SameKind fault := by
  unfold getIndex at read
  split at read
  · rw [Fault.eq_of_orElse_error read]
    exact .indexOutOfBounds _ _
  · rw [← Except.error.inj read]
    exact .typeMismatch _ _ _ _

/-- What a field of an object is has each name of a record once. -/
theorem NamesDistinct.getField {name : String} (distinct : heap.NamesDistinct)
    (read : heap.getField target name = .ok part) : part.NamesDistinct := by
  unfold Heap.getField at read
  split at read
  · rename_i fields held
    have mem : (name, part) ∈ fields := Fields.mem_of_find? (Fault.orElse_ok_iff.1 read)
    exact distinct _ (List.mem_of_getElem? held) part (List.mem_map_of_mem mem)
  · split at read <;> cases read
    exact .text _
  · cases read

/-- What an item of an object is has each name of a record once. -/
theorem NamesDistinct.getIndex {position : Nat} (distinct : heap.NamesDistinct)
    (read : heap.getIndex target position = .ok part) : part.NamesDistinct := by
  unfold Heap.getIndex at read
  split at read
  · rename_i items held
    have mem : part ∈ items := List.mem_of_getElem? (Fault.orElse_ok_iff.1 read)
    exact distinct _ (List.mem_of_getElem? held) part mem
  · cases read

end Heap

namespace Value

variable {heap : Heap} {value part : Value} {step : Step}

/-- A step that fails does so for one of three reasons. -/
theorem sameKind_of_follow {target : Reference} {fault : Fault}
    (read : (reference target).follow heap step = .error fault) : fault.SameKind fault := by
  cases step with
  | field name => exact Heap.sameKind_of_getField read
  | index position => exact Heap.sameKind_of_getIndex read

/-- Parts of values in which no record has a name twice are such values. -/
theorem NamesDistinct.follow (distinct : value.NamesDistinct) (held : heap.NamesDistinct)
    (read : value.follow heap step = .ok part) : part.NamesDistinct := by
  cases step with
  | field name =>
    change value.field heap (String.ofList name) = .ok part at read
    cases distinct with
    | record names inside =>
      exact inside _ (Fields.mem_of_find? (Fault.orElse_ok_iff.1 read))
    | reference target => exact held.getField read
    | integer | float | text | sequence => cases read
  | index position =>
    change value.index heap position = .ok part at read
    cases distinct with
    | sequence inside => exact inside _ (List.mem_of_getElem? (Fault.orElse_ok_iff.1 read))
    | reference target => exact held.getIndex read
    | integer | float | text | record => cases read

end Value

namespace Forms.Datum

/-- The items of a sequence and the data of a list are at the same positions. -/
theorem forall₂_ofValues (values : List Value) :
    List.Forall₂ (fun value datum => datum = ofValue value) values (ofValues values) := by
  induction values with
  | nil => exact .nil
  | cons value values ih => exact .cons rfl ih

/-- The fields of a record and of its datum have the same names in the same places. -/
theorem matched_ofPairs (fields : Fields Value) :
    Fields.Matched (fun value datum => datum = ofValue value) fields (ofPairs fields) := by
  induction fields with
  | nil => exact .nil
  | cons field fields ih => exact .cons ⟨rfl, rfl⟩ ih

/-- One step from a value and from its datum comes to a value and to its datum. -/
theorem follow_ofValue (heap : Heap) (value : Value) (step : Step) :
    GoTogether (fun value datum => datum = ofValue value) (value.follow heap step)
      ((ofValue value).follow heap step) := by
  cases value with
  | integer | float | text => cases step <;> exact .faults (.typeMismatch _ _ _ _)
  | sequence items =>
    cases step with
    | field name => exact .faults (.typeMismatch _ _ _ _)
    | index position =>
      have pairs := forall₂_ofValues items
      have bounds : (Fault.indexOutOfBounds position items.length).SameKind
          (.indexOutOfBounds position (ofValues items).length) := by
        rw [← pairs.length_eq]
        exact .indexOutOfBounds position items.length
      exact .of_optionRel bounds (optionRel_of_forall₂ pairs position)
  | record fields =>
    cases step with
    | field name => exact .of_optionRel (.noSuchField _ _ _) ((matched_ofPairs fields).find? _)
    | index position => exact .faults (.typeMismatch _ _ _ _)
  | reference target =>
    have again : (ofValue (.reference target)).follow heap step =
        ((Value.reference target).follow heap step).map ofValue := by
      cases step <;> rfl
    rw [again]
    cases read : (Value.reference target).follow heap step with
    | ok part => exact .parts rfl
    | error fault => exact .faults (Value.sameKind_of_follow read)

end Forms.Datum

/-- Fields that are read one after the other are the steps of a path. -/
theorem Forms.fieldPath_eq (heap : Heap) (names : List (List Char)) (datum : Datum) :
    fieldPath heap names datum = (names.map Step.field).foldlM (Datum.follow heap) datum := by
  induction names generalizing datum with
  | nil => rfl
  | cons name names ih =>
    rw [fieldPath, List.map_cons, List.foldlM_cons]
    exact congrArg _ (funext ih)

/-- A path from a value leads through a reference to a value that the statement language cannot
take, with the fault that it tells. All values before are such as it takes. -/
inductive Value.Blocked (heap : Heap) : Value → List Step → Fault → Prop where
  /-- The first step leads there. -/
  | here {target : Reference} {part : Value} {step : Step} {rest : List Step} {fault : Fault}
      (read : (reference target).follow heap step = .ok part)
      (refused : Item.ofValue part = .error fault) :
      Blocked heap (.reference target) (step :: rest) fault
  /-- A later step leads there. -/
  | later {value part : Value} {item : Item} {step : Step} {rest : List Step} {fault : Fault}
      (read : value.follow heap step = .ok part) (taken : Item.ofValue part = .ok item)
      (further : Blocked heap part rest fault) : Blocked heap value (step :: rest) fault

namespace Statements.Item

open Outcome

variable {value : Value} {item : Item}

/-- The items of a sequence and of its array are at the same positions. -/
theorem forall₂_of_ofValues {values : List Value} {items : List Item}
    (made : ofValues values = .ok items) :
    List.Forall₂ (fun value item => ofValue value = .ok item) values items := by
  induction values generalizing items with
  | nil =>
    obtain rfl := Except.ok.inj made
    exact .nil
  | cons value values ih =>
    simp only [ofValues, bind_ok_iff, pure_ok_iff] at made
    obtain ⟨item, first, rest, made, rfl⟩ := made
    exact .cons first (ih made)

/-- One step from a value and from its item comes to a value and to its item, unless it leads
through a reference to a value that has no item. -/
theorem follow_of_ofValue (heap : Heap) (made : ofValue value = .ok item)
    (distinct : value.NamesDistinct) (step : Step) :
    (∃ target part fault, value = .reference target ∧ value.follow heap step = .ok part ∧
      ofValue part = .error fault ∧ step.follow heap item = .error fault) ∨
    GoTogether (fun value item => ofValue value = .ok item) (value.follow heap step)
      (step.follow heap item) := by
  cases value with
  | integer n =>
    simp only [ofValue, bind_ok_iff, pure_ok_iff] at made
    obtain ⟨_, _, rfl⟩ := made
    cases step <;> exact .inr (.faults (.typeMismatch _ _ _ _))
  | float x =>
    simp only [ofValue, bind_ok_iff, pure_ok_iff] at made
    obtain ⟨_, _, rfl⟩ := made
    cases step <;> exact .inr (.faults (.typeMismatch _ _ _ _))
  | text s =>
    obtain rfl := Except.ok.inj made
    cases step <;> exact .inr (.faults (.typeMismatch _ _ _ _))
  | sequence items =>
    simp only [ofValue, bind_ok_iff, pure_ok_iff] at made
    obtain ⟨others, made, rfl⟩ := made
    have pairs := forall₂_of_ofValues made
    cases step with
    | field name => exact .inr (.faults (.typeMismatch _ _ _ _))
    | index position =>
      have bounds : (Fault.indexOutOfBounds position items.length).SameKind
          (.indexOutOfBounds position others.length) := by
        rw [← pairs.length_eq]
        exact .indexOutOfBounds position items.length
      exact .inr (.of_optionRel bounds (optionRel_of_forall₂ pairs position))
  | record fields =>
    simp only [ofValue, bind_ok_iff, pure_ok_iff] at made
    obtain ⟨members, made, rfl⟩ := made
    have matched := ofPairs_eq_ok_iff.1 made
    cases step with
    | index position => exact .inr (.faults (.typeMismatch _ _ _ _))
    | field name =>
      cases distinct with
      | record names _ =>
        have otherNames : (Fields.names members).Nodup := matched.names_eq ▸ names
        have found := matched.find? (String.ofList name)
        rw [← Fields.find?_sorted otherNames] at found
        exact .inr (.of_optionRel (.noSuchField _ _ _) found)
  | reference target =>
    obtain rfl := Except.ok.inj made
    have again : step.follow heap (.foreign target) =
        (Value.reference target).follow heap step >>= ofValue := by
      cases step <;> rfl
    cases read : (Value.reference target).follow heap step with
    | error fault =>
      rw [read] at again
      rw [again]
      exact .inr (.faults (Value.sameKind_of_follow read))
    | ok part =>
      rw [read] at again
      have same : step.follow heap (.foreign target) = ofValue part := again
      rw [same]
      cases taken : ofValue part with
      | ok inner => exact .inr (.parts taken)
      | error fault => exact .inl ⟨target, part, fault, rfl, rfl, taken, rfl⟩

/-- A path from a value and from its item comes to a value and to its item, unless it is blocked. -/
theorem path_of_ofValue {heap : Heap} (made : ofValue value = .ok item)
    (held : heap.NamesDistinct) (distinct : value.NamesDistinct) (path : List Step) :
    (∀ fault, value.Blocked heap path fault →
      path.foldlM (Step.follow heap) item = .error fault ∧ Refuses fault) ∧
    ((∀ fault, ¬ value.Blocked heap path fault) →
      GoTogether (fun value item => ofValue value = .ok item)
        (path.foldlM (Value.follow heap) value) (path.foldlM (Step.follow heap) item)) := by
  induction path generalizing value item with
  | nil => exact ⟨fun _ blocked => (nomatch blocked), fun _ => .parts made⟩
  | cons step path ih =>
    rw [List.foldlM_cons, List.foldlM_cons]
    rcases follow_of_ofValue heap made distinct step with
      ⟨target, part, refusal, rfl, read, refused, stopped⟩ | together
    · -- The step leads to a value that has no item, so the path ends there.
      constructor
      · intro fault blocked
        have same : fault = refusal := by
          cases blocked with
          | here readAgain refusedAgain =>
            obtain rfl := Except.ok.inj (read.symm.trans readAgain)
            exact (Except.error.inj (refused.symm.trans refusedAgain)).symm
          | later readAgain taken _ =>
            obtain rfl := Except.ok.inj (read.symm.trans readAgain)
            cases refused.symm.trans taken
        subst same
        rw [stopped]
        exact ⟨rfl, refuses_of_ofValue refused⟩
      · intro free
        exact absurd (.here read refused) (free refusal)
    · generalize reads : value.follow heap step = one at together
      generalize gives : step.follow heap item = two at together
      cases together with
      | @parts part inner taken =>
        obtain ⟨stops, goesOn⟩ := ih taken (distinct.follow held reads)
        constructor
        · intro fault blocked
          cases blocked with
          | here readAgain refused =>
            obtain rfl := Except.ok.inj (reads.symm.trans readAgain)
            cases taken.symm.trans refused
          | later readAgain _ further =>
            obtain rfl := Except.ok.inj (reads.symm.trans readAgain)
            exact stops fault further
        · intro free
          exact goesOn fun fault further => free fault (.later reads taken further)
      | faults same =>
        constructor
        · intro fault blocked
          cases blocked with
          | here readAgain _ => cases reads.symm.trans readAgain
          | later readAgain _ _ => cases reads.symm.trans readAgain
        · intro _
          exact .faults same

end Statements.Item

/-- Reading commutes with importing. A path of names and indexes that is followed step by step from
the datum of a value comes to the datum of what the same path comes to from the value, and it fails
exactly when that fails, because there is no field of the same name, because the same index lies
beyond the same length, or because what was read has no such parts; so it is with the names that are
written with dots between them in the form language. From the item of a value that the statement
language takes, a path comes to the item of what it comes to from the value, and fails exactly when
that fails and as it does, with one exception: if a step leads through a reference to a value that
has no item, then the path ends there, and the statement language names itself in the refusal. The
shared objects may be any and are the same for all steps; values and shared objects have each name
of a record once. -/
theorem reading_commutes_with_import (heap : Heap) :
    (∀ (value : Value) (path : List Step),
      GoTogether (fun part datum => datum = Forms.Datum.ofValue part)
        (path.foldlM (Value.follow heap) value)
        (path.foldlM (Forms.Datum.follow heap) (.ofValue value))) ∧
    (∀ (value : Value) (names : List (List Char)),
      GoTogether (fun part datum => datum = Forms.Datum.ofValue part)
        ((names.map Step.field).foldlM (Value.follow heap) value)
        (Forms.fieldPath heap names (.ofValue value))) ∧
    ∀ (value : Value) (item : Item) (path : List Step), heap.NamesDistinct →
      value.NamesDistinct → Item.ofValue value = .ok item →
      (∀ fault, value.Blocked heap path fault →
        path.foldlM (Step.follow heap) item = .error fault ∧ Item.Refuses fault) ∧
      ((∀ fault, ¬ value.Blocked heap path fault) →
        GoTogether (fun part inner => Item.ofValue part = .ok inner)
          (path.foldlM (Value.follow heap) value) (path.foldlM (Step.follow heap) item)) := by
  have data (value : Value) (path : List Step) :
      GoTogether (fun part datum => datum = Forms.Datum.ofValue part)
        (path.foldlM (Value.follow heap) value)
        (path.foldlM (Forms.Datum.follow heap) (.ofValue value)) := by
    refine GoTogether.foldlM (fun part datum step same => ?_) path rfl
    rw [same]
    exact Forms.Datum.follow_ofValue heap part step
  refine ⟨data, fun value names => ?_, fun value item path held distinct made => ?_⟩
  · rw [Forms.fieldPath_eq]
    exact data value (names.map Step.field)
  · exact Item.path_of_ofValue made held distinct path

/-- A record with a reference to a list. -/
def Value.parcel : Value := record [("list", reference ⟨⟨0⟩, 0, .array⟩)]

/-- The path to an item of the list. -/
def Value.parcelPath (position : Nat) : List Step := [.field "list".toList, .index position]

/-- The list: a zero, and a double that is not a number. -/
def Heap.withParcel : Heap := ⟨[.array [.float ⟨0⟩, .float Double.quietNaN]]⟩

/-- Beyond the end of the list all three readings fail for the same reason. The second item is read
by the form language, but the statement language refuses it, though it has taken the record. -/
theorem parcel_read_by_both :
    ∃ item, Item.ofValue .parcel = .ok item ∧
      GoTogether (fun part datum => datum = Forms.Datum.ofValue part)
        ((Value.parcelPath 2).foldlM (Value.follow .withParcel) .parcel)
        ((Value.parcelPath 2).foldlM (Forms.Datum.follow .withParcel) (.ofValue .parcel)) ∧
      GoTogether (fun part inner => Item.ofValue part = .ok inner)
        ((Value.parcelPath 2).foldlM (Value.follow .withParcel) .parcel)
        ((Value.parcelPath 2).foldlM (Step.follow .withParcel) item) ∧
      GoTogether (fun part datum => datum = Forms.Datum.ofValue part)
        (.ok (.float Double.quietNaN))
        ((Value.parcelPath 1).foldlM (Forms.Datum.follow .withParcel) (.ofValue .parcel)) ∧
      ∃ fault, (Value.parcelPath 1).foldlM (Step.follow .withParcel) item = .error fault ∧
        Item.Refuses fault := by
  obtain ⟨data, _, items⟩ := reading_commutes_with_import .withParcel
  have held : Heap.withParcel.NamesDistinct := by
    simp only [Heap.NamesDistinct, Heap.withParcel, SharedObject.values, List.forall_mem_singleton,
      List.forall_mem_cons]
    exact ⟨.float _, .float _⟩
  have distinct : Value.parcel.NamesDistinct :=
    .record (by decide) (List.forall_mem_singleton.2 (.reference _))
  have free : ∀ fault, ¬ Value.parcel.Blocked .withParcel (Value.parcelPath 2) fault := by
    intro fault blocked
    cases blocked with
    | later read _ further =>
      obtain rfl := Except.ok.inj read
      cases further with
      | here read _ => cases read
      | later read _ _ => cases read
  have blocked : Value.parcel.Blocked .withParcel (Value.parcelPath 1)
      (.unrepresentable Statements.languageName
        ("float " ++ Double.numeral Double.quietNaN ++ " is not finite")) :=
    .later rfl rfl (.here rfl rfl)
  have made : Item.ofValue .parcel = .ok (.object [("list", .foreign ⟨⟨0⟩, 0, .array⟩)]) := rfl
  obtain ⟨_, goesOn⟩ := items .parcel _ (Value.parcelPath 2) held distinct made
  obtain ⟨stops, _⟩ := items .parcel _ (Value.parcelPath 1) held distinct made
  exact ⟨_, made, data .parcel (Value.parcelPath 2), goesOn free,
    data .parcel (Value.parcelPath 1), _, stops _ blocked⟩

end Interchange
