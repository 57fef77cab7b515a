import Interchange.Proofs.Guests.Locals
import Interchange.Proofs.Value.Data

/-!
# Ways to make a record

A record is made of names with values, given one after the other (`Fields.Gathers`): each name once,
at the place of its first occurrence, with its last value. The form `record` does this with the data
that its fields come to (`Forms.told_record`), and `object` with their values
(`Forms.run_object`). Gathering commutes with turning data into values, so the value of a record of
the form language is gathered from the values of what was given (`Forms.toValue_gathered`).
-/
namespace Interchange

/-- Fields that names with values have been gathered into. -/
structure Fields.Gathers {α : Type} (pairs : List (String × α)) (fields : Fields α) : Prop where
  /-- Each name stands once, where it occurred first. -/
  names : fields.names = (Fields.names pairs).eraseDups
  /-- It stands for its last value. -/
  values : ∀ name, fields.find? name = Fields.find? name pairs.reverse

namespace Fields

variable {α : Type}

/-- Names with values are gathered one after the other. -/
theorem gathers_ofPairs (pairs : List (String × α)) : Gathers pairs (ofPairs pairs) :=
  ⟨names_ofPairs pairs, fun name => find?_ofPairs name pairs⟩

/-- There is one way to gather names with values. -/
theorem Gathers.eq_ofPairs {pairs : List (String × α)} {fields : Fields α}
    (gathers : Gathers pairs fields) : fields = ofPairs pairs := by
  have distinct : fields.names.Nodup := by
    rw [gathers.names, ← names_ofPairs]
    exact (ofPairs_of_pairs pairs).1
  refine eq_of_names_eq distinct ?_ fun name => ?_
  · rw [gathers.names, names_ofPairs]
  · rw [gathers.values, find?_ofPairs]

/-- What was gathered stays as it is when it is gathered again. -/
theorem ofPairs_ofPairs (pairs : List (String × α)) : ofPairs (ofPairs pairs) = ofPairs pairs :=
  ofPairs_of_nodup (ofPairs_of_pairs pairs).1

/-- More names with values are gathered one after the other into what was gathered. -/
theorem ofPairs_append (pairs more : List (String × α)) :
    ofPairs (pairs ++ more) = more.foldl (fun fields (name, value) => fields.put name value)
      (ofPairs pairs) := List.foldl_append

end Fields

namespace Forms

open Evaluation

/-- The fields of a record come to named data, one after the other: each is a list of a name, which
is a symbol or a string, and of a form. -/
inductive FieldsGive (line : Nat) : Fields Datum → List Sexp →
    List ((request : Request) × request.Answer) → List (String × Datum) → Fields Datum → Prop where
  /-- There are none. -/
  | nil (locals : Fields Datum) : FieldsGive line locals [] [] [] locals
  /-- One, and others. -/
  | cons {locals between left : Fields Datum} {written form : Sexp} {name : String}
      {tail : Option Sexp} {fields : List Sexp} {datum : Datum} {data : List (String × Datum)}
      {answers more : List ((request : Request) × request.Answer)}
      (names : nameOf written = pure name)
      (told : ((eval line form).run.run locals).Told answers (.ok datum, between))
      (others : FieldsGive line between fields more data left) :
      FieldsGive line locals (.list [written, form] tail :: fields) (answers ++ more)
        ((name, datum) :: data) left

variable {line : Nat} {locals left : Fields Datum} {parts : List Sexp}
  {answers : List ((request : Request) × request.Answer)} {data : List (String × Datum)}

/-- Fields that come to named data are evaluated to them. -/
theorem FieldsGive.told (gives : FieldsGive line locals parts answers data left) :
    ((evalFields line parts).run.run locals).Told answers (.ok data, left) := by
  induction gives with
  | nil locals =>
    rw [evalFields.eq_def]
    exact .done _
  | @cons locals between left written form name tail fields datum data answers more names told _
      ih =>
    have rest : ((evalFields line fields >>= fun data =>
        (pure ((name, datum) :: data) : Evaluation _)).run.run between).Told more
          (.ok ((name, datum) :: data), left) := by
      rw [run_bind, ← List.append_nil more]
      exact ih.bind (.done _)
    have both : ((eval line form >>= fun datum => evalFields line fields >>= fun data =>
        (pure ((name, datum) :: data) : Evaluation _)).run.run locals).Told (answers ++ more)
          (.ok ((name, datum) :: data), left) := by
      rw [run_bind]
      exact told.bind rest
    rw [evalFields.eq_def]
    dsimp only
    rw [names]
    exact both

/-- A name that is given is a symbol or a string; anything else fails at once. -/
theorem nameOf_cases (written : Sexp) :
    (∃ name, nameOf written = pure name) ∨ ∃ trouble, nameOf written = throw trouble := by
  cases written with
  | symbol name => exact .inl ⟨name, rfl⟩
  | string name => exact .inl ⟨name, rfl⟩
  | _ => exact .inr ⟨_, rfl⟩

/-- If the first step fails, nothing is brought to an end. -/
theorem not_told_throw_bind {α β : Type} {trouble : Trouble} {next : α → Evaluation β} {value : β} :
    ¬ ((throw trouble >>= next).run.run locals).Told answers (.ok value, left) := by
  intro told
  obtain ⟨_, same⟩ := Program.told_done told
  cases same

/-- A step that has come to an end, and what comes after it, which has as well. -/
theorem told_bind_ok {α β : Type} {first : Evaluation α} {next : α → Evaluation β} {value : β}
    (told : ((first >>= next).run.run locals).Told answers (.ok value, left)) :
    ∃ middle between begun rest, answers = begun ++ rest ∧
      (first.run.run locals).Told begun (.ok middle, between) ∧
      ((next middle).run.run between).Told rest (.ok value, left) := by
  rw [run_bind] at told
  obtain ⟨⟨outcome, between⟩, begun, rest, rfl, toldFirst, toldNext⟩ := told.of_bind
  cases outcome with
  | ok middle => exact ⟨middle, between, begun, rest, rfl, toldFirst, toldNext⟩
  | error trouble =>
    obtain ⟨_, same⟩ := Program.told_done toldNext
    cases same

/-- What fields come to when they are evaluated, they come to one after the other. -/
theorem fieldsGive_of_told
    (told : ((evalFields line parts).run.run locals).Told answers (.ok data, left)) :
    FieldsGive line locals parts answers data left := by
  induction parts generalizing locals answers data with
  | nil =>
    rw [evalFields.eq_def] at told
    obtain ⟨rfl, same⟩ := Program.told_done told
    cases same
    exact .nil left
  | cons part parts ih =>
    rw [evalFields.eq_def] at told
    split at told
    · rename_i impossible
      cases impossible
    · rename_i written form tail fields same
      obtain ⟨rfl, rfl⟩ := List.cons.inj same
      rcases nameOf_cases written with ⟨name, names⟩ | ⟨trouble, fails⟩
      · rw [names, pure_bind] at told
        obtain ⟨datum, between, begun, rest, rfl, toldForm, others⟩ := told_bind_ok told
        obtain ⟨data, last, more, ended, rfl, toldFields, concluded⟩ := told_bind_ok others
        obtain ⟨rfl, same⟩ := Program.told_done concluded
        cases same
        rw [List.append_nil]
        exact .cons names toldForm (ih toldFields)
      · rw [fails] at told
        exact absurd told not_told_throw_bind
    all_goals
      obtain ⟨_, same⟩ := Program.told_done told
      cases same

/-- The form `record` gathers what its fields come to. -/
theorem eval_record (line : Nat) (parts : List Sexp) :
    eval line (.list (.symbol "record" :: parts) none) =
      (evalFields line parts >>= fun data => pure (.record (Fields.ofPairs data))) := by
  rw [eval.eq_def]
  cases parts <;> rfl

/-- A record is what comes of the data that the fields come to, and nothing else does. -/
theorem told_record_iff {datum : Datum} :
    ((eval line (.list (.symbol "record" :: parts) none)).run.run locals).Told answers
        (.ok datum, left) ↔
      ∃ data, FieldsGive line locals parts answers data left ∧
        datum = .record (Fields.ofPairs data) := by
  rw [eval_record]
  constructor
  · intro told
    obtain ⟨data, between, begun, rest, rfl, toldFields, ended⟩ := told_bind_ok told
    obtain ⟨rfl, same⟩ := Program.told_done ended
    cases same
    rw [List.append_nil]
    exact ⟨data, fieldsGive_of_told toldFields, rfl⟩
  · rintro ⟨data, gives, rfl⟩
    rw [run_bind, ← List.append_nil answers]
    exact gives.told.bind (.done _)

/-- Named data that are exchanged have values under the same names. -/
theorem exchanged_eq_ok_iff {pairs : List (String × Value)} :
    exchanged data = .ok pairs ↔
      Fields.Matched (fun datum value => datum.toValue = .ok value) data pairs := by
  rw [← Datum.toPairs_eq_ok_iff]
  have same : exchanged data = Datum.toPairs data := by
    induction data with
    | nil => rfl
    | cons field data ih =>
      obtain ⟨name, datum⟩ := field
      rw [exchanged, List.mapM_cons, ← exchanged, ih, Datum.toPairs]
      dsimp only
      cases datum.toValue <;> rfl
  rw [same]

/-- The form `object` makes a shared record of the values of the data that its fields come to. -/
theorem told_object {pairs : List (String × Value)}
    (gives : FieldsGive line locals parts answers data left)
    (values : Fields.Matched (fun datum value => datum.toValue = .ok value) data pairs)
    (reference : Reference) :
    ((eval line (.list (.symbol "object" :: parts) none)).run.run locals).Told
      (answers ++ [⟨.allocate pairs, reference⟩]) (.ok (.foreign reference), left) := by
  have made : eval line (.list (.symbol "object" :: parts) none) =
      (evalFields line parts >>= fun data => ofOutcome (exchanged data) >>= fun pairs =>
        liftM (Program.allocate pairs) >>= fun reference => pure (.foreign reference)) := by
    rw [eval.eq_def]
    cases parts <;> rfl
  rw [made, run_bind]
  refine gives.told.bind ?_
  dsimp only
  rw [run_bind, run_ofOutcome, exchanged_eq_ok_iff.2 values]
  exact @Program.Told.ask _ (.allocate pairs) _ _ _ reference (.done _)

/-- The value of a record is gathered from the values of the data that it is gathered from. -/
theorem toValue_gathered {pairs : List (String × Value)}
    (values : Fields.Matched (fun datum value => datum.toValue = .ok value) data pairs) :
    (Datum.record (Fields.ofPairs data)).toValue = .ok (Value.recordOf pairs) := by
  refine Datum.toValue_record_iff.2 ⟨Fields.ofPairs pairs, values.ofPairs, ?_⟩
  rw [Value.recordOf, Value.recordOf, Fields.ofPairs_ofPairs]

end Forms

end Interchange
