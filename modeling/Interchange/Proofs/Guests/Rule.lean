import Interchange.Forms.Evaluation
import Interchange.Proofs.Guests.Plain

/-!
# Rules that evaluations of forms follow

Many properties of evaluations of forms need to be checked only for the ways in which evaluations
are put together: ending, failing, one after the other, seeing and defining locals, and asking the
exchange, all of it with data of certain kinds that forms do not lead out of (`Kinds`,
`Discipline`). Whatever a form says, evaluating it keeps such a discipline, if this lets the names
be bound and the locals be defined that are written in the form (`eval_disciplined`). A rule is a
discipline that does not look at data (`Rule`, `eval_follows`).
-/
namespace Interchange.Forms

namespace Sexp

/-- The name that a symbol or a string gives. -/
def name? : Sexp → Option String
  | symbol name => some name
  | string name => some name
  | _ => none

/-- The name that a form binds in the exchange, told by the parts of the form. -/
def exportedName? : List Sexp → Option String
  | symbol "export" :: name :: _ => name.name?
  | _ => none

mutual

/-- The names that are bound in the exchange by a form or by the forms inside it. -/
def exportNames : Sexp → List String
  | list items _ => (exportedName? items).toList ++ exportNamesOf items
  | vector items => exportNamesOf items
  | _ => []

/-- The names that are bound in the exchange by forms or by the forms inside them. -/
def exportNamesOf : List Sexp → List String
  | [] => []
  | form :: forms => form.exportNames ++ exportNamesOf forms

end

/-- Forms bind the names that each of them binds. -/
theorem mem_exportNamesOf {form : Sexp} {forms : List Sexp} {name : String} (mem : form ∈ forms)
    (binds : name ∈ form.exportNames) : name ∈ exportNamesOf forms := by
  induction forms with
  | nil => simp at mem
  | cons first rest ih =>
    rw [exportNamesOf]
    rcases List.mem_cons.1 mem with rfl | later
    · exact List.mem_append_left _ binds
    · exact List.mem_append_right _ (ih later)

/-- A list binds the names that its parts bind. -/
theorem mem_exportNames_list {form : Sexp} {items : List Sexp} {tail : Option Sexp} {name : String}
    (mem : form ∈ items) (binds : name ∈ form.exportNames) :
    name ∈ (list items tail).exportNames := by
  rw [exportNames]
  exact List.mem_append_right _ (mem_exportNamesOf mem binds)

/-- A form is another one or stands somewhere inside it. -/
inductive Inside : Sexp → Sexp → Prop where
  /-- It is that form. -/
  | self (form : Sexp) : Inside form form
  /-- It stands inside an element of a list. -/
  | list {form item : Sexp} {items : List Sexp} (tail : Option Sexp) (mem : item ∈ items)
      (inside : Inside form item) : Inside form (list items tail)
  /-- It stands inside an element of a vector. -/
  | vector {form item : Sexp} {items : List Sexp} (mem : item ∈ items)
      (inside : Inside form item) : Inside form (vector items)

/-- The local that a form defines or gives another value, told by the parts of the form. -/
def definedName? : List Sexp → Option String
  | [symbol "define", symbol name, _] => some name
  | [symbol "set!", symbol name, _] => some name
  | _ => none

/-- A local is defined or given another value by a form or by a form inside it. -/
def Defines (form : Sexp) (name : String) : Prop :=
  ∃ items tail, (list items tail).Inside form ∧ definedName? items = some name

/-- A list defines the locals that its parts define. -/
theorem Defines.list {form : Sexp} {items : List Sexp} {name : String} (defines : form.Defines name)
    (tail : Option Sexp) (mem : form ∈ items) : (list items tail).Defines name := by
  obtain ⟨parts, more, inside, gives⟩ := defines
  exact ⟨parts, more, .list tail mem inside, gives⟩

/-- What stands in a list is smaller than the list. -/
theorem sizeOf_lt_of_argument {form argument : Sexp} {arguments : List Sexp} {tail : Option Sexp}
    (mem : argument ∈ arguments) :
    sizeOf argument < sizeOf (Sexp.list (form :: arguments) tail) := by
  have smaller := List.sizeOf_lt_of_mem mem
  simp only [Sexp.list.sizeOf_spec, List.cons.sizeOf_spec]
  omega

end Sexp

open Fault Evaluation

/-- Kinds of data, of values and of shared objects that the form language does not lead out of. -/
structure Kinds where
  /-- Whether a datum is of the kind. -/
  data : Datum → Prop
  /-- Whether a value is of the kind. -/
  values : Value → Prop
  /-- Whether all shared objects are of the kind. -/
  heaps : Heap → Prop
  /-- Nil is. -/
  nil : data .nil
  /-- Truth values are. -/
  bool : ∀ b, data (.bool b)
  /-- Integers are. -/
  integer : ∀ n, data (.integer n)
  /-- Doubles are. -/
  float : ∀ x, data (.float x)
  /-- Strings are. -/
  string : ∀ s, data (.string s)
  /-- References are. -/
  foreign : ∀ target, data (.foreign target)
  /-- Lists of such data are. -/
  list : ∀ {items}, (∀ item ∈ items, data item) → data (.list items)
  /-- Records that are gathered from such data are. -/
  record : ∀ {fields}, (∀ field ∈ fields, data field.2) → data (.record (Fields.ofPairs fields))
  /-- The data of such values are. -/
  ofValue : ∀ {value}, values value → data (.ofValue value)
  /-- The values of such data are. -/
  toValue : ∀ {datum}, data datum → ComesTo values datum.toValue
  /-- Their fields are. -/
  field : ∀ {datum heap}, data datum → heaps heap → ∀ name, ComesTo data (datum.field heap name)
  /-- Their items are. -/
  nth : ∀ {datum heap}, data datum → heaps heap → ∀ position, ComesTo data (datum.nth heap position)

namespace Kinds

variable (kinds : Kinds)

/-- All locals are of the kind. -/
def locals (locals : Fields Datum) : Prop := ∀ entry ∈ locals, kinds.data entry.2

/-- Fields of fields are. -/
theorem fieldPath {heap : Heap} (shared : kinds.heaps heap) (names : List (List Char))
    {datum : Datum} (given : kinds.data datum) :
    ComesTo kinds.data (fieldPath heap names datum) := by
  induction names generalizing datum with
  | nil => exact comesTo_ok given
  | cons name names ih => exact (kinds.field given shared (String.ofList name)).bind fun _ => ih

/-- What is added up is, since that is no list and no record. -/
theorem addOperand (sum operand : Datum) : ComesTo kinds.data (addOperand sum operand) := by
  unfold Forms.addOperand
  split
  · exact comesTo_ok (kinds.integer _)
  · exact comesTo_ok (kinds.float _)
  · exact comesTo_ok (kinds.string _)
  · split
    · split
      · exact comesTo_ok (kinds.float _)
      · exact comesTo_error _
    · split
      · exact comesTo_ok (kinds.string _)
      · exact comesTo_error _
    · exact comesTo_error _

/-- So are sums. -/
theorem sum (operands : List Datum) : ComesTo kinds.data (sum operands) :=
  comesTo_foldlM (fun state operand _ => kinds.addOperand state operand) (kinds.integer _) operands

/-- Data are exchanged for values. -/
theorem toValues {data : List Datum} (given : ∀ datum ∈ data, kinds.data datum) :
    ComesTo (fun values => ∀ value ∈ values, kinds.values value) (data.mapM Datum.toValue) :=
  comesTo_mapM fun datum mem => kinds.toValue (given datum mem)

/-- Named data are exchanged for named values. -/
theorem exchanged {data : List (String × Datum)} (given : ∀ field ∈ data, kinds.data field.2) :
    ComesTo (fun pairs => ∀ pair ∈ pairs, kinds.values pair.2) (exchanged data) :=
  comesTo_mapM fun field mem => (kinds.toValue (given field mem)).bind fun _ right =>
    comesTo_ok right

end Kinds

/-- A property of evaluations that come to something of a kind. It follows from their being put
together in the ways in which evaluations of forms are, of data of the given kinds, and with no
other names bound and no other locals defined than those given. -/
structure Discipline (kinds : Kinds) where
  /-- Whether an evaluation keeps the discipline and comes to something of a kind. -/
  keeps : {α : Type} → (α → Prop) → Evaluation α → Prop
  /-- The names that may be bound. -/
  binds : String → Prop
  /-- The locals that may be defined. -/
  defines : String → Prop
  /-- Ending. -/
  pure : ∀ {α : Type} {kind : α → Prop} {value : α}, kind value → keeps kind (pure value)
  /-- Failing in a plain way. -/
  fail : ∀ {α : Type} {kind : α → Prop} {trouble : Trouble}, trouble.fault.IsPlain →
    keeps kind (throw trouble : Evaluation α)
  /-- One after the other. -/
  bind : ∀ {α β : Type} {kind : α → Prop} {last : β → Prop} {first : Evaluation α}
    {next : α → Evaluation β}, keeps kind first → (∀ value, kind value → keeps last (next value)) →
    keeps last (first >>= next)
  /-- Seeing the locals. -/
  get : keeps kinds.locals (get : Evaluation (Fields Datum))
  /-- Defining a local. -/
  define : ∀ {name datum}, defines name → kinds.data datum →
    keeps (fun _ => True) (define name datum)
  /-- Seeing the shared objects. -/
  inspect : keeps kinds.heaps (liftM Program.inspect : Evaluation Heap)
  /-- Making a shared record. -/
  allocate : ∀ {pairs : List (String × Value)}, (∀ pair ∈ pairs, kinds.values pair.2) →
    keeps (fun _ => True) (liftM (Program.allocate pairs) : Evaluation Reference)
  /-- Binding a name to a value. -/
  exportValue : ∀ {name value}, binds name → kinds.values value → ∀ line,
    keeps (fun _ => True) (liftM (Program.exportValue name value line) : Evaluation Unit)
  /-- Setting a field of a shared object. -/
  setField : ∀ target name {value}, kinds.values value →
    keeps (fun _ => True) (request (Program.setField target name value))
  /-- Calling a function. -/
  call : ∀ function {arguments : List Value}, (∀ argument ∈ arguments, kinds.values argument) →
    keeps kinds.values (request (Program.call function arguments))
  /-- Looking a name up. -/
  importName : ∀ name line, keeps kinds.values (request (Program.importName name line))
  /-- Evaluating a source. -/
  eval : ∀ language path line,
    keeps (fun _ => True) (request (Program.eval language path line))
  /-- Printing a line. -/
  print : ∀ line, keeps (fun _ => True) (request (Program.print line))

section Disciplines

variable {kinds : Kinds} {discipline : Discipline kinds} {α β : Type} {kind : α → Prop}

/-- An outcome that is no fault or a plain one keeps every discipline. -/
theorem Discipline.ofOutcome {outcome : Except Fault α} (plain : Plainly outcome)
    (comes : ComesTo kind outcome) : discipline.keeps kind (ofOutcome outcome) := by
  cases outcome with
  | ok value => exact discipline.pure (comes value rfl)
  | error fault => exact discipline.fail (plain fault rfl)

/-- A form that stands where it must not is a plain fault. -/
theorem misplaced : Trouble.unexpectedValueType.fault.IsPlain := trivial

/-- The name that a symbol gives. -/
theorem symbolName_keeps (form : Sexp) :
    discipline.keeps (fun name => form = .symbol name) (symbolName form) := by
  unfold symbolName
  split
  · exact discipline.pure rfl
  · exact discipline.fail misplaced

/-- The name that a symbol or a string gives. -/
theorem nameOf_keeps (form : Sexp) :
    discipline.keeps (fun name => form.name? = some name) (nameOf form) := by
  unfold nameOf
  split
  · exact discipline.pure rfl
  · exact discipline.pure rfl
  · exact discipline.fail misplaced

/-- Looking a symbol up. -/
theorem lookup_keeps (name : String) : discipline.keeps kinds.data (lookup name) := by
  unfold lookup
  split
  · exact discipline.pure kinds.nil
  · refine discipline.bind discipline.get fun locals held => ?_
    split
    · rename_i datum found
      exact discipline.pure (held _ (Fields.mem_of_find? found))
    · split
      · split
        · rename_i datum found
          have given : kinds.data datum := held _ (Fields.mem_of_find? found)
          exact discipline.bind discipline.inspect fun heap shared =>
            Discipline.ofOutcome (plainly_fieldPath heap _ _) (kinds.fieldPath shared _ given)
        · exact discipline.fail trivial
      · exact discipline.fail trivial

variable {line : Nat}

/-- Evaluating forms in order keeps a discipline if evaluating each of them does. -/
theorem evalAll_keeps {forms : List Sexp}
    (each : ∀ form ∈ forms, discipline.keeps kinds.data (eval line form)) :
    discipline.keeps (fun data => ∀ datum ∈ data, kinds.data datum) (evalAll line forms) := by
  induction forms with
  | nil => exact discipline.pure fun datum mem => absurd mem List.not_mem_nil
  | cons form forms ih =>
    obtain ⟨first, later⟩ := List.forall_mem_cons.1 each
    exact discipline.bind first fun datum given => discipline.bind (ih later) fun data others =>
      discipline.pure (List.forall_mem_cons.2 ⟨given, others⟩)

/-- Evaluating forms for the last value keeps a discipline if evaluating each of them does. -/
theorem evalLast_keeps {last : Datum} (right : kinds.data last) {forms : List Sexp}
    (each : ∀ form ∈ forms, discipline.keeps kinds.data (eval line form)) :
    discipline.keeps kinds.data (evalLast line last forms) := by
  induction forms generalizing last with
  | nil => exact discipline.pure right
  | cons form forms ih =>
    obtain ⟨first, later⟩ := List.forall_mem_cons.1 each
    exact discipline.bind first fun datum given => ih given later

/-- Evaluating fields keeps a discipline if evaluating everything inside them does. -/
theorem evalFields_keeps {fields : List Sexp}
    (each : ∀ name value tail, .list [name, value] tail ∈ fields →
      discipline.keeps kinds.data (eval line value)) :
    discipline.keeps (fun data => ∀ field ∈ data, kinds.data field.2) (evalFields line fields) := by
  induction fields with
  | nil => exact discipline.pure fun field mem => absurd mem List.not_mem_nil
  | cons field fields ih =>
    have later := ih fun name value tail mem => each name value tail (List.mem_cons_of_mem _ mem)
    rw [evalFields.eq_def]
    split
    · exact discipline.pure fun field mem => absurd mem List.not_mem_nil
    · rename_i name value tail others same
      obtain ⟨rfl, rfl⟩ := List.cons.inj same
      have inside := each name value tail List.mem_cons_self
      exact discipline.bind (nameOf_keeps name) fun name _ =>
        discipline.bind inside fun datum given => discipline.bind later fun data others =>
          discipline.pure (List.forall_mem_cons.2 ⟨given, others⟩)
    · exact discipline.fail trivial
    · exact discipline.fail trivial
    · exact discipline.fail trivial

/-- Refusing the parts of a form. -/
theorem refusedParts_keeps (improper : Bool) :
    discipline.keeps kind (throw (if improper then .unexpectedValueType else .wrongParamSize) :
      Evaluation α) := by
  refine discipline.fail ?_
  split <;> trivial

/-- Refusing something before going on keeps a discipline if going on does. -/
theorem refused_keeps {trouble : Trouble} (plain : trouble.fault.IsPlain) {refused : Prop}
    [Decidable refused] {evaluation : Evaluation α} (keeps : discipline.keeps kind evaluation) :
    discipline.keeps kind (if refused then do throw trouble; evaluation
      else evaluation : Evaluation α) := by
  split
  · have fails : discipline.keeps (fun _ => True) (throw trouble : Evaluation PUnit) :=
      discipline.fail plain
    exact discipline.bind fails fun _ _ => keeps
  · exact keeps

/-- Exporting keeps a discipline that lets the name be bound. -/
theorem export_keeps {name : String} (binds : discipline.binds name) {datum : Datum}
    (given : kinds.data datum) (line : Nat) :
    discipline.keeps kinds.data (do
      let value ← ofOutcome datum.toValue
      liftM (Program.exportValue name value (some line))
      return .nil : Evaluation Datum) := by
  have exchanged : discipline.keeps kinds.values (ofOutcome datum.toValue) :=
    Discipline.ofOutcome datum.plainly_toValue (kinds.toValue given)
  exact discipline.bind exchanged fun value right =>
    discipline.bind (discipline.exportValue binds right (some line)) fun _ _ =>
      discipline.pure kinds.nil

/-- Calling a function keeps every discipline. -/
theorem call_keeps (data : List Datum) : (∀ datum ∈ data, kinds.data datum) →
    discipline.keeps kinds.data (match data with
      | [] => throw .wrongParamSize
      | .foreign function :: data => do
        let values ← ofOutcome (data.mapM Datum.toValue)
        return .ofValue (← request (Program.call function values))
      | other :: _ => throw (.exchange (.notCallable other.typeName)) :
      Evaluation Datum) := by
  intro given
  split
  · exact discipline.fail trivial
  · rename_i function data
    obtain ⟨_, others⟩ := List.forall_mem_cons.1 given
    have exchanged : discipline.keeps (fun values => ∀ value ∈ values, kinds.values value)
        (ofOutcome (data.mapM Datum.toValue)) :=
      Discipline.ofOutcome (plainly_mapM Datum.plainly_toValue data) (kinds.toValues others)
    exact discipline.bind exchanged fun values right =>
      discipline.bind (discipline.call function right) fun value answered =>
        discipline.pure (kinds.ofValue answered)
  · exact discipline.fail trivial

/-- A form of the language keeps a discipline that lets its own name be bound and its own local be
defined if the forms inside it do. -/
theorem evalForm_keeps {head : String} {arguments : List Sexp} (tail : Option Sexp)
    (binds : ∀ name, Sexp.exportedName? (.symbol head :: arguments) = some name →
      discipline.binds name)
    (defines : ∀ name, Sexp.definedName? (.symbol head :: arguments) = some name →
      discipline.defines name)
    (inside : ∀ argument ∈ arguments, discipline.keeps kinds.data (eval line argument))
    (insideFields : ∀ name value tail, .list [name, value] tail ∈ arguments →
      discipline.keeps kinds.data (eval line value)) :
    discipline.keeps kinds.data (eval line (.list (.symbol head :: arguments) tail)) := by
  have ends : discipline.keeps kinds.data (pure .nil : Evaluation Datum) :=
    discipline.pure kinds.nil
  rw [eval.eq_def]
  dsimp only
  split
  · -- define
    split
    · rename_i form value
      refine discipline.bind (symbolName_keeps form) fun name same => ?_
      subst same
      exact discipline.bind (inside value (by simp)) fun datum given =>
        discipline.bind (discipline.define (defines name rfl) given) fun _ _ => ends
    · exact refusedParts_keeps _
  · -- set!
    split
    · rename_i form value
      refine discipline.bind (symbolName_keeps form) fun name same => ?_
      subst same
      have unbound : (Trouble.unboundVariable name).fault.IsPlain := trivial
      refine discipline.bind discipline.get fun locals _ => refused_keeps unbound ?_
      exact discipline.bind (inside value (by simp)) fun datum given =>
        discipline.bind (discipline.define (defines name rfl) given) fun _ _ => ends
    · exact refusedParts_keeps _
  · -- begin
    exact refused_keeps misplaced (evalLast_keeps kinds.nil inside)
  · -- export
    split
    · rename_i form
      refine discipline.bind (symbolName_keeps form) fun name same => ?_
      subst same
      exact discipline.bind (lookup_keeps name) fun datum given =>
        export_keeps (binds name rfl) given line
    · rename_i form value
      exact discipline.bind (nameOf_keeps form) fun name gives =>
        discipline.bind (inside value (by simp)) fun datum given =>
          export_keeps (binds name gives) given line
    · exact refusedParts_keeps _
  · -- import
    split
    · rename_i form
      exact discipline.bind (nameOf_keeps form) fun name _ =>
        discipline.bind (discipline.importName name (some line)) fun value answered =>
          discipline.pure (kinds.ofValue answered)
    · exact refusedParts_keeps _
  · -- eval
    split
    · rename_i form path
      refine discipline.bind (nameOf_keeps form) fun language _ =>
        discipline.bind (inside path (by simp)) fun datum _ => ?_
      have read : discipline.keeps (fun _ => True) (ofOutcome (stringOf datum)) :=
        Discipline.ofOutcome (plainly_stringOf datum) (comesTo_any _)
      exact discipline.bind read fun path _ =>
        discipline.bind (discipline.eval language path (some line)) fun _ _ => ends
    · exact refusedParts_keeps _
  · -- print
    exact refused_keeps misplaced (discipline.bind (evalAll_keeps inside) fun data _ =>
      discipline.bind (discipline.print _) fun _ _ => ends)
  · -- list
    exact refused_keeps misplaced (discipline.bind (evalAll_keeps inside) fun data given =>
      discipline.pure (kinds.list given))
  · -- record
    exact refused_keeps misplaced (discipline.bind (evalFields_keeps insideFields)
      fun fields given => discipline.pure (kinds.record given))
  · -- object
    refine refused_keeps misplaced (discipline.bind (evalFields_keeps insideFields)
      fun fields given => ?_)
    have exchanges : discipline.keeps (fun pairs => ∀ pair ∈ pairs, kinds.values pair.2)
        (ofOutcome (exchanged fields)) :=
      Discipline.ofOutcome (plainly_exchanged fields) (kinds.exchanged given)
    exact discipline.bind exchanges fun pairs right =>
      discipline.bind (discipline.allocate right) fun reference _ =>
        discipline.pure (kinds.foreign reference)
  · -- get
    split
    · rename_i target field
      exact discipline.bind (inside target (by simp)) fun datum given =>
        discipline.bind (nameOf_keeps field) fun name _ =>
          discipline.bind discipline.inspect fun heap shared =>
            Discipline.ofOutcome (datum.plainly_field heap name) (kinds.field given shared name)
    · exact refusedParts_keeps _
  · -- nth
    split
    · rename_i target position
      refine discipline.bind (inside target (by simp)) fun datum given =>
        discipline.bind (inside position (by simp)) fun index _ => ?_
      have read : discipline.keeps (fun _ => True) (ofOutcome (positionOf index)) :=
        Discipline.ofOutcome (plainly_positionOf index) (comesTo_any _)
      exact discipline.bind read fun index _ =>
        discipline.bind discipline.inspect fun heap shared =>
          Discipline.ofOutcome (datum.plainly_nth heap index) (kinds.nth given shared index)
    · exact refusedParts_keeps _
  · -- length
    split
    · rename_i target
      refine discipline.bind (inside target (by simp)) fun datum _ =>
        discipline.bind discipline.inspect fun heap _ => ?_
      have read : discipline.keeps (fun _ => True) (ofOutcome (datum.length heap)) :=
        Discipline.ofOutcome (datum.plainly_length heap) (comesTo_any _)
      exact discipline.bind read fun length _ => discipline.pure (kinds.integer _)
    · exact refusedParts_keeps _
  · -- set-field!
    split
    · rename_i target field value
      refine discipline.bind (inside target (by simp)) fun datum _ => ?_
      split
      · rename_i reference _
        refine discipline.bind (inside value (by simp)) fun datum given => ?_
        have exchanges : discipline.keeps kinds.values (ofOutcome datum.toValue) :=
          Discipline.ofOutcome datum.plainly_toValue (kinds.toValue given)
        exact discipline.bind exchanges fun value right =>
          discipline.bind (nameOf_keeps field) fun name _ =>
            discipline.bind (discipline.setField reference name right) fun _ _ => ends
      · exact discipline.fail trivial
    · exact refusedParts_keeps _
  · -- call
    exact refused_keeps misplaced (discipline.bind (evalAll_keeps inside) fun data given =>
      call_keeps data given)
  · -- +
    exact refused_keeps misplaced (discipline.bind (evalAll_keeps inside) fun data _ =>
      Discipline.ofOutcome (plainly_sum data) (kinds.sum data))
  · exact discipline.fail trivial

end Disciplines

/-- Every form keeps a discipline that lets the names be bound and the locals be defined that are
written in it, and comes to a datum of its kind. -/
theorem eval_disciplined {kinds : Kinds} (discipline : Discipline kinds) (line : Nat) {form : Sexp}
    (binds : ∀ name ∈ form.exportNames, discipline.binds name)
    (defines : ∀ name, form.Defines name → discipline.defines name) :
    discipline.keeps kinds.data (eval line form) := by
  induction size : sizeOf form using Nat.strongRecOn generalizing form with
  | ind n smaller =>
    subst size
    cases form with
    | list items tail =>
      rcases items with _ | ⟨_ | _ | _ | _ | _ | head | _ | _ | _, arguments⟩
      case cons.symbol =>
        have argumentBinds : ∀ argument ∈ arguments, ∀ name ∈ argument.exportNames,
            discipline.binds name := fun argument mem name written =>
          binds name (Sexp.mem_exportNames_list (List.mem_cons_of_mem _ mem) written)
        have argumentDefines : ∀ argument ∈ arguments, ∀ name, argument.Defines name →
            discipline.defines name := fun argument mem name written =>
          defines name (written.list tail (List.mem_cons_of_mem _ mem))
        refine evalForm_keeps tail (fun name gives => binds name ?_)
          (fun name gives => defines name ⟨_, tail, .self _, gives⟩) (fun argument mem => ?_)
          fun name value more mem => ?_
        · rw [Sexp.exportNames, gives]
          exact List.mem_append_left _ (List.mem_singleton_self name)
        · exact smaller _ (Sexp.sizeOf_lt_of_argument mem) (argumentBinds argument mem)
            (argumentDefines argument mem) rfl
        · have inner : _ < sizeOf (Sexp.list (.symbol head :: arguments) tail) :=
            Sexp.sizeOf_lt_of_argument mem
          have inField : value ∈ [name, value] := by simp
          refine smaller _ (Nat.lt_trans ?_ inner)
            (fun other written =>
              argumentBinds _ mem other (Sexp.mem_exportNames_list inField written))
            (fun other written => argumentDefines _ mem other (written.list more inField)) rfl
          exact Sexp.sizeOf_lt_of_argument (List.mem_singleton_self value)
      all_goals exact discipline.fail trivial
    | vector items =>
      refine discipline.bind (evalAll_keeps fun form mem => ?_) fun data given =>
        discipline.pure (kinds.list given)
      have inner := List.sizeOf_lt_of_mem mem
      refine smaller _ (by simp only [Sexp.vector.sizeOf_spec]; omega) (fun name written => ?_)
        (fun name written => ?_) rfl
      · exact binds name (by rw [Sexp.exportNames]; exact Sexp.mem_exportNamesOf mem written)
      · obtain ⟨parts, more, inside, gives⟩ := written
        exact defines name ⟨parts, more, .vector mem inside, gives⟩
    | symbol name => exact lookup_keeps name
    | other => exact discipline.fail trivial
    | empty isList => exact discipline.pure kinds.nil
    | bool b => exact discipline.pure (kinds.bool b)
    | integer n => exact discipline.pure (kinds.integer n)
    | float x => exact discipline.pure (kinds.float x)
    | string s => exact discipline.pure (kinds.string s)

/-- Forms one after the other keep a discipline if each of them does. -/
theorem evalUnit_disciplined {kinds : Kinds} {discipline : Discipline kinds}
    {forms : List (Nat × Sexp)}
    (each : ∀ form ∈ forms, discipline.keeps kinds.data (eval form.1 form.2)) :
    discipline.keeps (fun _ => True) (evalUnit forms) := by
  induction forms with
  | nil => exact discipline.pure trivial
  | cons form forms ih =>
    obtain ⟨first, later⟩ := List.forall_mem_cons.1 each
    exact discipline.bind first fun _ _ => ih later

/-- Forms one after the other keep a discipline if each of them does, also if what comes after them
cannot be read. -/
theorem evalRead_disciplined {kinds : Kinds} {discipline : Discipline kinds}
    {forms : List (Nat × Sexp)}
    (each : ∀ form ∈ forms, discipline.keeps kinds.data (eval form.1 form.2))
    (unread : Option Reader.ReadFault) :
    discipline.keeps (fun _ => True) (do
      evalUnit forms
      match unread with
      | some fault => throw (.reading fault)
      | none => return : Evaluation Unit) := by
  refine discipline.bind (evalUnit_disciplined each) fun _ _ => ?_
  split
  · exact discipline.fail trivial
  · exact discipline.pure trivial

/-- All data, all values and all shared objects. -/
def Kinds.any : Kinds where
  data _ := True
  values _ := True
  heaps _ := True
  nil := trivial
  bool _ := trivial
  integer _ := trivial
  float _ := trivial
  string _ := trivial
  foreign _ := trivial
  list _ := trivial
  record _ := trivial
  ofValue _ := trivial
  toValue _ := comesTo_any _
  field _ _ _ := comesTo_any _
  nth _ _ _ := comesTo_any _

/-- A property of evaluations that follows from their being put together in the ways in which
evaluations of forms are, with no other names bound and no other locals defined than those given. -/
structure Rule where
  /-- Whether an evaluation follows the rule. -/
  follows : {α : Type} → Evaluation α → Prop
  /-- The names that may be bound. -/
  binds : String → Prop
  /-- The locals that may be defined. -/
  defines : String → Prop
  /-- Ending. -/
  pure : ∀ {α : Type} (value : α), follows (pure value)
  /-- Failing in a plain way. -/
  fail : ∀ {α : Type} {trouble : Trouble}, trouble.fault.IsPlain →
    follows (throw trouble : Evaluation α)
  /-- One after the other. -/
  bind : ∀ {α β : Type} {first : Evaluation α} {next : α → Evaluation β}, follows first →
    (∀ value, follows (next value)) → follows (first >>= next)
  /-- Seeing the locals. -/
  get : follows (get : Evaluation (Fields Datum))
  /-- Defining a local. -/
  define : ∀ {name : String}, defines name → ∀ datum, follows (define name datum)
  /-- Seeing the shared objects. -/
  inspect : follows (liftM Program.inspect : Evaluation Heap)
  /-- Making a shared record. -/
  allocate : ∀ pairs, follows (liftM (Program.allocate pairs) : Evaluation Reference)
  /-- Binding a name to a value. -/
  exportValue : ∀ {name : String}, binds name → ∀ value line,
    follows (liftM (Program.exportValue name value line) : Evaluation Unit)
  /-- Setting a field of a shared object. -/
  setField : ∀ target name value, follows (request (Program.setField target name value))
  /-- Calling a function. -/
  call : ∀ function arguments, follows (request (Program.call function arguments))
  /-- Looking a name up. -/
  importName : ∀ name line, follows (request (Program.importName name line))
  /-- Evaluating a source. -/
  eval : ∀ language path line, follows (request (Program.eval language path line))
  /-- Printing a line. -/
  print : ∀ line, follows (request (Program.print line))

namespace Rule

variable (rule : Rule)

/-- A rule as a discipline: whatever follows the rule for all that an evaluation can come to, the
two one after the other follow it. -/
def discipline : Discipline .any where
  keeps {α} kind evaluation := ∀ (β : Type) (next : α → Evaluation β),
    (∀ value, kind value → rule.follows (next value)) → rule.follows (evaluation >>= next)
  binds := rule.binds
  defines := rule.defines
  pure right _ next rest := by
    rw [pure_bind]
    exact rest _ right
  fail plain _ next _ := rule.fail plain
  bind first others _ next rest := by
    rw [bind_assoc]
    exact first _ _ fun value right => others value right _ next rest
  get _ next rest := rule.bind rule.get fun locals => rest locals fun _ _ => trivial
  define defines _ _ next rest := rule.bind (rule.define defines _) fun _ => rest _ trivial
  inspect _ next rest := rule.bind rule.inspect fun heap => rest heap trivial
  allocate _ _ next rest := rule.bind (rule.allocate _) fun reference => rest reference trivial
  exportValue binds _ line _ next rest :=
    rule.bind (rule.exportValue binds _ line) fun _ => rest _ trivial
  setField target name _ _ _ next rest :=
    rule.bind (rule.setField target name _) fun _ => rest _ trivial
  call function _ _ _ next rest := rule.bind (rule.call function _) fun value => rest value trivial
  importName name line _ next rest :=
    rule.bind (rule.importName name line) fun value => rest value trivial
  eval language path line _ next rest :=
    rule.bind (rule.eval language path line) fun child => rest child trivial
  print line _ next rest := rule.bind (rule.print line) fun _ => rest _ trivial

variable {rule}

/-- What keeps the discipline follows the rule. -/
theorem follows_of_keeps {α : Type} {kind : α → Prop} {evaluation : Evaluation α}
    (keeps : rule.discipline.keeps kind evaluation) : rule.follows evaluation := by
  have ended := keeps α Pure.pure fun value _ => rule.pure value
  rwa [bind_pure] at ended

end Rule

/-- Every form follows a rule that lets the names be bound and the locals be defined that are
written in it. -/
theorem eval_follows (rule : Rule) (line : Nat) {form : Sexp}
    (binds : ∀ name ∈ form.exportNames, rule.binds name)
    (defines : ∀ name, form.Defines name → rule.defines name) :
    rule.follows (eval line form) :=
  Rule.follows_of_keeps (eval_disciplined rule.discipline line binds defines)

/-- Forms one after the other follow a rule if each of them does, also if what comes after them
cannot be read. -/
theorem evalRead_follows (rule : Rule) (forms : List (Nat × Sexp))
    (each : ∀ form ∈ forms, rule.follows (eval form.1 form.2)) (unread : Option Reader.ReadFault) :
    rule.follows (do
      evalUnit forms
      match unread with
      | some fault => throw (.reading fault)
      | none => return : Evaluation Unit) := by
  have kept : ∀ form ∈ forms, rule.discipline.keeps Kinds.any.data (eval form.1 form.2) :=
    fun form mem _ _ rest => rule.bind (each form mem) fun datum => rest datum trivial
  exact Rule.follows_of_keeps (evalRead_disciplined kept unread)

end Interchange.Forms
