import Interchange.Proofs.Guests.Locals
import Interchange.Proofs.Value.Native
import Mathlib.Algebra.Ring.Int.Defs

/-!
# Sums of data

What `+` comes to in the form language. Operands of one type have a sum (`Forms.SumOf`): integers
are added exactly, doubles from left to right, and strings are joined. Other operands have none,
and their types do not match (`Forms.sum_cases`). The law has one exception: the sum starts as
the integer zero, which takes an operand of any type, and a partial sum that is zero is taken for
one that has just started. Integers in front that cancel out are therefore forgotten when a
double or a string follows them (`Forms.sum_of_cancelled`).
-/
namespace Interchange

namespace Integer

/-- Integers added one after the other come to the sum of their numbers. -/
theorem foldl_add (start : Integer) (ns : List Integer) :
    ns.foldl (· + ·) start = ofInt (start.toInt + (ns.map toInt).sum) := by
  induction ns generalizing start with
  | nil => rw [List.foldl_nil, List.map_nil, List.sum_nil, Int.add_zero, ofInt_toInt]
  | cons n ns ih =>
    rw [List.foldl_cons, ih, add_eq, toInt_ofInt, List.map_cons, List.sum_cons, Int.add_assoc]

/-- An integer is zero exactly if its number is. -/
theorem eq_zero_iff (n : Integer) : n = zero ↔ n.toInt = 0 := by
  have nothing : zero.toInt = 0 := rfl
  rw [← toInt_inj, nothing]

end Integer

namespace Forms

open Evaluation

/-- The types of two operands do not match. -/
def Mismatches (outcome : Except Fault Datum) : Prop :=
  ∃ expected found, outcome = .error (.typeMismatch expected found)

/-- The sum of data of one type. -/
inductive SumOf : List Datum → Datum → Prop where
  /-- Integers have the sum of their numbers; without operands that is zero. -/
  | integers (ns : List Integer) :
      SumOf (ns.map .integer) (.integer (Integer.ofInt (ns.map Integer.toInt).sum))
  /-- Doubles are added from left to right. -/
  | floats (x : Double) (xs : List Double) :
      SumOf ((x :: xs).map .float) (.float (xs.foldl (· + ·) x))
  /-- Strings are joined. -/
  | strings (s : String) (ss : List String) :
      SumOf ((s :: ss).map .string) (.string (String.join (s :: ss)))

/-- What takes the place of the integer zero in a sum: a double or a string. -/
inductive Displaces : Datum → Prop where
  /-- A double. -/
  | float (x : Double) : Displaces (.float x)
  /-- A string. -/
  | string (s : String) : Displaces (.string s)

/-- Integers come first that cancel out, at least one of them, and then a double or a string. -/
def Cancels (operands : List Datum) : Prop :=
  ∃ (ns : List Integer) (first : Datum) (rest : List Datum),
    operands = ns.map .integer ++ first :: rest ∧ ns ≠ [] ∧
    (ns.map Integer.toInt).sum = 0 ∧ Displaces first

section OneType

variable {α : Type} {wrap : α → Datum} {join : α → α → α}

/-- Any list begins with data of one type, and then comes a datum of another type or nothing. -/
theorem exists_front (wrap : α → Datum) (operands : List Datum) :
    ∃ (front : List α) (rest : List Datum), operands = front.map wrap ++ rest ∧
      ∀ other later, rest = other :: later → ∀ a, other ≠ wrap a := by
  induction operands with
  | nil => exact ⟨[], [], rfl, fun other later impossible => by cases impossible⟩
  | cons operand operands ih =>
    by_cases same : ∃ a, operand = wrap a
    · obtain ⟨a, rfl⟩ := same
      obtain ⟨front, rest, rfl, differs⟩ := ih
      exact ⟨a :: front, rest, rfl, differs⟩
    · refine ⟨[], operand :: operands, rfl, fun other later here a equal => ?_⟩
      obtain ⟨rfl, _⟩ := List.cons.inj here
      exact same ⟨a, equal⟩

/-- Data of one type that can be added are added to a sum of that type. -/
theorem foldlM_wrapped (joins : ∀ a b, addOperand (wrap a) (wrap b) = .ok (wrap (join a b)))
    (start : α) (front : List α) (rest : List Datum) :
    (front.map wrap ++ rest).foldlM addOperand (wrap start) =
      rest.foldlM addOperand (wrap (front.foldl join start)) := by
  induction front generalizing start with
  | nil => rfl
  | cons a front ih =>
    rw [List.map_cons, List.cons_append, List.foldlM_cons, joins, List.foldl_cons]
    exact ih (join start a)

/-- To a sum whose type takes no other, data are added if they are all of that type, or the types
do not match. -/
theorem foldlM_strict (joins : ∀ a b, addOperand (wrap a) (wrap b) = .ok (wrap (join a b)))
    (refuses : ∀ a operand, (∀ b, operand ≠ wrap b) → Mismatches (addOperand (wrap a) operand))
    (start : α) (operands : List Datum) :
    (∃ front : List α, operands = front.map wrap ∧
      operands.foldlM addOperand (wrap start) = .ok (wrap (front.foldl join start))) ∨
    Mismatches (operands.foldlM addOperand (wrap start)) := by
  obtain ⟨front, rest, rfl, differs⟩ := exists_front wrap operands
  have begun := foldlM_wrapped joins start front rest
  cases rest with
  | nil =>
    rw [List.append_nil] at begun ⊢
    exact .inl ⟨front, rfl, begun⟩
  | cons other later =>
    obtain ⟨expected, found, refused⟩ := refuses (front.foldl join start) other (differs _ _ rfl)
    rw [begun, List.foldlM_cons, refused]
    exact .inr ⟨expected, found, rfl⟩

end OneType

/-- A double can only be added to a double. -/
theorem float_refuses (x : Double) (operand : Datum) (differs : ∀ y, operand ≠ .float y) :
    Mismatches (addOperand (.float x) operand) := by
  cases operand with
  | float y => exact absurd rfl (differs y)
  | _ => exact ⟨_, _, rfl⟩

/-- A string can only be joined to a string. -/
theorem string_refuses (s : String) (operand : Datum) (differs : ∀ t, operand ≠ .string t) :
    Mismatches (addOperand (.string s) operand) := by
  cases operand with
  | string t => exact absurd rfl (differs t)
  | _ => exact ⟨_, _, rfl⟩

/-- An integer takes the place of no operand of another type unless it is zero. -/
theorem integer_refuses (n : Integer) (operand : Datum) (differs : ∀ m, operand ≠ .integer m)
    (strict : n.toInt ≠ 0 ∨ ¬ Displaces operand) :
    Mismatches (addOperand (.integer n) operand) := by
  have passes (nothing : n.toInt ≠ 0) : isZero (.integer n) = false := by
    rw [isZero, beq_eq_false_iff_ne]
    exact fun zero => nothing ((Integer.eq_zero_iff n).1 zero)
  cases operand with
  | integer m => exact absurd rfl (differs m)
  | float x =>
    have nonzero := strict.resolve_right fun stays => stays (.float x)
    simp only [addOperand, passes nonzero]
    exact ⟨_, _, rfl⟩
  | string s =>
    have nonzero := strict.resolve_right fun stays => stays (.string s)
    simp only [addOperand, passes nonzero]
    exact ⟨_, _, rfl⟩
  | _ => exact ⟨_, _, rfl⟩

/-- Zero gives way to a double and to a string. -/
theorem Displaces.addOperand_zero {operand : Datum} (displaces : Displaces operand) :
    addOperand (.integer Integer.zero) operand = .ok operand := by
  cases displaces <;> rfl

/-- A sum goes on from the first operand if that takes the place of zero. -/
theorem Displaces.sum_cons {first : Datum} (displaces : Displaces first) (rest : List Datum) :
    sum (first :: rest) = rest.foldlM addOperand first := by
  rw [sum, List.foldlM_cons, displaces.addOperand_zero]
  rfl

/-- Integers are added before what follows them. -/
theorem sum_integers (ns : List Integer) (rest : List Datum) :
    sum (ns.map .integer ++ rest) =
      rest.foldlM addOperand (.integer (Integer.ofInt (ns.map Integer.toInt).sum)) := by
  have joins (a b : Integer) : addOperand (.integer a) (.integer b) = .ok (.integer (a + b)) := rfl
  have added := foldlM_wrapped joins Integer.zero ns rest
  have start : Integer.zero.toInt = 0 := rfl
  rwa [Integer.foldl_add, start, Int.zero_add] at added

/-- Integers that cancel out are forgotten when a double or a string follows. -/
theorem sum_of_cancelled {ns : List Integer} {first : Datum} (rest : List Datum)
    (cancel : (ns.map Integer.toInt).sum = 0) :
    sum (ns.map .integer ++ first :: rest) = sum (first :: rest) := by
  have zero : Integer.ofInt 0 = Integer.zero := rfl
  rw [sum_integers, cancel, zero]
  rfl

/-- A sum that the types decide is what the operands come to. -/
theorem SumOf.sum_eq {operands : List Datum} {result : Datum} (adds : SumOf operands result) :
    sum operands = .ok result := by
  cases adds with
  | integers ns =>
    have added := sum_integers ns []
    rwa [List.append_nil] at added
  | floats x xs =>
    have joins (a b : Double) : addOperand (.float a) (.float b) = .ok (.float (a + b)) := rfl
    have added := foldlM_wrapped joins x xs []
    rw [List.append_nil] at added
    rw [List.map_cons, (Displaces.float x).sum_cons]
    exact added
  | strings s ss =>
    have joins (a b : String) : addOperand (.string a) (.string b) = .ok (.string (a ++ b)) := rfl
    have added := foldlM_wrapped joins s ss []
    rw [List.append_nil] at added
    have joined : String.join (s :: ss) = ss.foldl (· ++ ·) s := by
      rw [String.join, List.foldl_cons, String.empty_append]
    rw [List.map_cons, (Displaces.string s).sum_cons, joined]
    exact added

/-- From an operand that takes the place of zero on, the operands have a sum as their types decide
it, or their types do not match. -/
theorem Displaces.sum_cases {first : Datum} (displaces : Displaces first) (rest : List Datum) :
    (∃ result, SumOf (first :: rest) result) ∨ Mismatches (sum (first :: rest)) := by
  rw [displaces.sum_cons]
  cases displaces with
  | float x =>
    rcases foldlM_strict (fun _ _ => rfl) float_refuses x rest with ⟨xs, rfl, _⟩ | mismatch
    · exact .inl ⟨_, .floats x xs⟩
    · exact .inr mismatch
  | string s =>
    rcases foldlM_strict (fun _ _ => rfl) string_refuses s rest with ⟨ss, rfl, _⟩ | mismatch
    · exact .inl ⟨_, .strings s ss⟩
    · exact .inr mismatch

/-- Unless integers cancel out before a double or a string, the operands have a sum as their types
decide it, or their types do not match. -/
theorem sum_cases {operands : List Datum} (calm : ¬ Cancels operands) :
    (∃ result, SumOf operands result) ∨ Mismatches (sum operands) := by
  obtain ⟨ns, rest, rfl, differs⟩ := exists_front .integer operands
  cases rest with
  | nil =>
    rw [List.append_nil]
    exact .inl ⟨_, .integers ns⟩
  | cons first rest =>
    by_cases strict : (ns.map Integer.toInt).sum ≠ 0 ∨ ¬ Displaces first
    · obtain ⟨expected, found, refused⟩ := integer_refuses
        (Integer.ofInt (ns.map Integer.toInt).sum) first (differs _ _ rfl)
        (by rwa [Integer.toInt_ofInt])
      rw [sum_integers, List.foldlM_cons, refused]
      exact .inr ⟨expected, found, rfl⟩
    · rw [not_or, not_not, not_not] at strict
      obtain ⟨zero, displaces⟩ := strict
      -- Nothing may cancel out, so nothing has been added yet.
      have none : ns = [] := by
        by_contra some
        exact calm ⟨ns, first, rest, rfl, some, zero, displaces⟩
      subst none
      exact displaces.sum_cases rest

/-- Data of one type are made in one way. -/
theorem exists_eq_map {α : Type} {wrap : α → Datum} {operands : List Datum}
    (each : ∀ operand ∈ operands, ∃ a, operand = wrap a) :
    ∃ front : List α, operands = front.map wrap := by
  obtain ⟨front, rest, rfl, differs⟩ := exists_front wrap operands
  cases rest with
  | nil => exact ⟨front, List.append_nil _⟩
  | cons other later =>
    obtain ⟨a, same⟩ := each other (List.mem_append_right _ List.mem_cons_self)
    exact absurd same (differs other later rfl a)

/-- Operands have a sum exactly if their types are all integer, all float or all string. -/
theorem exists_sumOf_iff {operands : List Datum} :
    (∃ result, SumOf operands result) ↔
      ∃ type ∈ ["integer", "float", "string"], ∀ name ∈ operands.map Datum.typeName,
        name = type := by
  constructor
  · rintro ⟨result, adds⟩
    cases adds with
    | integers ns => exact ⟨"integer", by decide, by simp [Datum.typeName]⟩
    | floats x xs => exact ⟨"float", by decide, by simp [Datum.typeName]⟩
    | strings s ss => exact ⟨"string", by decide, by simp [Datum.typeName]⟩
  · rintro ⟨type, known, uniform⟩
    have each : ∀ operand ∈ operands, operand.typeName = type := fun operand mem =>
      uniform _ (List.mem_map_of_mem mem)
    cases operands with
    | nil => exact ⟨_, .integers []⟩
    | cons first rest =>
      have made {α : Type} (wrap : α → Datum)
          (only : ∀ operand : Datum, operand.typeName = type → ∃ a, operand = wrap a) :
          ∃ a front, first :: rest = (a :: front).map wrap := by
        obtain ⟨front, same⟩ := exists_eq_map fun operand mem => only operand (each operand mem)
        cases front with
        | nil => cases same
        | cons a front => exact ⟨a, front, same⟩
      simp only [List.mem_cons, List.not_mem_nil, or_false] at known
      rcases known with rfl | rfl | rfl
      · obtain ⟨n, ns, same⟩ := made .integer fun operand same => by
          cases operand <;> simp_all [Datum.typeName]
        rw [same]
        exact ⟨_, .integers (n :: ns)⟩
      · obtain ⟨x, xs, same⟩ := made .float fun operand same => by
          cases operand <;> simp_all [Datum.typeName]
        rw [same]
        exact ⟨_, .floats x xs⟩
      · obtain ⟨s, ss, same⟩ := made .string fun operand same => by
          cases operand <;> simp_all [Datum.typeName]
        rw [same]
        exact ⟨_, .strings s ss⟩

/-- The form evaluates its arguments and adds what they come to. -/
theorem eval_sum (line : Nat) (arguments : List Sexp) :
    eval line (.list (.symbol "+" :: arguments) none) =
      (evalAll line arguments >>= fun data => ofOutcome (sum data)) := by
  rw [eval.eq_def]
  cases arguments <;> rfl

/-- What the form comes to when its arguments have come to data. -/
theorem told_sum {line : Nat} {arguments : List Sexp} {locals left : Fields Datum}
    {answers : List ((request : Request) × request.Answer)} {data : List Datum}
    (told : ((evalAll line arguments).run.run locals).Told answers (.ok data, left)) :
    ((eval line (.list (.symbol "+" :: arguments) none)).run.run locals).Told answers
      ((sum data).mapError .exchange, left) := by
  have ended : ((ofOutcome (sum data)).run.run left).Told []
      ((sum data).mapError Trouble.exchange, left) := by
    rw [run_ofOutcome]
    exact .done _
  rw [eval_sum, run_bind, ← List.append_nil answers]
  exact told.bind ended

/-- Operands in which nothing cancels out come to their sum, if they have one. -/
theorem sum_ok_iff {operands : List Datum} {result : Datum} (calm : ¬ Cancels operands) :
    sum operands = .ok result ↔ SumOf operands result := by
  refine ⟨fun added => ?_, SumOf.sum_eq⟩
  rcases sum_cases calm with ⟨other, adds⟩ | ⟨expected, found, mismatch⟩
  · have same : result = other := Except.ok.inj (added.symm.trans adds.sum_eq)
    rwa [same]
  · cases added.symm.trans mismatch

/-- The types of its arguments decide what `+` comes to, unless integers cancel out before a double
or a string. The form adds what its arguments come to. Integers have their exact sum, which is zero
if there are none, doubles are added from left to right and strings are joined; operands of any
other types do not match. So operands of the same types both have a sum or both have none. Integers
that cancel out, however, are forgotten, whatever comes after them. -/
theorem types_decide_sums (operands : List Datum) :
    (∀ line arguments locals answers left,
      ((evalAll line arguments).run.run locals).Told answers (.ok operands, left) →
      ((eval line (.list (.symbol "+" :: arguments) none)).run.run locals).Told answers
        ((sum operands).mapError .exchange, left)) ∧
    (¬ Cancels operands →
      (∀ result, sum operands = .ok result ↔ SumOf operands result) ∧
      ((¬ ∃ result, SumOf operands result) → Mismatches (sum operands)) ∧
      ∀ others, operands.map Datum.typeName = others.map Datum.typeName → ¬ Cancels others →
        ((∃ result, sum operands = .ok result) ↔ ∃ result, sum others = .ok result)) ∧
    ∀ (ns : List Integer) (first : Datum) (rest : List Datum),
      operands = ns.map .integer ++ first :: rest → (ns.map Integer.toInt).sum = 0 →
      sum operands = sum (first :: rest) := by
  refine ⟨fun _ _ _ _ _ told => told_sum told, fun calm => ?_, fun ns first rest same zero => ?_⟩
  · refine ⟨fun result => sum_ok_iff calm, fun none => (sum_cases calm).resolve_left none, ?_⟩
    intro others types calmToo
    simp only [sum_ok_iff calm, sum_ok_iff calmToo, exists_sumOf_iff, types]
  · rw [same]
    exact sum_of_cancelled rest zero

/-- Three integers, two of which cancel out, have their sum; an integer and a string have none,
nor have another integer and another string. -/
theorem types_decide_sums_of_words :
    ((eval 1 (.list [.symbol "+", .integer (.word 3), .integer (.word (-3)), .integer (.word 4)]
      none)).run.run []).Told [] (.ok (.integer (.word 4)), []) ∧
    Mismatches (sum [.integer (.word 2), .string "a"]) ∧
    ¬ (∃ result, sum [.integer (.word 7), .string "b"] = .ok result) ∧
    sum [.integer (.word 3), .integer (.word (-3)), .string "a"] = sum [.string "a"] := by
  have calm (n : Int64) (s : String) (positive : n.toInt ≠ 0) :
      ¬ Cancels [.integer (.word n), .string s] := by
    rintro ⟨ns, first, rest, same, some, zero, displaces⟩
    -- One integer is all there can be in front, and it is not zero.
    cases ns with
    | nil => exact some rfl
    | cons m ns =>
      obtain ⟨head, tail⟩ := List.cons.inj same
      obtain rfl : Integer.word n = m := Datum.integer.inj head
      cases ns with
      | nil => exact positive ((Int.add_zero _).symm.trans zero)
      | cons m ns => cases tail
  have uniform : ¬ ∃ result, SumOf [.integer (.word 2), .string "a"] result := by
    rw [exists_sumOf_iff]
    decide
  have told : ((evalAll 1 [.integer (.word 3), .integer (.word (-3)), .integer (.word 4)]).run.run
      []).Told [] (.ok [.integer (.word 3), .integer (.word (-3)), .integer (.word 4)], []) := by
    simp only [evalAll, eval]
    exact .done _
  obtain ⟨_, uncancelled, _⟩ := types_decide_sums [.integer (.word 2), .string "a"]
  obtain ⟨_, mismatches, types⟩ := uncancelled (calm 2 "a" (by decide))
  have mismatch := mismatches uniform
  refine ⟨(types_decide_sums _).1 1 _ [] [] [] told, mismatch, ?_,
    (types_decide_sums _).2.2 [.word 3, .word (-3)] (.string "a") [] rfl (by decide)⟩
  have alike := types [.integer (.word 7), .string "b"] rfl (calm 7 "b" (by decide))
  intro added
  obtain ⟨result, added⟩ := alike.2 added
  obtain ⟨expected, found, mismatch⟩ := mismatch
  cases mismatch.symm.trans added

/-- An integer, its opposite and a string come to the string, although their types have no sum and
with other integers do not match. -/
theorem types_do_not_decide_cancelled_sum :
    ((eval 1 (.list [.symbol "+", .integer (.word 1), .integer (.word (-1)), .string "a"]
      none)).run.run []).Told [] (.ok (.string "a"), []) ∧
    (¬ ∃ result, SumOf [.integer (.word 1), .integer (.word (-1)), .string "a"] result) ∧
    Mismatches (sum [.integer (.word 1), .integer (.word 1), .string "a"]) := by
  have told : ((evalAll 1 [.integer (.word 1), .integer (.word (-1)), .string "a"]).run.run
      []).Told [] (.ok [.integer (.word 1), .integer (.word (-1)), .string "a"], []) := by
    simp only [evalAll, eval]
    exact .done _
  refine ⟨told_sum told, ?_, _, _, rfl⟩
  rw [exists_sumOf_iff]
  decide

end Forms

end Interchange
