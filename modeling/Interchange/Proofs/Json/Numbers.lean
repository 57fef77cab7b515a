import Interchange.Proofs.Json.Documents
import Interchange.Proofs.Numerals
import Mathlib.Data.List.TakeWhile

/-!
# Reading numbers of JSON from the front of a text

A number is read up to a character that cannot go on with it. What is read consists of the
characters of numbers (`Json.past_of_readMagnitude?`), and what follows does not matter as long as
it does not go on with the number (`Json.EndsNumber.readMagnitude?_append`). The numerals of
integers are read as these integers.
-/
namespace Interchange.Json

/-- The characters that numbers are written with. -/
def isNumeric (c : Char) : Bool :=
  c.isDigit || c == '+' || c == '-' || c == '.' || c == 'e' || c == 'E'

/-- A digit is a character of numbers. -/
theorem isNumeric_of_isDigit {c : Char} (digit : c.isDigit) : isNumeric c := by
  simp [isNumeric, digit]

section Past

/-- Only characters of numbers stand before the rest of a text. -/
def Past (text rest : List Char) : Prop := ∃ used, text = used ++ rest ∧ ∀ c ∈ used, isNumeric c

variable {text middle rest : List Char}

/-- Nothing stands before the whole text. -/
theorem Past.refl (text : List Char) : Past text text := ⟨[], rfl, by simp⟩

/-- One part stands before another. -/
theorem Past.trans (first : Past text middle) (second : Past middle rest) : Past text rest := by
  obtain ⟨used, rfl, numeric⟩ := first
  obtain ⟨more, rfl, others⟩ := second
  refine ⟨used ++ more, (List.append_assoc ..).symm, fun c mem => ?_⟩
  exact (List.mem_append.1 mem).elim (numeric c) (others c)

/-- One more character stands before the rest. -/
theorem Past.cons {c : Char} (numeric : isNumeric c) (past : Past text rest) :
    Past (c :: text) rest := by
  obtain ⟨used, rfl, others⟩ := past
  exact ⟨c :: used, rfl, List.forall_mem_cons.2 ⟨numeric, others⟩⟩

/-- Its leading digits stand before the rest of a text. -/
theorem past_dropWhile (text : List Char) : Past text (text.dropWhile Char.isDigit) :=
  ⟨text.takeWhile Char.isDigit, List.takeWhile_append_dropWhile.symm, fun _ mem =>
    isNumeric_of_isDigit (List.mem_takeWhile_imp mem)⟩

/-- What is left after collecting digits are no more digits. -/
theorem rest_collectDigits (significand : Nat) (text : List Char) :
    (collectDigits significand text).rest = text.dropWhile Char.isDigit := by
  induction text generalizing significand with
  | nil => rfl
  | cons c text ih =>
    rw [collectDigits, List.dropWhile_cons]
    split
    · rename_i other
      rw [Bool.not_eq_true'] at other
      simp [other]
    · rename_i digit
      rw [Bool.not_eq_true', Bool.not_eq_false] at digit
      rw [if_pos digit]
      dsimp only
      split
      · exact ih _
      · rfl

/-- Digits stand before what is left after collecting them. -/
theorem past_collectDigits (significand : Nat) (text : List Char) :
    Past text (collectDigits significand text).rest := by
  rw [rest_collectDigits]
  exact past_dropWhile text

variable {negative : Bool} {significand : Nat} {exponent : Int} {n : Number}

/-- The sign and the digits of an exponent stand before what is left after it. -/
theorem past_of_readExponent?
    (read : readExponent? negative significand exponent text = some (n, rest)) :
    Past text rest := by
  unfold readExponent? at read
  split at read
  rename_i below digits sign
  have left : rest = digits.dropWhile Char.isDigit := by
    dsimp only at read
    split at read
    · cases read
    · split at read
      · obtain ⟨_, _, same⟩ := Option.bind_eq_some_iff.1 read
        exact (Prod.mk.inj (Option.some.inj same)).2.symm
      · split at read
        · cases read
        · obtain ⟨_, _, same⟩ := Option.bind_eq_some_iff.1 read
          exact (Prod.mk.inj (Option.some.inj same)).2.symm
  rw [left]
  split at sign
  · obtain ⟨_, rfl⟩ := Prod.mk.inj sign
    exact (past_dropWhile _).cons rfl
  · obtain ⟨_, rfl⟩ := Prod.mk.inj sign
    exact (past_dropWhile _).cons rfl
  · obtain ⟨_, rfl⟩ := Prod.mk.inj sign
    exact past_dropWhile _

/-- An exponent, if there is one, stands before what is left after it. -/
theorem past_of_scale
    (read : readMagnitude?.scale negative significand exponent text = some (n, rest)) :
    Past text rest := by
  unfold readMagnitude?.scale at read
  split at read
  · exact (past_of_readExponent? read).cons rfl
  · exact (past_of_readExponent? read).cons rfl
  · obtain ⟨_, _, same⟩ := Option.map_eq_some_iff.1 read
    rw [(Prod.mk.inj same).2]
    exact .refl rest

/-- The characters of a number stand before what is left after it. -/
theorem past_of_readMagnitude? (read : readMagnitude? negative text = some (n, rest)) :
    Past text rest := by
  unfold readMagnitude? at read
  have whole := past_collectDigits 0 text
  generalize collectDigits 0 text = digits at read whole
  dsimp only at read
  split at read
  · cases read
  · split at read
    · rename_i afterPoint point
      rw [point] at whole
      have fraction := past_collectDigits digits.significand afterPoint
      split at read
      · cases read
      · exact whole.trans ((fraction.trans (past_of_scale read)).cons rfl)
    · split at read
      · obtain ⟨_, _, same⟩ := Option.map_eq_some_iff.1 read
        rw [← (Prod.mk.inj same).2]
        exact whole
      · exact whole.trans (past_of_scale read)

end Past

section Continued

/-- A text does not go on with a number. -/
def EndsNumber (rest : List Char) : Prop := ∀ c ∈ rest.head?, isNumeric c = false

variable {rest : List Char}

/-- What does not go on with a number does not begin with a character of numbers. -/
theorem EndsNumber.head?_ne (ends : EndsNumber rest) {c : Char} (numeric : isNumeric c) :
    rest.head? ≠ some c := by
  intro first
  rw [ends c first] at numeric
  cases numeric

/-- A character of numbers that follows some text begins it already, or the text ends there. -/
theorem EndsNumber.head?_append (ends : EndsNumber rest) {c : Char} (numeric : isNumeric c)
    (text : List Char) : (text ++ rest).head? = some c ↔ text.head? = some c := by
  cases text with
  | nil => exact iff_of_false (ends.head?_ne numeric) (by simp)
  | cons d text => rfl

/-- A text that does not begin with a character of numbers does not do so with what follows. -/
theorem EndsNumber.append_ne_cons (ends : EndsNumber rest) {c : Char} (numeric : isNumeric c)
    {text more : List Char} (absent : ∀ rest, text ≠ c :: rest) : text ++ rest ≠ c :: more := by
  intro same
  have first := (ends.head?_append numeric text).1 (congrArg List.head? same)
  obtain ⟨rest, whole⟩ := List.head?_eq_some_iff.1 first
  exact absent rest whole

/-- What does not go on with a number has no digits in front. -/
theorem EndsNumber.digits (ends : EndsNumber rest) :
    rest.takeWhile Char.isDigit = [] ∧ rest.dropWhile Char.isDigit = rest := by
  cases rest with
  | nil => exact ⟨rfl, rfl⟩
  | cons c rest =>
    have other : c.isDigit = false := by
      rw [Bool.eq_false_iff]
      exact fun digit => ends.head?_ne (isNumeric_of_isDigit digit) rfl
    simp [other]

/-- The leading digits end where a number does. -/
theorem EndsNumber.takeWhile_append (ends : EndsNumber rest) (text : List Char) :
    (text ++ rest).takeWhile Char.isDigit = text.takeWhile Char.isDigit ∧
      (text ++ rest).dropWhile Char.isDigit = text.dropWhile Char.isDigit ++ rest := by
  induction text with
  | nil => exact ends.digits
  | cons c text ih =>
    rw [List.cons_append, List.takeWhile_cons, List.takeWhile_cons, List.dropWhile_cons,
      List.dropWhile_cons, ih.1, ih.2]
    split <;> exact ⟨rfl, rfl⟩

/-- What follows a number is left when its digits are collected. -/
theorem EndsNumber.collectDigits_append (ends : EndsNumber rest) (significand : Nat)
    (text : List Char) :
    collectDigits significand (text ++ rest) =
      { collectDigits significand text with
        rest := (collectDigits significand text).rest ++ rest } := by
  induction text generalizing significand with
  | nil =>
    cases rest with
    | nil => rfl
    | cons c rest =>
      have other : c.isDigit = false := by
        rw [Bool.eq_false_iff]
        exact fun digit => ends.head?_ne (isNumeric_of_isDigit digit) rfl
      simp [collectDigits, other]
  | cons c text ih =>
    rw [List.cons_append, collectDigits, collectDigits]
    dsimp only
    rw [ih, (ends.takeWhile_append text).1, (ends.takeWhile_append text).2]
    split
    · rfl
    · split <;> rfl

variable {negative : Bool} {significand : Nat} {exponent : Int}

/-- What follows a number is left when the sign of its exponent is read. -/
theorem EndsNumber.sign_append (ends : EndsNumber rest) {text digits whole : List Char}
    {below other : Bool}
    (sign : (match text with
      | '-' :: rest => (true, rest)
      | '+' :: rest => (false, rest)
      | _ => (false, text)) = (below, digits))
    (signed : (match text ++ rest with
      | '-' :: rest => (true, rest)
      | '+' :: rest => (false, rest)
      | _ => (false, text ++ rest)) = (other, whole)) : other = below ∧ whole = digits ++ rest := by
  split at sign
  · obtain ⟨rfl, rfl⟩ := Prod.mk.inj sign
    obtain ⟨rfl, rfl⟩ := Prod.mk.inj signed
    exact ⟨rfl, rfl⟩
  · obtain ⟨rfl, rfl⟩ := Prod.mk.inj sign
    obtain ⟨rfl, rfl⟩ := Prod.mk.inj signed
    exact ⟨rfl, rfl⟩
  · rename_i minus plus
    obtain ⟨rfl, rfl⟩ := Prod.mk.inj sign
    split at signed
    · rename_i same
      exact absurd same (ends.append_ne_cons rfl minus)
    · rename_i same
      exact absurd same (ends.append_ne_cons rfl plus)
    · obtain ⟨rfl, rfl⟩ := Prod.mk.inj signed
      exact ⟨rfl, rfl⟩

/-- What follows a number is left when its exponent is read. -/
theorem EndsNumber.readExponent?_append (ends : EndsNumber rest) (text : List Char) :
    readExponent? negative significand exponent (text ++ rest) =
      (readExponent? negative significand exponent text).map
        fun (n, left) => (n, left ++ rest) := by
  generalize found : readExponent? negative significand exponent text = read
  unfold readExponent? at found ⊢
  split at found
  rename_i below digits sign
  split
  rename_i other whole signed
  obtain ⟨rfl, rfl⟩ := ends.sign_append sign signed
  rw [← found]
  dsimp only
  rw [(ends.takeWhile_append digits).1, (ends.takeWhile_append digits).2]
  split
  · rfl
  · split
    · cases realNumber? negative significand _ <;> rfl
    · split
      · rfl
      · cases realNumber? negative 0 0 <;> rfl

/-- What follows a number is left when its exponent, if there is one, is read. -/
theorem EndsNumber.scale_append (ends : EndsNumber rest) (text : List Char) :
    readMagnitude?.scale negative significand exponent (text ++ rest) =
      (readMagnitude?.scale negative significand exponent text).map
        fun (n, left) => (n, left ++ rest) := by
  generalize found : readMagnitude?.scale negative significand exponent text = read
  unfold readMagnitude?.scale at found ⊢
  split at found
  · rw [← found]
    exact ends.readExponent?_append _
  · rw [← found]
    exact ends.readExponent?_append _
  · rename_i small large
    split
    · rename_i same
      exact absurd same (ends.append_ne_cons rfl small)
    · rename_i same
      exact absurd same (ends.append_ne_cons rfl large)
    · rw [← found]
      cases realNumber? negative significand exponent <;> rfl

/-- A number is read up to where it ends, whatever follows there. -/
theorem EndsNumber.readMagnitude?_append (ends : EndsNumber rest) (text : List Char) :
    readMagnitude? negative (text ++ rest) =
      (readMagnitude? negative text).map fun (n, left) => (n, left ++ rest) := by
  generalize found : readMagnitude? negative text = read
  unfold readMagnitude? at found ⊢
  rw [ends.collectDigits_append]
  generalize collectDigits 0 text = whole at found ⊢
  dsimp only at found ⊢
  simp only [ends.head?_append (c := '0') rfl]
  split at found
  · rename_i wrong
    rw [if_pos wrong, ← found]
    rfl
  · rename_i right
    rw [if_neg right]
    split at found
    · rename_i afterPoint point
      rw [point, List.cons_append]
      simp only [ends.collectDigits_append]
      generalize collectDigits whole.significand afterPoint = fraction at found ⊢
      split at found
      · rename_i none
        rw [if_pos none, ← found]
        rfl
      · rename_i some
        rw [if_neg some, ← found]
        exact ends.scale_append _
    · rename_i point
      split
      · rename_i same
        exact absurd same (ends.append_ne_cons rfl point)
      · simp only [ne_eq, ends.head?_append (c := 'e') rfl, ends.head?_append (c := 'E') rfl]
        split at found
        · rename_i integer
          rw [if_pos integer, ← found]
          cases integerNumber? negative whole.significand <;> rfl
        · rename_i fraction
          rw [if_neg fraction, ← found]
          exact ends.scale_append _

end Continued

section Integers

/-- Digits that fit into a word are all collected. -/
theorem collectDigits_of_fits {significand : Nat} {digits : List Char}
    (each : ∀ c ∈ digits, c.isDigit) (fits : Nat.ofDigitChars 10 digits significand ≤ wordLimit) :
    collectDigits significand digits =
      ⟨Nat.ofDigitChars 10 digits significand, digits.length, 0, []⟩ := by
  induction digits generalizing significand with
  | nil => rfl
  | cons c digits ih =>
    obtain ⟨digit, others⟩ := List.forall_mem_cons.1 each
    rw [Nat.ofDigitChars_cons] at fits ⊢
    have next : 10 * significand + (c.toNat - '0'.toNat) ≤ wordLimit :=
      Nat.le_trans (Numerals.le_ofDigitChars _ digits) fits
    rw [collectDigits, digit]
    dsimp only
    rw [if_neg (by decide), if_pos next, ih others fits]
    rfl

/-- The numeral of an unsigned word is read as an integer. -/
theorem readMagnitude?_toDigits (negative : Bool) {n : Nat} (fits : n ≤ wordLimit) :
    readMagnitude? negative (Nat.toDigits 10 n) = (integerNumber? negative n).map (·, []) := by
  have value : Nat.ofDigitChars 10 (Nat.toDigits 10 n) 0 = n := Numerals.digitsValue_toDigits n
  have collected : collectDigits 0 (Nat.toDigits 10 n) =
      ⟨n, (Nat.toDigits 10 n).length, 0, []⟩ := by
    rw [collectDigits_of_fits (fun c mem => Numerals.isDigit_of_mem_toDigits mem)
      (by rwa [value]), value]
  have some : (Nat.toDigits 10 n).length ≠ 0 := by
    rw [Ne, List.length_eq_zero_iff]
    exact Nat.toDigits_ne_nil
  have right : ¬ ((Nat.toDigits 10 n).length = 0 ∨
      ((Nat.toDigits 10 n).head? = Option.some '0' ∧ (Nat.toDigits 10 n).length ≠ 1)) := by
    rintro (none | ⟨first, longer⟩)
    · exact some none
    · rw [Numerals.eq_zero_of_head? first] at longer
      exact longer rfl
  rw [readMagnitude?, collected]
  dsimp only
  rw [if_neg right, if_pos (by simp)]

/-- The numeral of an unsigned word is read as that word. -/
theorem readMagnitude?_natural (n : UInt64) :
    readMagnitude? false (Nat.toDigits 10 n.toNat) = some (.natural n, []) := by
  have fits : n.toNat ≤ wordLimit := Nat.le_of_lt_succ n.toNat_lt
  rw [readMagnitude?_toDigits false fits]
  simp [integerNumber?]

/-- The numeral of a negative word is a minus sign and digits, which are read as that word. -/
theorem readMagnitude?_negative (n : Int64) (below : n < 0) :
    ∃ digits, (Number.negative n below).numeral.toList = '-' :: digits ∧
      (∀ c ∈ digits, c.isDigit) ∧ readMagnitude? true digits = some (.negative n below, []) := by
  have under : n.toInt < 0 := by
    have less := Int64.lt_iff_toInt_lt.1 below
    rwa [Int64.toInt_zero] at less
  obtain ⟨k, same⟩ := Int.eq_negSucc_of_lt_zero under
  have bound := n.le_toInt
  refine ⟨Nat.toDigits 10 (k + 1), ?_, fun c mem => Numerals.isDigit_of_mem_toDigits mem, ?_⟩
  · have numeral : (Integer.word n).numeral = "-" ++ (k + 1).repr := by
      have value : (Integer.word n).toInt = .negSucc k := same
      rw [Integer.numeral, value]
    rw [Number.numeral, numeral, String.toList_append, Nat.toList_repr]
    rfl
  · have small : k + 1 ≤ 0x8000000000000000 := by
      rw [same] at bound
      omega
    have held : Number.ofInteger? (Integer.ofInt (-((k + 1 : Nat) : Int))) =
        some (.negative n below) := by
      have value : -((k + 1 : Nat) : Int) = n.toInt := by
        rw [same]
        rfl
      rw [value, Integer.ofInt_toInt_word]
      exact congrArg some (dif_pos below)
    have fits : k + 1 ≤ wordLimit := Nat.le_trans small (by decide)
    rw [readMagnitude?_toDigits true fits, integerNumber?, if_neg (by decide),
      if_pos ⟨Nat.succ_pos k, small⟩, held]
    rfl

end Integers

end Interchange.Json
