import Interchange.Integer

/-!
# One form for each number

An integer is determined by the number that it denotes (`Integer.toInt_inj`), since it is a word
exactly if a word can hold that number (`Integer.wide_iff`). What the operations do can therefore be
said in terms of numbers alone: they convert to words exactly if the number lies in the range of the
word (`Integer.toWord?_eq_some_iff`, `Integer.toUnsigned?_eq_some_iff`), and sums are exact, also
those computed in words (`Integer.toInt_add`).
-/
namespace Interchange.Integer

/-! ### Words and numbers -/

/-- A word holds a number that fits a word. -/
theorem fitsWord_toInt (word : Int64) : FitsWord word.toInt := by
  have low := word.le_toInt
  have high := word.toInt_lt
  constructor <;> omega

/-- The word of a number that fits a word holds that number. -/
theorem toInt_word_ofInt {n : Int} (fits : FitsWord n) : (Int64.ofInt n).toInt = n := by
  have low : -2 ^ 63 ≤ n := fits.1
  have high : n < 2 ^ 63 := fits.2
  exact Int64.toInt_ofInt_of_le low high

/-- The one form of a number denotes the number. -/
theorem toInt_ofInt (n : Int) : (ofInt n).toInt = n := by
  unfold ofInt
  split
  · rename_i fits
    exact toInt_word_ofInt fits
  · rfl

/-- A number that a word can hold is held in the word. -/
theorem ofInt_toInt_word (word : Int64) : ofInt word.toInt = .word word := by
  rw [ofInt, dif_pos (fitsWord_toInt word), Int64.ofInt_toInt]

/-- The one form of the number that an integer denotes is the integer. -/
theorem ofInt_toInt (n : Integer) : ofInt n.toInt = n := by
  cases n with
  | word n => exact ofInt_toInt_word n
  | wide n outside => rw [toInt, ofInt, dif_neg outside]

/-- An integer is the one form of the number that it denotes, and of no other. -/
theorem ofInt_eq_iff {m : Int} {n : Integer} : ofInt m = n ↔ m = n.toInt := by
  constructor
  · rintro rfl
    rw [toInt_ofInt]
  · rintro rfl
    exact ofInt_toInt n

/-- Integers are the same exactly if they denote the same number. -/
theorem toInt_inj {a b : Integer} : a.toInt = b.toInt ↔ a = b := by
  rw [← ofInt_eq_iff, ofInt_toInt]

/-- An integer is kept in full exactly if no word can hold its number. -/
theorem wide_iff (n : Integer) :
    (∃ value outside, n = .wide value outside) ↔ ¬ FitsWord n.toInt := by
  cases n with
  | word n =>
    refine iff_of_false ?_ (not_not_intro (fitsWord_toInt n))
    rintro ⟨value, outside, same⟩
    cases same
  | wide n outside => exact iff_of_true ⟨n, outside, rfl⟩ outside

/-! ### Signed words -/

/-- A number kept in full has no word. -/
theorem toWord?_wide {n : Int} (outside : ¬ FitsWord n) : (wide n outside).toWord? = none :=
  if_neg outside

/-- An integer has the word that holds its number. -/
theorem toWord?_eq_some_iff {n : Integer} {word : Int64} :
    n.toWord? = some word ↔ word.toInt = n.toInt := by
  cases n with
  | word n => rw [toWord?, toInt, Option.some.injEq, eq_comm, Int64.toInt_inj]
  | wide n outside =>
    rw [toWord?_wide]
    refine iff_of_false nofun fun same => outside ?_
    rw [toInt] at same
    exact same ▸ fitsWord_toInt word

/-- An integer is a word exactly if a word can hold its number. -/
theorem toWord?_eq_none_iff (n : Integer) : n.toWord? = none ↔ ¬ FitsWord n.toInt := by
  cases n with
  | word n => exact iff_of_false nofun (not_not_intro (fitsWord_toInt n))
  | wide n outside => exact iff_of_true (toWord?_wide outside) outside

/-! ### Unsigned words -/

/-- The integer of an unsigned word is the one form of its number. -/
theorem ofUnsigned_eq (word : UInt64) : ofUnsigned word = ofInt word.toNat := by
  rw [ofUnsigned]
  split
  · rename_i small
    -- The sign bit is not set.
    have held : word.toInt64.toInt = word.toNat := by
      have half : 2 * word.toBitVec.toNat < 2 ^ 64 := by
        rw [UInt64.toNat_toBitVec]
        omega
      exact BitVec.toInt_eq_toNat_of_lt half
    rw [← held, ofInt_toInt_word]
  · rename_i large
    have outside : ¬ FitsWord word.toNat := fun fits => large (Int.ofNat_lt.1 fits.2)
    rw [ofInt, dif_neg outside]

/-- A signed word that is not negative holds the same number without its sign. -/
theorem toNat_toUInt64 {word : Int64} (nonnegative : 0 ≤ word) :
    (word.toUInt64.toNat : Int) = word.toInt := by
  rw [Int64.toNat_toUInt64_of_le nonnegative, ← Int64.toNat_toInt]
  exact Int.toNat_of_nonneg (Int64.le_iff_toInt_le.1 nonnegative)

/-- The unsigned word of a number in its range holds that number. -/
theorem toNat_ofNat_toNat {n : Int} (low : 0 ≤ n) (high : n < 0x10000000000000000) :
    ((UInt64.ofNat n.toNat).toNat : Int) = n := by
  have small : n.toNat < UInt64.size := by
    rw [UInt64.size]
    omega
  rw [UInt64.toNat_ofNat_of_lt' small]
  exact Int.toNat_of_nonneg low

/-- An integer has the unsigned word that holds its number. -/
theorem toUnsigned?_eq_some_iff {n : Integer} {word : UInt64} :
    n.toUnsigned? = some word ↔ (word.toNat : Int) = n.toInt := by
  have bound := word.toNat_lt
  cases n with
  | word n =>
    rw [toUnsigned?, toInt]
    split
    · rename_i nonnegative
      rw [Option.some.injEq, ← toNat_toUInt64 nonnegative, Int.natCast_inj, UInt64.toNat_inj,
        eq_comm]
    · rename_i negative
      rw [Int64.le_iff_toInt_le, Int64.toInt_zero] at negative
      exact iff_of_false nofun (by omega)
  | wide n outside =>
    rw [toUnsigned?, toInt]
    split
    · rename_i range
      have whole := toNat_ofNat_toNat range.1 range.2
      rw [Option.some.injEq, ← UInt64.toNat_inj]
      omega
    · exact iff_of_false nofun (by omega)

/-- An integer that an unsigned word holds is the integer of that word. -/
theorem ofUnsigned_of_toUnsigned? {n : Integer} {word : UInt64}
    (held : n.toUnsigned? = some word) : ofUnsigned word = n := by
  rw [ofUnsigned_eq, toUnsigned?_eq_some_iff.1 held, ofInt_toInt]

/-- An integer is held by an unsigned word exactly in the range of unsigned words. -/
theorem toUnsigned?_isSome_iff (n : Integer) :
    n.toUnsigned?.isSome = true ↔ 0 ≤ n.toInt ∧ n.toInt < 0x10000000000000000 := by
  rw [Option.isSome_iff_exists]
  simp only [toUnsigned?_eq_some_iff]
  constructor
  · rintro ⟨word, same⟩
    have bound := word.toNat_lt
    omega
  · rintro ⟨low, high⟩
    exact ⟨UInt64.ofNat n.toInt.toNat, toNat_ofNat_toNat low high⟩

/-! ### Sums -/

/-- The sum in words is the exact one. -/
theorem toInt_of_wordSum? {a b : Integer} {sum : Int64} (added : wordSum? a b = some sum) :
    sum.toInt = a.toInt + b.toInt := by
  unfold wordSum? at added
  split at added
  · rename_i m n
    split at added
    · rename_i fits
      rw [← Option.some.inj added, Int64.toInt_add]
      exact Int.bmod_eq_of_le fits.1 fits.2
    · cases added
  · cases added

/-- Integers are added by adding their numbers. -/
theorem add_eq (a b : Integer) : a + b = ofInt (a.toInt + b.toInt) := by
  have sum : a + b = add a b := rfl
  rw [sum, add]
  split
  · rename_i sum added
    rw [← toInt_of_wordSum? added, ofInt_toInt_word]
  · rfl

/-- Sums are exact. -/
theorem toInt_add (a b : Integer) : (a + b).toInt = a.toInt + b.toInt := by
  rw [add_eq, toInt_ofInt]

end Interchange.Integer
