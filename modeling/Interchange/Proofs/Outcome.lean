import Mathlib.Data.List.Forall2

/-!
# Steps that may fail

What the result or the fault of several steps tells of each of them. Two steps have a result if the
second has it after the first (`Outcome.bind_ok_iff`); steps for the elements of a list have results
if each of them has one (`Outcome.mapM_ok_iff`), and a fault only if one of them has it
(`Outcome.exists_of_mapM_error`).
-/
namespace Interchange.Outcome

variable {ε α β : Type} {made : Except ε α} {next : α → Except ε β} {step : α → Except ε β}

/-- Two steps have a result if the second has it after the first. -/
theorem bind_ok_iff {result : β} :
    made >>= next = .ok result ↔ ∃ part, made = .ok part ∧ next part = .ok result := by
  cases made <;> simp [bind, Except.bind]

/-- Two steps have a fault if the first has it, or the second after the first. -/
theorem bind_error_iff {fault : ε} :
    made >>= next = .error fault ↔
      made = .error fault ∨ ∃ part, made = .ok part ∧ next part = .error fault := by
  cases made <;> simp [bind, Except.bind]

/-- A step without a fault has its result. -/
theorem pure_ok_iff {value result : β} :
    (pure value : Except ε β) = .ok result ↔ value = result := by
  simp [pure, Except.pure]

/-- A step without a fault has no fault. -/
theorem pure_ne_error {value : β} {fault : ε} :
    (pure value : Except ε β) ≠ .error fault := by
  simp [pure, Except.pure]

/-- Steps for the elements of a list have results if each of them has one. -/
theorem mapM_ok_iff {list : List α} {results : List β} :
    list.mapM step = .ok results ↔
      List.Forall₂ (fun element result => step element = .ok result) list results := by
  induction list generalizing results with
  | nil => rw [List.mapM_nil, pure_ok_iff, List.forall₂_nil_left_iff, eq_comm]
  | cons element rest ih =>
    simp only [List.mapM_cons, bind_ok_iff, pure_ok_iff, List.forall₂_cons_left_iff, ih]
    constructor
    · rintro ⟨result, first, others, later, rfl⟩
      exact ⟨result, others, first, later, rfl⟩
    · rintro ⟨result, others, first, later, rfl⟩
      exact ⟨result, first, others, later, rfl⟩

/-- A fault of steps for the elements of a list is the fault of one of them. -/
theorem exists_of_mapM_error {list : List α} {fault : ε}
    (failed : list.mapM step = .error fault) : ∃ element ∈ list, step element = .error fault := by
  induction list with
  | nil => exact absurd failed pure_ne_error
  | cons element rest ih =>
    simp only [List.mapM_cons, bind_error_iff, pure_ne_error, and_false, exists_false,
      or_false] at failed
    rcases failed with here | ⟨_, _, later⟩
    · exact ⟨element, List.mem_cons_self, here⟩
    · obtain ⟨other, mem, failed⟩ := ih later
      exact ⟨other, List.mem_cons_of_mem _ mem, failed⟩

/-- Each result of steps for the elements of a list is that of one of them. -/
theorem exists_of_mem_results {list : List α} {results : List β}
    (done : list.mapM step = .ok results) {result : β} (mem : result ∈ results) :
    ∃ element ∈ list, step element = .ok result := by
  have paired := mapM_ok_iff.1 done
  clear done
  induction paired with
  | nil => exact absurd mem List.not_mem_nil
  | cons first later ih =>
    rcases List.mem_cons.1 mem with rfl | mem
    · exact ⟨_, List.mem_cons_self, first⟩
    · obtain ⟨element, there, done⟩ := ih mem
      exact ⟨element, List.mem_cons_of_mem _ there, done⟩

/-- Each element of a list has its result among those of the steps. -/
theorem exists_of_mem_list {list : List α} {results : List β}
    (done : list.mapM step = .ok results) {element : α} (mem : element ∈ list) :
    ∃ result, step element = .ok result := by
  have paired := mapM_ok_iff.1 done
  clear done
  induction paired with
  | nil => exact absurd mem List.not_mem_nil
  | cons first later ih =>
    rcases List.mem_cons.1 mem with rfl | mem
    · exact ⟨_, first⟩
    · exact ih mem

end Interchange.Outcome
