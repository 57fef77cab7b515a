import Interchange.Fields
import Mathlib.Data.List.Forall2
import Mathlib.Data.List.Induction

/-!
# Lookup and order of named entries

What entries stand for after one of them was inserted, and what keeps them sorted. Lookup never
needs the order, so the laws of lookup hold of all entries; entries sorted by name have each
name once. Sorting entries with distinct names (`Fields.sorted`) only moves them, whatever they
stand for. Entries that are given one after the other (`Fields.ofPairs`) have each name once, where
it first came up, with what it stood for last.
-/
namespace Interchange.Fields

variable {α β : Type}

/-- A name that was just inserted is found with its value. -/
@[simp] theorem find?_insert_self (name : String) (value : α) (fields : Fields α) :
    find? name (fields.insert name value) = some value := by
  induction fields with
  | nil => simp [insert, find?]
  | cons entry rest ih =>
    obtain ⟨other, old⟩ := entry
    rw [insert]
    split
    · simp [find?]
    · split
      · simp [find?]
      · rename_i different
        rw [find?, if_neg (Ne.symm different), ih]

/-- Inserting one name leaves what every other name stands for. -/
theorem find?_insert_of_ne {name other : String} (value : α) (fields : Fields α)
    (different : other ≠ name) :
    find? other (fields.insert name value) = find? other fields := by
  induction fields with
  | nil => simp [insert, find?, different.symm]
  | cons entry rest ih =>
    obtain ⟨third, old⟩ := entry
    rw [insert]
    split
    · rw [find?, if_neg different.symm]
    · split
      · rename_i same
        subst same
        rw [find?, find?, if_neg different.symm, if_neg different.symm]
      · rw [find?, find?, ih]

/-- What any name stands for after an insertion. -/
theorem find?_insert (name other : String) (value : α) (fields : Fields α) :
    find? other (fields.insert name value) =
      if other = name then some value else find? other fields := by
  split
  · rename_i same
    rw [same, find?_insert_self]
  · rename_i different
    exact find?_insert_of_ne value fields different

/-- A name is found exactly when it is one of the names. -/
theorem find?_isSome_iff (name : String) (fields : Fields α) :
    (find? name fields).isSome = true ↔ name ∈ fields.names := by
  induction fields with
  | nil => simp [find?, names]
  | cons entry rest ih =>
    obtain ⟨other, value⟩ := entry
    by_cases same : other = name
    · simp [find?, names, same]
    · rw [find?, if_neg same, ih]
      simp [names, Ne.symm same]

/-- What a name is found to stand for is an entry. -/
theorem mem_of_find? {name : String} {value : α} {fields : Fields α}
    (found : fields.find? name = some value) : (name, value) ∈ fields := by
  induction fields with
  | nil => simp [find?] at found
  | cons entry rest ih =>
    obtain ⟨other, held⟩ := entry
    rw [find?] at found
    split at found
    · rename_i same
      rw [same, Option.some.inj found]
      exact List.mem_cons_self
    · exact List.mem_cons_of_mem _ (ih found)

/-- Where names are distinct, each of them stands for its own entry. -/
theorem find?_of_mem {name : String} {value : α} {fields : Fields α}
    (distinct : fields.names.Nodup) (mem : (name, value) ∈ fields) :
    find? name fields = some value := by
  induction fields with
  | nil => simp at mem
  | cons entry rest ih =>
    obtain ⟨other, old⟩ := entry
    simp only [names, List.map_cons, List.nodup_cons] at distinct
    rcases List.mem_cons.1 mem with same | later
    · simp only [Prod.mk.injEq] at same
      simp [find?, same]
    · have different : other ≠ name := by
        rintro rfl
        exact distinct.1 (List.mem_map.2 ⟨_, later, rfl⟩)
      rw [find?, if_neg different]
      exact ih distinct.2 later

/-- Entries sorted by name. -/
def Sorted (fields : Fields α) : Prop := fields.names.Pairwise (· < ·)

instance (fields : Fields α) : Decidable fields.Sorted :=
  inferInstanceAs (Decidable (fields.names.Pairwise (· < ·)))

/-- The names after an insertion. -/
theorem mem_names_insert {name other : String} {value : α} {fields : Fields α} :
    other ∈ (fields.insert name value).names ↔ other = name ∨ other ∈ fields.names := by
  rw [← find?_isSome_iff, ← find?_isSome_iff, find?_insert]
  split <;> simp [*]

/-- No entries are sorted. -/
theorem sorted_nil : Sorted ([] : Fields α) := List.Pairwise.nil

/-- Of two different names the one that is not smaller is the greater. -/
theorem lt_of_not_lt_of_ne {a b : String} (notLess : ¬ a < b) (different : a ≠ b) : b < a := by
  by_cases less : b < a
  · exact less
  · exact absurd (String.le_antisymm less notLess) different

/-- Inserting keeps entries sorted. -/
theorem Sorted.insert {fields : Fields α} (sorted : fields.Sorted) (name : String) (value : α) :
    Sorted (fields.insert name value) := by
  induction fields with
  | nil => simp [Sorted, Fields.insert, names]
  | cons entry rest ih =>
    obtain ⟨other, old⟩ := entry
    obtain ⟨above, restSorted⟩ := List.pairwise_cons.1 sorted
    rw [Fields.insert]
    split
    · rename_i less
      refine List.pairwise_cons.2 ⟨fun later mem => ?_, sorted⟩
      rcases List.mem_cons.1 mem with rfl | mem
      · exact less
      · exact String.lt_trans less (above later mem)
    · split
      · rename_i same
        exact List.pairwise_cons.2 ⟨fun later mem => same ▸ above later mem, restSorted⟩
      · rename_i notLess different
        refine List.pairwise_cons.2 ⟨fun later mem => ?_, ih restSorted⟩
        rcases mem_names_insert.1 mem with rfl | mem
        · exact lt_of_not_lt_of_ne notLess different
        · exact above later mem

/-- Sorted entries have each name once. -/
theorem Sorted.nodup {fields : Fields α} (sorted : fields.Sorted) : fields.names.Nodup :=
  List.Pairwise.imp (fun {a b} less => by
    rintro rfl
    exact String.lt_irrefl a less) sorted

/-- Inserting a new name adds its entry. -/
theorem insert_perm {name : String} (value : α) {fields : Fields α}
    (fresh : name ∉ fields.names) : (fields.insert name value).Perm ((name, value) :: fields) := by
  induction fields with
  | nil => exact .refl _
  | cons entry rest ih =>
    obtain ⟨other, old⟩ := entry
    simp only [names, List.map_cons, List.mem_cons, not_or] at fresh
    rw [Fields.insert]
    split
    · exact .refl _
    · rw [if_neg fresh.1]
      exact ((ih fresh.2).cons _).trans (.swap _ _ _)

/-- Inserting entries with new and distinct names adds them. -/
theorem foldl_insert_perm {pairs fields : Fields α}
    (distinct : (names pairs ++ names fields).Nodup) :
    (pairs.foldl (fun fields (name, value) => fields.insert name value) fields).Perm
      (pairs ++ fields) := by
  induction pairs generalizing fields with
  | nil => exact .refl _
  | cons entry rest ih =>
    obtain ⟨name, value⟩ := entry
    simp only [names, List.map_cons, List.cons_append, List.nodup_cons, List.mem_append,
      not_or] at distinct
    obtain ⟨⟨notLater, fresh⟩, restDistinct⟩ := distinct
    have inserted := insert_perm value fresh
    have names_perm : (names rest ++ names (fields.insert name value)).Perm
        (name :: (names rest ++ names fields)) :=
      ((inserted.map Prod.fst).append_left _).trans List.perm_middle
    have moved := ih (names_perm.nodup_iff.2
      (List.nodup_cons.2 ⟨by simp [names, notLater, fresh], restDistinct⟩))
    exact moved.trans ((inserted.append_left rest).trans List.perm_middle)

/-- Sorting entries with distinct names only moves them. -/
theorem sorted_perm {pairs : Fields α} (distinct : pairs.names.Nodup) :
    (sorted pairs).Perm pairs := by
  have apart : (names pairs ++ names ([] : Fields α)).Nodup := by simpa [names] using distinct
  have moved := foldl_insert_perm apart
  rwa [List.append_nil] at moved

/-- Inserting entries one after the other keeps entries sorted. -/
theorem Sorted.foldl_insert {fields : Fields α} (sorted : fields.Sorted)
    (pairs : List (String × α)) :
    Sorted (pairs.foldl (fun fields (name, value) => fields.insert name value) fields) := by
  induction pairs generalizing fields with
  | nil => exact sorted
  | cons entry rest ih => exact ih (sorted.insert entry.1 entry.2)

/-- Sorted entries are sorted. -/
theorem sorted_isSorted (pairs : List (String × α)) : Sorted (sorted pairs) :=
  sorted_nil.foldl_insert pairs

/-- Entries that are sorted stay as they are. -/
theorem Sorted.sorted_eq {fields : Fields α} (inOrder : fields.Sorted) :
    sorted fields = fields := by
  have ordered : ∀ {pairs : Fields α}, pairs.Sorted →
      List.Pairwise (fun a b => a.1 < b.1) pairs := fun inOrder => List.pairwise_map.1 inOrder
  refine (sorted_perm inOrder.nodup).eq_of_pairwise (fun a b _ _ less greater => ?_)
    (ordered (sorted_isSorted fields)) (ordered inOrder)
  exact absurd (String.lt_trans less greater) (String.lt_irrefl a.1)

/-- What entries stand for does not matter for an insertion. -/
theorem map_insert (f : α → β) (name : String) (value : α) (fields : Fields α) :
    (fields.insert name value).map (fun entry => (entry.1, f entry.2)) =
      insert name (f value) (fields.map fun entry => (entry.1, f entry.2)) := by
  induction fields with
  | nil => rfl
  | cons entry rest ih =>
    obtain ⟨other, old⟩ := entry
    simp only [List.map_cons, Fields.insert]
    split
    · rfl
    · split
      · rfl
      · rw [List.map_cons, ih]

/-- What entries stand for does not matter for sorting them. -/
theorem map_sorted (f : α → β) (pairs : List (String × α)) :
    (sorted pairs).map (fun entry => (entry.1, f entry.2)) =
      sorted (pairs.map fun entry => (entry.1, f entry.2)) := by
  suffices ∀ fields : Fields α,
      (pairs.foldl (fun fields (name, value) => fields.insert name value) fields).map
          (fun entry => (entry.1, f entry.2)) =
        (pairs.map fun entry => (entry.1, f entry.2)).foldl
          (fun fields (name, value) => Fields.insert name value fields)
          (fields.map fun entry => (entry.1, f entry.2)) from this []
  induction pairs with
  | nil => exact fun fields => rfl
  | cons entry rest ih =>
    intro fields
    simp only [List.map_cons, List.foldl_cons, ← map_insert]
    exact ih (fields.insert entry.1 entry.2)

/-- What a name stands for after an insertion is what was inserted, or stood there before. -/
theorem mem_of_mem_insert {name : String} {value : α} {fields : Fields α} {entry : String × α}
    (mem : entry ∈ fields.insert name value) : entry = (name, value) ∨ entry ∈ fields := by
  induction fields with
  | nil => exact .inl (List.mem_singleton.1 mem)
  | cons first rest ih =>
    obtain ⟨other, old⟩ := first
    rw [Fields.insert] at mem
    split at mem
    · exact List.mem_cons.1 mem
    · split at mem
      · exact (List.mem_cons.1 mem).imp_right (List.mem_cons_of_mem _)
      · rcases List.mem_cons.1 mem with here | later
        · exact .inr (here ▸ List.mem_cons_self)
        · exact (ih later).imp_right (List.mem_cons_of_mem _)

/-- Sorting entries adds none. -/
theorem mem_of_mem_sorted {pairs : List (String × α)} {entry : String × α}
    (mem : entry ∈ sorted pairs) : entry ∈ pairs := by
  suffices ∀ fields : Fields α,
      entry ∈ pairs.foldl (fun fields (name, value) => fields.insert name value) fields →
        entry ∈ fields ∨ entry ∈ pairs from (this [] mem).resolve_left (by simp)
  clear mem
  induction pairs with
  | nil => exact fun fields mem => .inl mem
  | cons first rest ih =>
    intro fields mem
    rcases ih _ mem with before | later
    · rcases mem_of_mem_insert before with rfl | before
      · exact .inr List.mem_cons_self
      · exact .inl before
    · exact .inr (List.mem_cons_of_mem _ later)

/-- Where names are distinct, moving entries leaves what every name stands for. -/
theorem find?_eq_of_perm {fields others : Fields α} (distinct : fields.names.Nodup)
    (moved : fields.Perm others) (name : String) : find? name fields = find? name others := by
  have otherDistinct : others.names.Nodup := (moved.map Prod.fst).nodup_iff.1 distinct
  cases found : fields.find? name with
  | some value => exact (find?_of_mem otherDistinct (moved.mem_iff.1 (mem_of_find? found))).symm
  | none =>
    cases there : others.find? name with
    | none => rfl
    | some value =>
      have held := find?_of_mem distinct (moved.mem_iff.2 (mem_of_find? there))
      exact found.symm.trans held

/-- Where names are distinct, sorting leaves what every name stands for. -/
theorem find?_sorted {fields : Fields α} (distinct : fields.names.Nodup) (name : String) :
    find? name (sorted fields) = find? name fields :=
  find?_eq_of_perm (sorted_isSorted fields).nodup (sorted_perm distinct) name

/-- Entries with the same names in the same places; what two of them stand for is related. -/
def Matched (related : α → β → Prop) : Fields α → Fields β → Prop :=
  List.Forall₂ fun one other => one.1 = other.1 ∧ related one.2 other.2

/-- A name stands for related values in matched entries, or for nothing in both. -/
theorem Matched.find? {related : α → β → Prop} {fields : Fields α} {others : Fields β}
    (matched : Matched related fields others) (name : String) :
    Option.Rel related (Fields.find? name fields) (Fields.find? name others) := by
  induction matched with
  | nil => exact .none
  | @cons one two fields others same matched ih =>
    obtain ⟨first, held⟩ := one
    obtain ⟨_, kept⟩ := two
    obtain ⟨rfl, relates⟩ := same
    rw [Fields.find?, Fields.find?]
    split
    · exact .some relates
    · exact ih

/-- Entries with matched ones have the same names. -/
theorem Matched.names_eq {related : α → β → Prop} {fields : Fields α} {others : Fields β}
    (matched : Matched related fields others) : fields.names = others.names := by
  induction matched with
  | nil => rfl
  | cons same _ ih => exact congrArg₂ List.cons same.1 ih

/-- Entries stay matched when related values are inserted under one name. -/
theorem Matched.insert {related : α → β → Prop} {fields : Fields α} {others : Fields β}
    (matched : Matched related fields others) (name : String) {value : α} {other : β}
    (relates : related value other) :
    Matched related (fields.insert name value) (others.insert name other) := by
  induction matched with
  | nil => exact .cons ⟨rfl, relates⟩ .nil
  | @cons one two fields others same matched ih =>
    obtain ⟨first, held⟩ := one
    obtain ⟨second, kept⟩ := two
    obtain ⟨rfl, heldKept⟩ := same
    rw [Fields.insert, Fields.insert]
    split
    · exact .cons ⟨rfl, relates⟩ (.cons ⟨rfl, heldKept⟩ matched)
    · split
      · exact .cons ⟨rfl, relates⟩ matched
      · exact .cons ⟨rfl, heldKept⟩ ih

/-- Matched entries stay matched when they are sorted. -/
theorem Matched.sorted {related : α → β → Prop} {pairs : Fields α} {others : Fields β}
    (matched : Matched related pairs others) :
    Matched related (Fields.sorted pairs) (Fields.sorted others) := by
  suffices ∀ (fields : Fields α) (kept : Fields β), Matched related fields kept →
      Matched related
        (pairs.foldl (fun fields (name, value) => fields.insert name value) fields)
        (others.foldl (fun fields (name, value) => fields.insert name value) kept) from
    this [] [] .nil
  induction matched with
  | nil => exact fun fields kept before => before
  | @cons one two pairs others same matched ih =>
    intro fields kept before
    obtain ⟨name, value⟩ := one
    obtain ⟨_, other⟩ := two
    obtain ⟨rfl, relates⟩ := same
    exact ih _ _ (before.insert name relates)

/-- Putting a new name adds its entry at the end. -/
theorem put_of_fresh {name : String} (value : α) {fields : Fields α}
    (fresh : name ∉ fields.names) : fields.put name value = fields ++ [(name, value)] := by
  induction fields with
  | nil => rfl
  | cons entry rest ih =>
    obtain ⟨other, old⟩ := entry
    simp only [names, List.map_cons, List.mem_cons, not_or] at fresh
    rw [put, if_neg (Ne.symm fresh.1), ih fresh.2, List.cons_append]

/-- Putting a name that is there keeps all names in their places. -/
theorem names_put_of_mem {name : String} (value : α) {fields : Fields α}
    (there : name ∈ fields.names) : (fields.put name value).names = fields.names := by
  induction fields with
  | nil => exact absurd there List.not_mem_nil
  | cons entry rest ih =>
    obtain ⟨other, old⟩ := entry
    rw [put]
    split
    · rfl
    · rename_i different
      have later := (List.mem_cons.1 there).resolve_left (Ne.symm different)
      exact congrArg (other :: ·) (ih later)

/-- Putting a name keeps names distinct. -/
theorem nodup_put {fields : Fields α} (distinct : fields.names.Nodup) (name : String) (value : α) :
    (fields.put name value).names.Nodup := by
  by_cases fresh : name ∈ fields.names
  · rw [names_put_of_mem value fresh]
    exact distinct
  · rw [put_of_fresh value fresh, names, List.map_append, List.nodup_append]
    refine ⟨distinct, by simp, fun first there second last => ?_⟩
    rintro rfl
    obtain rfl := List.mem_singleton.1 last
    exact fresh there

/-- What a name stands for after another one was put is what was put, or stood there before. -/
theorem mem_of_mem_put {name : String} {value : α} {fields : Fields α} {entry : String × α}
    (mem : entry ∈ fields.put name value) : entry = (name, value) ∨ entry ∈ fields := by
  induction fields with
  | nil => exact .inl (List.mem_singleton.1 mem)
  | cons first rest ih =>
    obtain ⟨other, old⟩ := first
    rw [put] at mem
    split at mem
    · rename_i same
      subst same
      rcases List.mem_cons.1 mem with here | later
      · exact .inl here
      · exact .inr (List.mem_cons_of_mem _ later)
    · rcases List.mem_cons.1 mem with here | later
      · exact .inr (here ▸ List.mem_cons_self)
      · exact (ih later).imp_right (List.mem_cons_of_mem _)

/-- Entries given one after the other have each name once, and each stands for what was given. -/
theorem ofPairs_of_pairs (pairs : List (String × α)) :
    (ofPairs pairs).names.Nodup ∧ ∀ entry ∈ ofPairs pairs, entry ∈ pairs := by
  suffices ∀ fields : Fields α, fields.names.Nodup →
      (pairs.foldl (fun fields (name, value) => fields.put name value) fields).names.Nodup ∧
      ∀ entry ∈ pairs.foldl (fun fields (name, value) => fields.put name value) fields,
        entry ∈ pairs ∨ entry ∈ fields by
    obtain ⟨distinct, given⟩ := this [] List.nodup_nil
    exact ⟨distinct, fun entry mem => (given entry mem).resolve_right List.not_mem_nil⟩
  induction pairs with
  | nil => exact fun fields distinct => ⟨distinct, fun entry mem => .inr mem⟩
  | cons pair pairs ih =>
    intro fields distinct
    obtain ⟨nodup, given⟩ := ih _ (nodup_put distinct pair.1 pair.2)
    refine ⟨nodup, fun entry mem => ?_⟩
    rcases given entry mem with later | before
    · exact .inl (List.mem_cons_of_mem _ later)
    · rcases mem_of_mem_put before with rfl | before
      · exact .inl List.mem_cons_self
      · exact .inr before

/-- Entries with distinct names, given one after the other, stay as they are. -/
theorem ofPairs_of_nodup {pairs : Fields α} (distinct : pairs.names.Nodup) :
    ofPairs pairs = pairs := by
  suffices ∀ fields : Fields α, (names fields ++ names pairs).Nodup →
      pairs.foldl (fun fields (name, value) => fields.put name value) fields = fields ++ pairs from
    this [] distinct
  clear distinct
  induction pairs with
  | nil => simp
  | cons entry rest ih =>
    obtain ⟨name, value⟩ := entry
    intro fields distinct
    have fresh : name ∉ fields.names := fun mem =>
      (List.nodup_append.1 distinct).2.2 name mem name (by simp [names]) rfl
    have appended : (names (fields ++ [(name, value)]) ++ names rest).Nodup := by
      simpa [names] using distinct
    simp only [List.foldl_cons, put_of_fresh value fresh, ih _ appended, List.append_assoc,
      List.singleton_append]

/-- What any name stands for after one was put. -/
theorem find?_put (name other : String) (value : α) (fields : Fields α) :
    find? other (fields.put name value) =
      if other = name then some value else find? other fields := by
  split
  · rename_i same
    rw [same, find?_put_self]
  · rename_i different
    exact find?_put_of_ne value fields different

/-- Of entries given one after the other the last one is put into what the others come to. -/
theorem ofPairs_concat (pairs : List (String × α)) (name : String) (value : α) :
    ofPairs (pairs ++ [(name, value)]) = (ofPairs pairs).put name value := by
  rw [ofPairs, List.foldl_append]
  rfl

/-- Entries given one after the other have their names in the order in which these first came up,
each once. -/
theorem names_ofPairs (pairs : Fields α) : (ofPairs pairs).names = pairs.names.eraseDups := by
  induction pairs using List.reverseRecOn with
  | nil => rfl
  | append_singleton pairs pair ih =>
    obtain ⟨name, value⟩ := pair
    have listed : names (pairs ++ [(name, value)]) = names pairs ++ [name] := List.map_append
    have known : name ∈ names (ofPairs pairs) ↔ name ∈ names pairs := by
      rw [ih, List.mem_eraseDups]
    rw [ofPairs_concat, listed, List.eraseDups_append, ← ih]
    by_cases there : name ∈ names pairs
    · have nothing : [name].removeAll (names pairs) = [] := by simp [List.removeAll, there]
      rw [names_put_of_mem value (known.2 there), nothing, List.eraseDups_nil, List.append_nil]
    · have fresh : [name].removeAll (names pairs) = [name] := by simp [List.removeAll, there]
      have added : names ((ofPairs pairs).put name value) = names (ofPairs pairs) ++ [name] := by
        rw [put_of_fresh value (mt known.1 there), names, List.map_append]
        rfl
      rw [added, fresh]
      rfl

/-- Of entries given one after the other every name stands for what was given last. -/
theorem find?_ofPairs (name : String) (pairs : Fields α) :
    find? name (ofPairs pairs) = find? name pairs.reverse := by
  induction pairs using List.reverseRecOn with
  | nil => rfl
  | append_singleton pairs pair ih =>
    obtain ⟨last, value⟩ := pair
    rw [ofPairs_concat, find?_put, ih, List.reverse_append, List.reverse_singleton,
      List.singleton_append, find?]
    by_cases same : last = name
    · rw [if_pos same, if_pos same.symm]
    · rw [if_neg same, if_neg (Ne.symm same)]

/-- Entries with distinct names are determined by the order of the names and by what each of them
stands for. -/
theorem eq_of_names_eq {fields others : Fields α} (distinct : fields.names.Nodup)
    (order : fields.names = others.names)
    (alike : ∀ name, find? name fields = find? name others) : fields = others := by
  have same : fields.map Prod.fst = others.map Prod.fst := order
  have otherDistinct : others.names.Nodup := order ▸ distinct
  have length : fields.length = others.length := by
    have lengths := congrArg List.length same
    rwa [List.length_map, List.length_map] at lengths
  apply List.ext_getElem length
  intro position here there
  have name : (fields[position]).1 = (others[position]).1 := by
    have named := List.getElem_of_eq same (by rwa [List.length_map])
    rwa [List.getElem_map, List.getElem_map] at named
  have held : find? (fields[position]).1 fields = some (fields[position]).2 :=
    find?_of_mem distinct (List.getElem_mem here)
  have kept : find? (others[position]).1 others = some (others[position]).2 :=
    find?_of_mem otherDistinct (List.getElem_mem there)
  have value : (fields[position]).2 = (others[position]).2 := by
    rw [alike, name, kept] at held
    exact (Option.some.inj held).symm
  exact Prod.ext name value

/-- Entries stay matched when related values are put under one name. -/
theorem Matched.put {related : α → β → Prop} {fields : Fields α} {others : Fields β}
    (matched : Matched related fields others) (name : String) {value : α} {other : β}
    (relates : related value other) :
    Matched related (fields.put name value) (others.put name other) := by
  induction matched with
  | nil => exact .cons ⟨rfl, relates⟩ .nil
  | @cons one two fields others same matched ih =>
    obtain ⟨first, held⟩ := one
    obtain ⟨second, kept⟩ := two
    obtain ⟨rfl, heldKept⟩ := same
    rw [Fields.put, Fields.put]
    split
    · exact .cons ⟨rfl, relates⟩ matched
    · exact .cons ⟨rfl, heldKept⟩ ih

/-- Matched entries that are given one after the other come to matched entries. -/
theorem Matched.ofPairs {related : α → β → Prop} {pairs : Fields α} {others : Fields β}
    (matched : Matched related pairs others) :
    Matched related (Fields.ofPairs pairs) (Fields.ofPairs others) := by
  suffices ∀ (fields : Fields α) (kept : Fields β), Matched related fields kept →
      Matched related
        (pairs.foldl (fun fields (name, value) => fields.put name value) fields)
        (others.foldl (fun fields (name, value) => fields.put name value) kept) from
    this [] [] .nil
  induction matched with
  | nil => exact fun fields kept before => before
  | @cons one two pairs others same matched ih =>
    intro fields kept before
    obtain ⟨name, value⟩ := one
    obtain ⟨_, other⟩ := two
    obtain ⟨rfl, relates⟩ := same
    exact ih _ _ (before.put name relates)

/-- Entries with distinct names are the same when they are sorted if each name stands for the same
in them, in whatever order they are. -/
theorem sorted_eq_of_find?_eq {fields others : Fields α} (distinct : fields.names.Nodup)
    (otherDistinct : others.names.Nodup) (alike : ∀ name, find? name fields = find? name others) :
    sorted fields = sorted others := by
  have names_sorted {entries : Fields α} (apart : entries.names.Nodup) :
      (sorted entries).names.Perm entries.names := (sorted_perm apart).map Prod.fst
  have same : fields.names.Perm others.names := by
    refine (List.perm_ext_iff_of_nodup distinct otherDistinct).2 fun name => ?_
    rw [← find?_isSome_iff, ← find?_isSome_iff, alike]
  have order : (sorted fields).names = (sorted others).names := by
    have moved := (names_sorted distinct).trans (same.trans (names_sorted otherDistinct).symm)
    refine moved.eq_of_pairwise (fun a b _ _ less greater => ?_) (sorted_isSorted fields)
      (sorted_isSorted others)
    exact absurd (String.lt_trans less greater) (String.lt_irrefl a)
  refine eq_of_names_eq (sorted_isSorted fields).nodup order fun name => ?_
  rw [find?_sorted distinct, find?_sorted otherDistinct, alike]

end Interchange.Fields
