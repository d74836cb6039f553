import Mathlib.Data.List.Nodup

/-!
# The first and the last entry of a key

Lists of keyed entries, duplicates allowed: the entry that wins when the first
one counts and the entry that wins when each one replaces the one before. Both
are followed along a list that grows at its end.
-/

namespace Keyed

variable {α κ : Type} [DecidableEq κ] (key : α → κ)

/-- The first entry with key `k`. -/
def first (k : κ) (xs : List α) : Option α := xs.find? fun x => key x = k

/-- The last entry with key `k`. -/
def last (k : κ) (xs : List α) : Option α := first key k xs.reverse

variable {key} {k : κ} {x : α} {xs ys : List α}

/-- What is found has the key. -/
theorem key_of_first (h : first key k xs = some x) : key x = k := by
  simpa only [decide_eq_true_eq] using List.find?_some h

/-- What is found is in the list. -/
theorem mem_of_first (h : first key k xs = some x) : x ∈ xs := List.mem_of_find?_eq_some h

/-- The first of two lists decides, if it has the key. -/
theorem first_append : first key k (xs ++ ys) = (first key k xs).or (first key k ys) := by
  simp only [first, List.find?_append]

/-- Nothing is found where no element has the key. -/
theorem first_eq_none : first key k xs = none ↔ ∀ x ∈ xs, key x ≠ k := by
  simp only [first, List.find?_eq_none, decide_eq_true_eq, ne_eq]

/-- Something is found where an element has the key. -/
theorem first_ne_none : first key k xs ≠ none ↔ k ∈ xs.map key := by
  rw [ne_eq, first_eq_none]
  simp

/-- The first entry of a key is the one that follows entries of other keys. -/
theorem first_of_new (hx : key x ∉ xs.map key) : first key (key x) (xs ++ x :: ys) = some x := by
  have h : first key (key x) xs = none := not_ne_iff.mp (mt first_ne_none.mp hx)
  rw [first_append, h, Option.none_or]
  simp [first]

/-- The last element decides, if it has the key. -/
theorem last_append_singleton :
    last key k (xs ++ [x]) = if key x = k then some x else last key k xs := by
  by_cases h : key x = k <;> simp [last, first, h]

/-- The second of two lists decides, if it has the key. -/
theorem last_append : last key k (xs ++ ys) = (last key k ys).or (last key k xs) := by
  simp only [last, List.reverse_append, first_append]

/-- What is found has the key. -/
theorem key_of_last (h : last key k xs = some x) : key x = k := key_of_first h

/-- Something is found where an element has the key. -/
theorem last_ne_none : last key k xs ≠ none ↔ k ∈ xs.map key := by
  rw [last, first_ne_none]
  simp

/-- Nothing is found where no element has the key. -/
theorem last_eq_none : last key k xs = none ↔ k ∉ xs.map key := by
  rw [← last_ne_none, not_ne_iff]

/-- An entry put in place of one of its key keeps the keys distinct. -/
theorem nodup_map_replace (h : (xs.map key).Nodup) (x : α) :
    ((xs.filter (fun y => key y ≠ key x) ++ [x]).map key).Nodup := by
  rw [List.map_append, List.nodup_append']
  refine ⟨h.sublist (List.filter_sublist.map _), by simp, ?_⟩
  simp only [List.map_cons, List.map_nil, List.disjoint_singleton, List.mem_map,
    List.mem_filter, decide_eq_true_eq, not_exists, not_and]
  exact fun y hy he => hy.2 he

/-- Another key is there if it was. -/
theorem any_replace_of_ne (key : α → κ) (xs : List α) (x : α) (hk : k ≠ key x) :
    (xs.filter (fun y => key y ≠ key x) ++ [x]).any (key · = k) = xs.any (key · = k) := by
  rw [Bool.eq_iff_iff]
  simp only [List.any_eq_true, decide_eq_true_eq, List.mem_append, List.mem_filter,
    List.mem_singleton]
  constructor
  · rintro ⟨y, hy, he⟩
    rcases hy with hy | rfl
    · exact ⟨y, hy.1, he⟩
    · exact absurd he.symm hk
  · rintro ⟨y, hy, rfl⟩
    exact ⟨y, Or.inl ⟨hy, hk⟩, rfl⟩

end Keyed
