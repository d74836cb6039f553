import Mathlib.Data.List.Nodup
import Mathlib.Logic.Function.Basic

/-!
# Maps in insertion order

A map that lists its keys in the order in which they were first put. To put a key
that is there replaces its value and leaves its place.
-/

namespace Keyed

/-- A map with its keys in insertion order. -/
structure LinkedMap (κ ν : Type) where
  keys : List κ
  get : κ → Option ν
  nodup : keys.Nodup
  mem_keys : ∀ k, k ∈ keys ↔ get k ≠ none

namespace LinkedMap

variable {κ ν : Type}

def empty : LinkedMap κ ν where
  keys := []
  get _ := none
  nodup := List.nodup_nil
  mem_keys k := by simp

@[simp] theorem get_empty (k : κ) : (empty : LinkedMap κ ν).get k = none := rfl

/-- The values, in the order of their keys. -/
def values (m : LinkedMap κ ν) : List ν := m.keys.filterMap m.get

theorem mem_values {m : LinkedMap κ ν} {v : ν} : v ∈ m.values ↔ ∃ k, m.get k = some v := by
  rw [values, List.mem_filterMap]
  constructor
  · rintro ⟨k, _, hv⟩
    exact ⟨k, hv⟩
  · rintro ⟨k, hv⟩
    exact ⟨k, (m.mem_keys k).mpr (by simp [hv]), hv⟩

variable [DecidableEq κ]

def put (m : LinkedMap κ ν) (k : κ) (v : ν) : LinkedMap κ ν where
  keys := if (m.get k).isSome then m.keys else m.keys ++ [k]
  get := Function.update m.get k (some v)
  nodup := by
    split
    · exact m.nodup
    · next h =>
      have hk : k ∉ m.keys := by
        rw [m.mem_keys]
        simpa using h
      exact List.nodup_append'.mpr ⟨m.nodup, List.nodup_singleton k, by simpa using hk⟩
  mem_keys := by
    intro k'
    by_cases he : k' = k
    · subst he
      rw [Function.update_self]
      split
      · next h => simpa [m.mem_keys, Option.isSome_iff_ne_none] using h
      · simp
    · rw [Function.update_of_ne he, ← m.mem_keys]
      split
      · rfl
      · simp [he]

variable {m : LinkedMap κ ν} {k k' : κ} {v : ν}

@[simp] theorem get_put_self : (m.put k v).get k = some v := Function.update_self ..

theorem get_put_of_ne (h : k' ≠ k) : (m.put k v).get k' = m.get k' := Function.update_of_ne h ..

/-- Putting a value never removes a key. -/
theorem get_put_ne_none (h : m.get k' ≠ none) : (m.put k v).get k' ≠ none := by
  by_cases he : k' = k
  · subst he
    simp
  · rwa [get_put_of_ne he]

/-- A new key comes last. -/
theorem keys_put_of_new (h : m.get k = none) : (m.put k v).keys = m.keys ++ [k] := by
  simp [put, h]

theorem keys_put_of_present (h : m.get k ≠ none) : (m.put k v).keys = m.keys := by
  simp [put, Option.isSome_iff_ne_none, h]

end LinkedMap

end Keyed
