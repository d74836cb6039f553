import Mathlib.Logic.Function.Basic
import Mathlib.Data.Option.Basic

/-!
# Maps that remember their last writer

To say what a program has written into a shared map, and what it may rely on
while others write too, each key remembers who wrote it last. A node's own last
writes survive the writes of the others, and once every writer's last value is
the intended one, the map is.
-/

namespace Interaction

variable {κ ν ι : Type}

/-- A map together with the last writer of each key, if it was written at all. -/
structure OwnedMap (κ ν ι : Type) where
  value : κ → Option ν
  writer : κ → Option ι

namespace OwnedMap

/-- Node `i` stores `v` under `k`. -/
def write [DecidableEq κ] (m : OwnedMap κ ν ι) (i : ι) (k : κ) (v : ν) : OwnedMap κ ν ι :=
  ⟨Function.update m.value k (some v), Function.update m.writer k (some i)⟩

/-- What the others leave alone: the keys whose last writer is `i`. -/
structure Keeps (i : ι) (m m' : OwnedMap κ ν ι) : Prop where
  written : ∀ k, m.writer k ≠ none → m'.writer k ≠ none
  own : ∀ k, m'.writer k = some i → m.writer k = some i ∧ m'.value k = m.value k

/-- What `i` may do: a changed key has `i` as its last writer. -/
structure Changes (i : ι) (m m' : OwnedMap κ ν ι) : Prop where
  written : ∀ k, m.writer k ≠ none → m'.writer k ≠ none
  other : ∀ k, m'.writer k = some i ∨ m'.writer k = m.writer k ∧ m'.value k = m.value k

/-- The map differs from `base` only where somebody wrote, and holds something there. -/
structure Since (base : κ → Option ν) (m : OwnedMap κ ν ι) : Prop where
  untouched : ∀ k, m.writer k = none → m.value k = base k
  written : ∀ k, m.writer k ≠ none → m.value k ≠ none

variable {i j : ι} {m m' m'' : OwnedMap κ ν ι} {base goal : κ → Option ν}

/-- Nothing is lost where nothing changes. -/
theorem Keeps.refl (i : ι) (m : OwnedMap κ ν ι) : Keeps i m m := ⟨fun _ h => h, fun _ h => ⟨h, rfl⟩⟩

/-- Two changes that keep a writer's entries keep them together. -/
theorem Keeps.trans (h : Keeps i m m') (h' : Keeps i m' m'') : Keeps i m m'' where
  written k hk := h'.written k (h.written k hk)
  own k hk := by
    obtain ⟨hw, hv⟩ := h'.own k hk
    obtain ⟨hw', hv'⟩ := h.own k hw
    exact ⟨hw', hv.trans hv'⟩

/-- A change of one node leaves alone what another wrote. -/
theorem Changes.keeps (h : Changes i m m') (hij : i ≠ j) : Keeps j m m' where
  written := h.written
  own k hk := by
    rcases h.other k with hi | ⟨hw, hv⟩
    · exact absurd (Option.some.inj (hi.symm.trans hk)) hij
    · exact ⟨hw ▸ hk, hv⟩

section Write

variable [DecidableEq κ] {k k' : κ} {v : ν}

@[simp] theorem write_value_self : (m.write i k v).value k = some v := Function.update_self ..

@[simp] theorem write_writer_self : (m.write i k v).writer k = some i := Function.update_self ..

/-- Writing a key leaves the values of others. -/
theorem write_value_of_ne (h : k' ≠ k) : (m.write i k v).value k' = m.value k' :=
  Function.update_of_ne h ..

/-- Writing a key leaves the writers of others. -/
theorem write_writer_of_ne (h : k' ≠ k) : (m.write i k v).writer k' = m.writer k' :=
  Function.update_of_ne h ..

/-- A key that has been written stays written. -/
theorem write_writer_ne_none (h : m.writer k' ≠ none) : (m.write i k v).writer k' ≠ none := by
  by_cases hk : k' = k
  · subst hk
    simp
  · rwa [write_writer_of_ne hk]

/-- Writing is a change by its writer. -/
theorem changes_write (m : OwnedMap κ ν ι) (i : ι) (k : κ) (v : ν) :
    Changes i m (m.write i k v) where
  written _ h := write_writer_ne_none h
  other k' := by
    by_cases hk : k' = k
    · subst hk
      exact Or.inl write_writer_self
    · exact Or.inr ⟨write_writer_of_ne hk, write_value_of_ne hk⟩

/-- One more write since the base. -/
theorem Since.write (h : m.Since base) (i : ι) (k : κ) (v : ν) : (m.write i k v).Since base where
  untouched k' hk' := by
    by_cases hk : k' = k
    · subst hk
      simp at hk'
    · rw [write_writer_of_ne hk] at hk'
      rw [write_value_of_ne hk, h.untouched k' hk']
  written k' hk' := by
    by_cases hk : k' = k
    · subst hk
      simp
    · rw [write_writer_of_ne hk] at hk'
      rw [write_value_of_ne hk]
      exact h.written k' hk'

end Write

/-- Nothing was written yet. -/
def untouched (base : κ → Option ν) : OwnedMap κ ν ι := ⟨base, fun _ => none⟩

/-- Nothing has been written since the base. -/
theorem since_untouched (base : κ → Option ν) : (untouched base : OwnedMap κ ν ι).Since base :=
  ⟨fun _ _ => rfl, fun _ h => absurd rfl h⟩

/-- What was there at the start is there, as keys are never removed. -/
theorem Since.present_of_base (h : m.Since base) {k : κ} (hk : base k ≠ none) :
    m.value k ≠ none := by
  by_cases hw : m.writer k = none
  · rwa [h.untouched k hw]
  · exact h.written k hw

/-- A key that is there stays there under writes. -/
theorem Since.present_mono (h : m.Since base) (h' : m'.Since base)
    (hw : ∀ k, m.writer k ≠ none → m'.writer k ≠ none) {k : κ} (hk : m.value k ≠ none) :
    m'.value k ≠ none := by
  by_cases hn : m.writer k = none
  · rw [h.untouched k hn] at hk
    exact h'.present_of_base hk
  · exact h'.written k (hw k hn)

/-- A key that is there and was not at the start was written. -/
theorem Since.writer_of_new (h : m.Since base) {k : κ} (hk : m.value k ≠ none)
    (hb : base k = none) : m.writer k ≠ none := by
  intro hn
  rw [h.untouched k hn] at hk
  exact hk hb

/-- The last writers decide the whole map. -/
theorem Since.value_eq (h : m.Since base)
    (hgoal : ∀ k i, m.writer k = some i → m.value k = goal k)
    (hbase : ∀ k, m.writer k = none → goal k = base k) : m.value = goal := by
  funext k
  cases hw : m.writer k with
  | none => rw [h.untouched k hw, hbase k hw]
  | some i => exact hgoal k i hw

end OwnedMap

end Interaction
