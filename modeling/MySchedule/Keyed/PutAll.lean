import Mathlib.Data.List.Induction
import MySchedule.Keyed.LinkedMap
import MySchedule.Keyed.Lists

/-!
# Putting a list of entries into a map

A later entry of a key replaces an earlier one, so each key ends with its last value.
-/

namespace Keyed

variable {κ ν : Type} [DecidableEq κ]

/-- The entries put into a map one after the other. -/
def putAll (m : LinkedMap κ ν) (ps : List (κ × ν)) : LinkedMap κ ν :=
  ps.foldl (fun m p => m.put p.1 p.2) m

theorem get_putAll (m : LinkedMap κ ν) (ps : List (κ × ν)) (k : κ) :
    (putAll m ps).get k = ((last Prod.fst k ps).map Prod.snd).or (m.get k) := by
  induction ps using List.reverseRecOn with
  | nil => rfl
  | append_singleton ps p ih =>
    have hput : putAll m (ps ++ [p]) = (putAll m ps).put p.1 p.2 := List.foldl_append
    rw [hput, last_append_singleton]
    by_cases hp : p.1 = k
    · subst hp
      simp
    · rw [LinkedMap.get_put_of_ne (Ne.symm hp), if_neg hp, ih]

/-- What an empty map holds afterwards was put there. -/
theorem mem_of_get_putAll {ps : List (κ × ν)} {k : κ} {v : ν}
    (h : (putAll .empty ps).get k = some v) : (k, v) ∈ ps := by
  rw [get_putAll, LinkedMap.get_empty, Option.or_none, Option.map_eq_some_iff] at h
  obtain ⟨p, hlast, rfl⟩ := h
  have hp : p ∈ ps := List.mem_reverse.mp (mem_of_first hlast)
  rwa [← key_of_last hlast]

/-- Entries with distinct keys are all found. -/
theorem get_putAll_of_mem {ps : List (κ × ν)} {k : κ} {v : ν} (hnodup : (ps.map Prod.fst).Nodup)
    (h : (k, v) ∈ ps) : (putAll .empty ps).get k = some v := by
  rw [get_putAll, LinkedMap.get_empty, Option.or_none, Option.map_eq_some_iff]
  obtain ⟨p, hlast⟩ := Option.ne_none_iff_exists'.mp
    (last_ne_none.mpr (List.mem_map_of_mem (f := Prod.fst) h))
  have hp : p ∈ ps := List.mem_reverse.mp (mem_of_first hlast)
  have heq : p = (k, v) := List.inj_on_of_nodup_map hnodup hp h (key_of_last hlast)
  exact ⟨p, hlast, by rw [heq]⟩

end Keyed
