import Mathlib.Data.List.Dedup
import Mathlib.Data.List.Perm.Subperm
import MySchedule.Keyed.PutAll

/-!
# The entries that are left of a list

A list of entries put into an empty map leaves the last entry of each key, at the place of the
first one. Nothing is lost exactly if no key comes twice.
-/

namespace Keyed

variable {κ ν : Type}

/-- The entries of a map, in the order of their keys. -/
def LinkedMap.entries (m : LinkedMap κ ν) : List (κ × ν) :=
  m.keys.filterMap fun k => (m.get k).map (k, ·)

variable [DecidableEq κ]

/-- Each element at its first place. -/
def firsts (xs : List κ) : List κ := xs.reverse.dedup.reverse

/-- The last entry of each key, in the order in which the keys came first. -/
def lastEntries (ps : List (κ × ν)) : List (κ × ν) :=
  (firsts (ps.map Prod.fst)).filterMap fun k => last Prod.fst k ps

theorem firsts_append_singleton (xs : List κ) (x : κ) :
    firsts (xs ++ [x]) = if x ∈ xs then firsts xs else firsts xs ++ [x] := by
  rw [firsts, List.reverse_append, List.reverse_singleton, List.singleton_append, List.dedup_cons]
  simp only [List.mem_reverse]
  split
  · rfl
  · rw [List.reverse_cons, firsts]

theorem nodup_firsts (xs : List κ) : (firsts xs).Nodup :=
  List.nodup_reverse.mpr (List.nodup_dedup _)

theorem firsts_eq_self_iff {xs : List κ} : firsts xs = xs ↔ xs.Nodup := by
  rw [firsts, List.reverse_eq_iff, List.dedup_eq_self, List.nodup_reverse]

/-- A key that does not come in the list is not in the map. -/
theorem get_putAll_eq_none_iff {ps : List (κ × ν)} {k : κ} :
    (putAll .empty ps).get k = none ↔ k ∉ ps.map Prod.fst := by
  rw [get_putAll, LinkedMap.get_empty, Option.or_none, Option.map_eq_none_iff]
  exact last_eq_none

theorem keys_putAll (ps : List (κ × ν)) :
    (putAll .empty ps).keys = firsts (ps.map Prod.fst) := by
  induction ps using List.reverseRecOn with
  | nil => rfl
  | append_singleton ps p ih =>
    have hput : putAll .empty (ps ++ [p]) = (putAll .empty ps).put p.1 p.2 := List.foldl_append
    rw [hput, List.map_append, List.map_singleton, firsts_append_singleton, ← ih]
    by_cases hp : p.1 ∈ ps.map Prod.fst
    · rw [if_pos hp, LinkedMap.keys_put_of_present fun h => get_putAll_eq_none_iff.mp h hp]
    · rw [if_neg hp, LinkedMap.keys_put_of_new (get_putAll_eq_none_iff.mpr hp)]

/-- What is left of a list in a map. -/
theorem entries_putAll (ps : List (κ × ν)) : (putAll .empty ps).entries = lastEntries ps := by
  rw [LinkedMap.entries, keys_putAll, lastEntries]
  congr 1
  funext k
  rw [get_putAll, LinkedMap.get_empty, Option.or_none]
  cases hlast : last Prod.fst k ps with
  | none => rfl
  | some p =>
    have hkey : p.1 = k := key_of_last hlast
    simp [← hkey]

theorem map_lastEntries (ps : List (κ × ν)) :
    (lastEntries ps).map Prod.fst = firsts (ps.map Prod.fst) := by
  rw [lastEntries, List.map_filterMap]
  have hself : ∀ k ∈ firsts (ps.map Prod.fst), (last Prod.fst k ps).map Prod.fst = some k := by
    intro k hk
    have hmem : k ∈ ps.map Prod.fst := by simpa [firsts] using hk
    obtain ⟨p, hlast⟩ := Option.ne_none_iff_exists'.mp (last_ne_none.mpr hmem)
    rw [hlast, Option.map_some, key_of_last hlast]
  rw [List.filterMap_congr hself, List.filterMap_some]

/-- Without a key that comes twice every entry is left. -/
theorem lastEntries_eq_self_iff {ps : List (κ × ν)} :
    lastEntries ps = ps ↔ (ps.map Prod.fst).Nodup := by
  constructor
  · intro h
    rw [← h, map_lastEntries]
    exact nodup_firsts _
  · intro h
    have hself : ∀ p ∈ ps, last Prod.fst p.1 ps = some p := by
      intro p hp
      obtain ⟨q, hlast⟩ := Option.ne_none_iff_exists'.mp
        (last_ne_none.mpr (List.mem_map_of_mem (f := Prod.fst) hp))
      have hq : q ∈ ps := List.mem_reverse.mp (mem_of_first hlast)
      rw [hlast, List.inj_on_of_nodup_map h hq hp (key_of_last hlast)]
    rw [lastEntries, firsts_eq_self_iff.mpr h, List.filterMap_map]
    exact (List.filterMap_congr hself).trans List.filterMap_some

/-- If as much is left as there was, no key comes twice. -/
theorem lastEntries_eq_self_of_length {ps : List (κ × ν)}
    (h : ps.length ≤ (lastEntries ps).length) : lastEntries ps = ps := by
  refine lastEntries_eq_self_iff.mpr (firsts_eq_self_iff.mp ?_)
  have hfirsts : (lastEntries ps).length = (firsts (ps.map Prod.fst)).length := by
    rw [← map_lastEntries, List.length_map]
  rw [hfirsts] at h
  have hsublist := List.dedup_sublist (ps.map Prod.fst).reverse
  have hlength : (ps.map Prod.fst).reverse.length ≤ (ps.map Prod.fst).reverse.dedup.length := by
    simpa [firsts] using h
  rw [firsts, hsublist.eq_of_length_le hlength, List.reverse_reverse]

/-- Where the values differ, those at the beginning of what is left are all of them only if this
is the whole list. -/
theorem eq_of_prefix_lastEntries {ps left : List (κ × ν)} (hnodup : (ps.map Prod.snd).Nodup)
    (hleft : left <+: lastEntries ps) (h : ∀ p ∈ ps, p.2 ∈ left.map Prod.snd) : left = ps := by
  have hsubset : ps.map Prod.snd ⊆ left.map Prod.snd := by
    intro v hv
    obtain ⟨p, hp, rfl⟩ := List.mem_map.mp hv
    exact h p hp
  have hlength : ps.length ≤ left.length := by
    simpa using (hnodup.subperm hsubset).length_le
  have hself := lastEntries_eq_self_of_length (Nat.le_trans hlength hleft.length_le)
  rw [hself] at hleft
  exact hleft.eq_of_length_le hlength

end Keyed
