import MySchedule.Keyed.Lists
import Mathlib.Data.List.Induction
import Mathlib.Logic.Function.Basic

/-!
# Writes that may yield to what is there

A write to a map of keyed entries either replaces what its key holds or yields to
it. What a key holds in the end is the last replacing write to it, if it held
something at the start.
-/

namespace Keyed

variable {α κ : Type} [DecidableEq κ] (key : α → κ)

/-- An entry to be written, and whether it replaces one that is there. -/
structure Write (α : Type) where
  replace : Bool
  entry : α
  deriving DecidableEq, Repr

def Write.apply (w : Write α) (m : κ → Option α) : κ → Option α :=
  if w.replace || (m (key w.entry)).isNone then
    Function.update m (key w.entry) (some w.entry)
  else m

/-- The writes one after the other. -/
def writeAll (ws : List (Write α)) (m : κ → Option α) : κ → Option α :=
  ws.foldl (fun m w => w.apply key m) m

/-- The entries of the writes that replace what is there. -/
def replacing (ws : List (Write α)) : List α := (ws.filter Write.replace).map Write.entry

variable {key} {m : κ → Option α} {k : κ} {w : Write α} {ws : List (Write α)}

theorem writeAll_append_singleton :
    writeAll key (ws ++ [w]) m = w.apply key (writeAll key ws m) := by
  simp only [writeAll, List.foldl_append, List.foldl_cons, List.foldl_nil]

theorem replacing_append_singleton :
    replacing (ws ++ [w]) = replacing ws ++ if w.replace then [w.entry] else [] := by
  cases h : w.replace <;> simp [replacing, h]

/-- On a key that holds something, only a write that replaces has an effect. -/
theorem apply_of_present (hk : m k ≠ none) : w.apply key m k =
    if w.replace = true ∧ key w.entry = k then some w.entry else m k := by
  by_cases he : key w.entry = k
  · subst he
    have hthere : (m (key w.entry)).isNone = false :=
      Option.isNone_eq_false_iff.mpr (Option.isSome_iff_ne_none.mpr hk)
    cases hr : w.replace <;> simp [Write.apply, hr, hthere]
  · unfold Write.apply
    split
    · simp [Function.update_of_ne (Ne.symm he), he]
    · simp [he]

/-- A key that holds something at the start holds the last entry that was written to replace
it, and otherwise what it held. -/
theorem writeAll_of_present (hk : m k ≠ none) (ws : List (Write α)) :
    writeAll key ws m k = (last key k (replacing ws)).or (m k) := by
  induction ws using List.reverseRecOn with
  | nil => rfl
  | append_singleton ws w ih =>
    have hthere : writeAll key ws m k ≠ none := by
      rw [ih, ne_eq, Option.or_eq_none_iff]
      exact fun h => hk h.2
    rw [writeAll_append_singleton, apply_of_present hthere, ih, replacing_append_singleton]
    cases hr : w.replace with
    | false => simp
    | true =>
      by_cases he : key w.entry = k
      · simp [last_append_singleton, he]
      · simp [last_append_singleton, he]

theorem writeAll_present (hk : m k ≠ none) (ws : List (Write α)) :
    writeAll key ws m k ≠ none := by
  rw [writeAll_of_present hk, ne_eq, Option.or_eq_none_iff]
  exact fun h => hk h.2

/-- What a key holds at the start it holds in the end exactly when the last entry that was
written to replace it, if any, is the same. -/
theorem writeAll_eq_iff {v : α} (hk : m k = some v) (ws : List (Write α)) :
    writeAll key ws m k = some v ↔ ∀ v', last key k (replacing ws) = some v' → v' = v := by
  rw [writeAll_of_present (by simp [hk]), hk]
  cases last key k (replacing ws) with
  | none => simp
  | some v' => simp

end Keyed
