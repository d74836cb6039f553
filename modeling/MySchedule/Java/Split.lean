import Mathlib.Data.List.DropRight
import Mathlib.Data.List.Basic

/-!
# Texts with separators

`String.split` for a separator of one character, and `String.trim`. Where blank pieces are
passed over, a list comes back from its joined text exactly if each piece is one that can
come from such a text: without the separator, and not blank.
-/

namespace MySchedule.Java

section

variable {α : Type} [DecidableEq α]

/-- Split at a separator. Empty pieces at the end are dropped, but a text without the separator
is its only piece, even if it is empty. -/
def split (separator : α) (text : List α) : List (List α) :=
  if separator ∈ text then (text.splitOn separator).rdropWhile (· = []) else [text]

/-- The pieces that are kept. -/
def pieces (keep : List α → Bool) (separator : α) (text : List α) : List (List α) :=
  (split separator text).filter keep

variable {separator : α} {keep : List α → Bool} {text : List α} {words : List (List α)}

theorem notMem_of_mem_splitOn {piece : List α} (h : piece ∈ text.splitOn separator) :
    separator ∉ piece := by
  induction text generalizing piece with
  | nil =>
    rw [List.splitOn_nil, List.mem_singleton] at h
    simp [h]
  | cons c text ih =>
    rw [List.splitOn_cons_eq_if_modifyHead] at h
    obtain ⟨first, rest, hsplit⟩ := List.exists_cons_of_ne_nil (List.splitOn_ne_nil separator text)
    rw [hsplit] at h ih
    by_cases hc : c = separator
    · rw [if_pos (beq_iff_eq.mpr hc)] at h
      rcases List.mem_cons.mp h with rfl | h
      · exact List.not_mem_nil
      · exact ih h
    · rw [if_neg (by simpa using hc), List.modifyHead_cons] at h
      rcases List.mem_cons.mp h with rfl | h
      · have hfirst := ih (List.mem_cons_self ..)
        exact fun hmem => (List.mem_cons.mp hmem).elim (fun he => hc he.symm) hfirst
      · exact ih (List.mem_cons_of_mem first h)

/-- Empty pieces are not kept, so it makes no difference where they stand. -/
theorem pieces_eq (hempty : keep [] = false) (text : List α) :
    pieces keep separator text = (text.splitOn separator).filter keep := by
  unfold pieces split
  split
  · induction text.splitOn separator using List.reverseRecOn with
    | nil => rfl
    | append_singleton before piece ih =>
      by_cases hpiece : piece = []
      · rw [List.rdropWhile_concat_pos _ _ _ (by simpa using hpiece), ih, List.filter_append,
          hpiece]
        simp [hempty]
      · rw [List.rdropWhile_concat_neg _ _ _ (by simpa using hpiece)]
  · next hnot => rw [List.splitOn_eq_singleton hnot]

/-- A list comes back from its joined text exactly if its words can come from a text at all. -/
theorem pieces_intercalate_iff (hempty : keep [] = false) :
    pieces keep separator ([separator].intercalate words) = words ↔
      ∀ word ∈ words, separator ∉ word ∧ keep word = true := by
  rw [pieces_eq hempty]
  constructor
  · intro h word hword
    rw [← h, List.mem_filter] at hword
    exact ⟨notMem_of_mem_splitOn hword.1, hword.2⟩
  · intro h
    cases words with
    | nil => simp [hempty]
    | cons word words =>
      rw [List.splitOn_intercalate separator (fun word hword => (h word hword).1) (by simp),
        List.filter_eq_self]
      exact fun word hword => (h word hword).2

end

/-- `trim()`: all up to the blank goes from either end. -/
def trim (text : List Char) : List Char := (text.dropWhile (· ≤ ' ')).rdropWhile (· ≤ ' ')

end MySchedule.Java
