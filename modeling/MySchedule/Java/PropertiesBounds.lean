import Mathlib.Algebra.BigOperators.Group.List.Lemmas
import Mathlib.Tactic.SplitIfs
import MySchedule.Java.PropertiesFormat

/-!
# What loading a text cannot invent

No property holds more backslashes and line breaks than its line holds backslashes, since
a line has no break of its own. A line that goes on loses its backslash, and an escape
is longer than the unit it stands for.
-/

namespace MySchedule.Java.PropertiesFormat

open Keyed List

section Sums

variable {α β : Type} {R : α → β → Prop} {f : α → ℕ} {g : β → ℕ} {as : List α} {bs : List β}

/-- Bounds on related members add up. -/
theorem sum_le_of_forall₂ (h : Forall₂ R as bs) (hle : ∀ a ∈ as, ∀ b, R a b → g b ≤ f a) :
    (bs.map g).sum ≤ (as.map f).sum := by
  induction h with
  | nil => exact le_rfl
  | @cons a b as bs hab _ ih =>
    have hhead := hle a (mem_cons_self ..) b hab
    have htail := ih fun a ha => hle a (mem_cons_of_mem _ ha)
    rw [map_cons, sum_cons, map_cons, sum_cons]
    omega

/-- They are equalities when the sums agree. -/
theorem eq_of_sum_le (h : Forall₂ R as bs) (hle : ∀ a ∈ as, ∀ b, R a b → g b ≤ f a)
    (hsum : (as.map f).sum ≤ (bs.map g).sum) :
    Forall₂ (fun a b => R a b ∧ g b = f a) as bs := by
  induction h with
  | nil => exact .nil
  | @cons a b as bs hab hrest ih =>
    have hhead := hle a (mem_cons_self ..) b hab
    have htail := fun a ha => hle a (mem_cons_of_mem _ ha)
    have hle' := sum_le_of_forall₂ hrest htail
    rw [map_cons, sum_cons, map_cons, sum_cons] at hsum
    exact .cons ⟨hab, by omega⟩ (ih htail (by omega))

end Sums

/-- The number of backslashes. -/
def slashes (t : Text) : ℕ := t.count backslash

/-- The number of backslashes and line breaks. -/
def marks (t : Text) : ℕ := t.countP fun c => c = backslash || isBreak c

/-- The length of a text in which a backslash counts twice. -/
def size (t : Text) : ℕ := t.length + slashes t

def Unbroken (t : Text) : Prop := ∀ c ∈ t, isBreak c = false

variable {b : Bool} {c : UInt16} {s t u line : Text} {lines : List Text}

@[simp] theorem slashes_nil : slashes [] = 0 := rfl

@[simp] theorem slashes_cons : slashes (c :: t) = slashes t + if c = backslash then 1 else 0 := by
  simp [slashes, List.count_cons]

/-- Backslashes add up over a concatenation. -/
@[simp] theorem slashes_append : slashes (s ++ t) = slashes s + slashes t := List.count_append ..

/-- No backslash is counted only where there is none. -/
theorem slashes_eq_zero : slashes t = 0 ↔ backslash ∉ t := List.count_eq_zero

@[simp] theorem marks_nil : marks [] = 0 := rfl

@[simp] theorem marks_cons :
    marks (c :: t) = marks t + if c = backslash || isBreak c then 1 else 0 := by
  simp [marks, List.countP_cons]

/-- A backslash is a mark. -/
theorem slashes_le_marks (t : Text) : slashes t ≤ marks t := by
  induction t with
  | nil => simp
  | cons c t ih =>
    by_cases hc : c = backslash
    · simpa [hc] using ih
    · rw [slashes_cons, marks_cons, if_neg hc]
      omega

/-- A text with no more marks than backslashes has no break. -/
theorem unbroken_of_marks_le (h : marks t ≤ slashes t) : Unbroken t := by
  induction t with
  | nil => intro c hc; cases hc
  | cons c t ih =>
    rw [marks_cons, slashes_cons] at h
    have hle := slashes_le_marks t
    by_cases hb : isBreak c = true
    · have hc : c ≠ backslash := by
        rintro rfl
        exact absurd hb (by decide)
      simp only [hb, hc, Bool.or_true, if_true, if_false] at h
      omega
    · have hrest : marks t ≤ slashes t := by
        by_cases hc : c = backslash <;> simpa [hc, hb] using h
      intro d hd
      rcases List.mem_cons.mp hd with rfl | hd
      · simpa using hb
      · exact ih hrest d hd

@[simp] theorem size_nil : size [] = 0 := rfl

/-- A backslash adds two to the size, any other character one. -/
theorem size_cons : size (c :: t) = size t + (1 + if c = backslash then 1 else 0) := by
  simp only [size, List.length_cons, slashes_cons]
  omega

/-- Sizes add up over a concatenation. -/
theorem size_append (s t : Text) : size (s ++ t) = size s + size t := by
  simp only [size, List.length_append, slashes_append]
  omega

/-- Without backslashes the size is the length. -/
theorem size_of_plain (hs : backslash ∉ s) : size s = s.length := by
  rw [size, slashes_eq_zero.mpr hs, Nat.add_zero]

/-- A rest of an unbroken text is unbroken. -/
theorem Unbroken.tail (h : Unbroken (c :: t)) : Unbroken t :=
  fun d hd => h d (List.mem_cons_of_mem c hd)

/-- Fewer characters bring no line break. -/
theorem Unbroken.of_subset (h : Unbroken t) (hs : s ⊆ t) : Unbroken s := fun c hc => h c (hs hc)

section Lines

/-- Even the empty text has a natural line. -/
theorem naturalLines_ne_nil (b : Bool) (t : Text) : naturalLines b t ≠ [] := by
  induction t generalizing b with
  | nil => simp [naturalLines]
  | cons c t ih =>
    rw [naturalLines]
    split_ifs <;> simp [ih]

/-- Natural lines hold no line break. -/
theorem unbroken_of_mem_naturalLines (h : line ∈ naturalLines b t) : Unbroken line := by
  induction t generalizing b line with
  | nil =>
    rw [naturalLines, List.mem_singleton] at h
    subst h
    intro c hc
    cases hc
  | cons c t ih =>
    have hempty : Unbroken [] := fun d hd => by cases hd
    rw [naturalLines] at h
    split_ifs at h with hr hl hb
    · rcases List.mem_cons.mp h with rfl | h
      exacts [hempty, ih h]
    · exact ih h
    · rcases List.mem_cons.mp h with rfl | h
      exacts [hempty, ih h]
    · obtain ⟨first, rest, hlines⟩ := List.exists_cons_of_ne_nil (naturalLines_ne_nil false t)
      rw [hlines, List.modifyHead_cons] at h
      rcases List.mem_cons.mp h with rfl | h
      · intro d hd
        rcases List.mem_cons.mp hd with rfl | hd
        · simp [isBreak, hr, hl]
        · have hfirst : first ∈ naturalLines false t := by
            rw [hlines]
            exact List.mem_cons_self ..
          exact ih hfirst d hd
      · exact ih (by rw [hlines]; exact List.mem_cons_of_mem _ h)

/-- Splitting into natural lines loses no backslash. -/
theorem sum_slashes_naturalLines (b : Bool) (t : Text) :
    ((naturalLines b t).map slashes).sum = slashes t := by
  induction t generalizing b with
  | nil => simp [naturalLines]
  | cons c t ih =>
    rw [naturalLines, slashes_cons]
    by_cases hr : c = carriageReturn
    · subst hr
      rw [if_pos rfl, if_neg (by decide), List.map_cons, List.sum_cons, ih]
      simp
    · by_cases hl : c = lineFeed
      · subst hl
        have hne : lineFeed ≠ backslash := by decide
        rw [if_neg hr, if_pos rfl, if_neg hne]
        cases b with
        | true => exact ih false
        | false =>
          rw [if_neg Bool.false_ne_true, List.map_cons, List.sum_cons, ih]
          simp
      · rw [if_neg hr, if_neg hl]
        obtain ⟨first, rest, hlines⟩ := List.exists_cons_of_ne_nil (naturalLines_ne_nil false t)
        have hsum := ih false
        rw [hlines, List.map_cons, List.sum_cons] at hsum
        rw [hlines, List.modifyHead_cons, List.map_cons, List.sum_cons, slashes_cons]
        omega

/-- Skipping blanks drops a beginning only. -/
theorem skipBlanks_suffix (t : Text) : skipBlanks t <:+ t := List.dropWhile_suffix _

/-- A blank is no backslash. -/
@[simp] theorem slashes_skipBlanks (t : Text) : slashes (skipBlanks t) = slashes t := by
  induction t with
  | nil => rfl
  | cons c t ih =>
    by_cases hc : isBlank c = true
    · have hne : c ≠ backslash := by
        rintro rfl
        exact absurd hc (by decide)
      rw [skipBlanks, List.dropWhile_cons_of_pos hc, slashes_cons, if_neg hne]
      exact ih
    · rw [skipBlanks, List.dropWhile_cons_of_neg hc]

/-- Skipping blanks adds nothing. -/
theorem size_skipBlanks (t : Text) : size (skipBlanks t) ≤ size t := by
  have hlength := (skipBlanks_suffix t).length_le
  rw [size, size, slashes_skipBlanks]
  omega

/-- A text without terminators has no leading blank. -/
theorem skipBlanks_of_noTerminator (h : ∀ c ∈ t, isTerminator c = false) :
    skipBlanks t = t := by
  cases t with
  | nil => rfl
  | cons c t =>
    have hc := h c (List.mem_cons_self ..)
    rw [isTerminator, Bool.or_eq_false_iff] at hc
    rw [skipBlanks, List.dropWhile_cons_of_neg (by simp [hc.1])]

/-- A last backslash continues the line, unless the one before it escapes it. -/
theorem continues_append_singleton :
    continues (t ++ [c]) = (c = backslash && !continues t) := by
  simp [continues]

/-- A line that goes on ends in a backslash. -/
theorem slashes_dropLast (h : continues line = true) :
    slashes line.dropLast + 1 = slashes line := by
  rcases List.eq_nil_or_concat line with rfl | ⟨t, c, rfl⟩
  · cases h
  · rw [List.concat_eq_append, continues_append_singleton, Bool.and_eq_true] at h
    have hc : c = backslash := of_decide_eq_true h.1
    rw [List.concat_eq_append, List.dropLast_concat, hc, slashes_append]
    simp

/-- Without a backslash no line goes on. -/
theorem continues_of_not_mem {line : Text} (h : backslash ∉ line) : continues line = false := by
  rcases List.eq_nil_or_concat line with rfl | ⟨t, c, rfl⟩
  · rfl
  · rw [List.concat_eq_append] at h ⊢
    rw [continues_append_singleton, Bool.and_eq_false_iff, decide_eq_false_iff_not]
    left
    rintro rfl
    exact h (List.mem_append_right _ (List.mem_singleton_self _))

/-- Every line that goes on loses a backslash. -/
theorem sum_slashes_logicalLines (begun : Option Text) (lines : List Text) :
    ((logicalLines begun lines).map slashes).sum +
        lines.countP (fun line => continues (skipBlanks line)) ≤
      slashes (begun.getD []) + (lines.map slashes).sum := by
  fun_induction logicalLines begun lines with
  | case1 => simp
  | case2 => simp
  | case3 begun => simp
  | case4 natural rest line hskip ih =>
    rw [Option.getD_none, slashes_nil] at ih ⊢
    rw [List.countP_cons, List.map_cons, List.sum_cons]
    have hline : slashes (skipBlanks natural) = slashes natural := slashes_skipBlanks natural
    split
    · next hcontinues =>
      have hlast := slashes_dropLast hcontinues
      omega
    · omega
  | case5 natural rest line hskip hcontinues ih =>
    rw [Option.getD_some] at ih
    rw [Option.getD_none, List.countP_cons, if_pos hcontinues, List.map_cons, List.sum_cons]
    have hline : slashes line = slashes natural := slashes_skipBlanks natural
    have hlast := slashes_dropLast hcontinues
    omega
  | case6 natural rest line hskip hcontinues ih =>
    rw [Option.getD_none] at ih ⊢
    rw [List.countP_cons, if_neg hcontinues, List.map_cons, List.sum_cons, List.map_cons,
      List.sum_cons]
    have hline : slashes line = slashes natural := slashes_skipBlanks natural
    omega
  | case7 begun natural rest line hcontinues ih =>
    rw [Option.getD_some, slashes_append] at ih
    rw [Option.getD_some, List.countP_cons, if_pos hcontinues, List.map_cons, List.sum_cons]
    have hline : slashes line = slashes natural := slashes_skipBlanks natural
    have hlast := slashes_dropLast hcontinues
    omega
  | case8 begun natural rest line hcontinues hempty ih =>
    rw [Option.getD_none, slashes_nil] at ih
    rw [List.countP_cons, if_neg hcontinues, List.map_cons, List.sum_cons]
    omega
  | case9 begun natural rest line hcontinues hempty ih =>
    rw [Option.getD_none, slashes_nil] at ih
    rw [Option.getD_some, List.countP_cons, if_neg hcontinues, List.map_cons, List.sum_cons,
      List.map_cons, List.sum_cons, slashes_append]
    have hline : slashes line = slashes natural := slashes_skipBlanks natural
    omega

/-- Unbroken texts stay unbroken when joined. -/
theorem Unbroken.append (hs : Unbroken s) (ht : Unbroken t) : Unbroken (s ++ t) := by
  intro c hc
  rcases List.mem_append.mp hc with hc | hc
  exacts [hs c hc, ht c hc]

/-- Joining continued lines brings no line break. -/
theorem unbroken_of_mem_logicalLines {begun : Option Text} (hbegun : ∀ t ∈ begun, Unbroken t)
    (hlines : ∀ t ∈ lines, Unbroken t) (h : line ∈ logicalLines begun lines) :
    Unbroken line := by
  induction lines generalizing begun with
  | nil =>
    cases begun with
    | none => cases h
    | some t =>
      rw [logicalLines] at h
      split at h
      · cases h
      · rw [List.mem_singleton.mp h]
        exact hbegun t rfl
  | cons natural rest ih =>
    have hskip : Unbroken (skipBlanks natural) :=
      (hlines natural (List.mem_cons_self ..)).of_subset (skipBlanks_suffix natural).subset
    have hlast : Unbroken (skipBlanks natural).dropLast :=
      hskip.of_subset (List.dropLast_subset _)
    have hrest : ∀ t ∈ rest, Unbroken t := fun t ht => hlines t (List.mem_cons_of_mem _ ht)
    have hnone : ∀ t ∈ (none : Option Text), Unbroken t := fun t ht => by cases ht
    cases begun with
    | none =>
      simp only [logicalLines] at h
      split at h
      · exact ih hnone hrest h
      · split at h
        · exact ih (fun t ht => Option.mem_some.mp ht ▸ hlast) hrest h
        · rcases List.mem_cons.mp h with rfl | h
          exacts [hskip, ih hnone hrest h]
    | some begun =>
      have hbegun : Unbroken begun := hbegun begun rfl
      simp only [logicalLines] at h
      split at h
      · exact ih (fun t ht => Option.mem_some.mp ht ▸ hbegun.append hlast) hrest h
      · split at h
        · exact ih hnone hrest h
        · rcases List.mem_cons.mp h with rfl | h
          exacts [hbegun.append hskip, ih hnone hrest h]

/-- Without lines that go on, the logical lines are the natural lines that are neither
blank nor comments. -/
theorem logicalLines_of_not_continues
    (h : ∀ line ∈ lines, continues (skipBlanks line) = false) :
    logicalLines none lines =
      (lines.map skipBlanks).filter fun line => !(line = [] || isComment line) := by
  induction lines with
  | nil => rfl
  | cons natural rest ih =>
    have hrest := ih fun line hline => h line (List.mem_cons_of_mem natural hline)
    rw [logicalLines, List.map_cons, List.filter_cons, hrest]
    by_cases hskip : (skipBlanks natural = [] || isComment (skipBlanks natural)) = true
    · simp [hskip]
    · simp [hskip, h natural (List.mem_cons_self ..)]

/-- A blank line at the end makes no difference to that. -/
theorem logicalLines_append_blank
    (h : ∀ line ∈ lines, continues (skipBlanks line) = false) :
    logicalLines none (lines ++ [[]]) =
      (lines.map skipBlanks).filter fun line => !(line = [] || isComment line) := by
  rw [logicalLines_of_not_continues, List.map_append, List.filter_append]
  · exact List.append_nil _
  · intro line hline
    rcases List.mem_append.mp hline with hline | hline
    · exact h line hline
    · rw [List.mem_singleton.mp hline]
      rfl

end Lines

section Convert

/-- The key and what follows it make up the line. -/
theorem splitKey_append (b : Bool) (line : Text) :
    (splitKey b line).1 ++ (splitKey b line).2 = line := by
  induction line generalizing b with
  | nil => rfl
  | cons c line ih =>
    rw [splitKey]
    split
    · rfl
    · rw [List.cons_append, ih]

/-- The value is an end of what follows the key. -/
theorem rawValue_suffix (rest : Text) : rawValue rest <:+ rest := by
  rw [rawValue]
  split
  · exact List.nil_suffix
  · next c value hskip =>
    have hsuffix : c :: value <:+ rest := hskip ▸ skipBlanks_suffix rest
    split
    · exact (skipBlanks_suffix value).trans ((List.suffix_cons c value).trans hsuffix)
    · exact hsuffix

/-- No escape stands for a backslash but the doubled one. -/
theorem backslash_of_control (h : control c = backslash) : c = backslash := by
  unfold control at h
  split_ifs at h
  all_goals first | exact h | exact absurd h (by decide)

/-- Every mark of a converted text comes from a backslash. -/
theorem marks_loadConvert (hs : Unbroken s) (h : loadConvert s = .ok u) :
    marks u ≤ slashes s := by
  fun_induction loadConvert s generalizing u with
  | case1 =>
    rw [← Except.ok.inj h]
    exact Nat.zero_le _
  | case2 =>
    rw [← Except.ok.inj h]
    exact Nat.zero_le _
  | case3 a b c d rest ih =>
    obtain ⟨decoded, _, h⟩ := ok_of_bind h
    obtain ⟨v, hv, h⟩ := ok_of_bind h
    have hrest := ih hs.tail.tail.tail.tail.tail.tail hv
    rw [← Except.ok.inj h, marks_cons]
    simp only [slashes_cons, if_true]
    split <;> omega
  | case4 => cases h
  | case5 escaped rest hu ih =>
    obtain ⟨v, hv, rfl⟩ := ok_of_map h
    have hrest := ih hs.tail.tail hv
    rw [marks_cons, slashes_cons, slashes_cons, if_pos rfl]
    split <;> omega
  | case6 c rest hc ih =>
    obtain ⟨v, hv, rfl⟩ := ok_of_map h
    have hrest := ih hs.tail hv
    have hbreak : isBreak c = false := hs c (List.mem_cons_self ..)
    rw [marks_cons, slashes_cons, hbreak]
    simp only [hc, decide_false, Bool.or_self, if_false, Bool.false_eq_true]
    exact hrest

/-- Read as written without backslashes, or shorter by two, a text has not grown. -/
theorem size_le_of_plain_or_shorter (h : (backslash ∉ s ∧ u = s) ∨ size u + 2 ≤ size s) :
    size u ≤ size s := by
  rcases h with ⟨_, rfl⟩ | hlt
  · exact le_rfl
  · omega

/-- A text without backslashes stays as it is; else it gets shorter. -/
theorem size_loadConvert (h : loadConvert s = .ok u) :
    (backslash ∉ s ∧ u = s) ∨ size u + 2 ≤ size s := by
  fun_induction loadConvert s generalizing u with
  | case1 =>
    left
    exact ⟨List.not_mem_nil, (Except.ok.inj h).symm⟩
  | case2 =>
    right
    rw [← Except.ok.inj h]
    decide
  | case3 a b c d rest ih =>
    right
    obtain ⟨decoded, _, h⟩ := ok_of_bind h
    obtain ⟨v, hv, h⟩ := ok_of_bind h
    have hrest := size_le_of_plain_or_shorter (ih hv)
    rw [← Except.ok.inj h]
    simp only [size_cons, if_true]
    split <;> omega
  | case4 => cases h
  | case5 escaped rest hu ih =>
    right
    obtain ⟨v, hv, rfl⟩ := ok_of_map h
    have hrest := size_le_of_plain_or_shorter (ih hv)
    rw [size_cons, size_cons, size_cons, if_pos rfl]
    by_cases hcontrol : control escaped = backslash
    · rw [if_pos hcontrol, if_pos (backslash_of_control hcontrol)]
      omega
    · rw [if_neg hcontrol]
      omega
  | case6 c rest hc ih =>
    obtain ⟨v, hv, rfl⟩ := ok_of_map h
    rcases ih hv with ⟨hplain, rfl⟩ | hlt
    · left
      exact ⟨by simp [hplain, Ne.symm hc], rfl⟩
    · right
      rw [size_cons, size_cons]
      omega

/-- A text without backslashes has nothing to convert. -/
theorem loadConvert_of_plain (h : backslash ∉ s) : loadConvert s = .ok s := by
  induction s with
  | nil => rw [loadConvert]
  | cons c s ih =>
    rw [List.mem_cons, not_or] at h
    rw [loadConvert.eq_def]
    simp only [if_neg (Ne.symm h.1), ih h.2]
    rfl

/-- A property has no more marks than its line has backslashes. -/
theorem marks_property {p : Text × Text} (hline : Unbroken line) (h : property line = .ok p) :
    marks p.1 + marks p.2 ≤ slashes line := by
  obtain ⟨key, hkey, h⟩ := ok_of_bind h
  obtain ⟨value, hvalue, h⟩ := ok_of_bind h
  have hsplit := splitKey_append false line
  have hsuffix := rawValue_suffix (splitKey false line).2
  have hraw : slashes (rawValue (splitKey false line).2) ≤ slashes (splitKey false line).2 :=
    hsuffix.sublist.count_le _
  have hbefore : Unbroken (splitKey false line).1 := by
    apply hline.of_subset
    conv_rhs => rw [← hsplit]
    exact List.subset_append_left _ _
  have hafter : Unbroken (rawValue (splitKey false line).2) := by
    apply hline.of_subset
    conv_rhs => rw [← hsplit]
    exact List.Subset.trans hsuffix.subset (List.subset_append_right _ _)
  have hmarks := marks_loadConvert hbefore hkey
  have hmarks' := marks_loadConvert hafter hvalue
  have hslashes := congrArg slashes hsplit
  rw [slashes_append] at hslashes
  rw [← Except.ok.inj h]
  change marks key + marks value ≤ slashes line
  omega

end Convert

/-- Loading lines: each has its property, and the last one of a key is kept. -/
theorem loadLines_eq_ok {m q : LinkedMap Text Text} (h : loadLines m lines = .ok q) :
    ∃ ps, Forall₂ (fun line p => property line = .ok p) lines ps ∧ q = putAll m ps := by
  induction lines generalizing m with
  | nil => exact ⟨[], .nil, (Except.ok.inj h).symm⟩
  | cons line lines ih =>
    obtain ⟨p, hp, h⟩ := ok_of_bind h
    obtain ⟨ps, hps, hq⟩ := ih h
    exact ⟨p :: ps, .cons hp hps, hq⟩

/-- Lines that are all read put their properties in order. -/
theorem loadLines_of_forall₂ {m : LinkedMap Text Text} {ps : List (Text × Text)}
    (h : Forall₂ (fun line p => property line = .ok p) lines ps) :
    loadLines m lines = .ok (putAll m ps) := by
  induction h generalizing m with
  | nil => rfl
  | cons hp _ ih =>
    rw [loadLines, hp]
    exact ih

/-- All properties of a text have no more marks than the text has backslashes, and fewer if a
line goes on. -/
theorem sum_marks_le {input : Text} {ps : List (Text × Text)}
    (h : Forall₂ (fun line p => property line = .ok p)
      (logicalLines none (naturalLines false input)) ps) :
    (ps.map fun p => marks p.1 + marks p.2).sum +
      (naturalLines false input).countP (fun line => continues (skipBlanks line)) ≤
        slashes input := by
  have hlines := sum_slashes_logicalLines none (naturalLines false input)
  rw [Option.getD_none, slashes_nil, sum_slashes_naturalLines] at hlines
  have hunbroken : ∀ line ∈ logicalLines none (naturalLines false input), Unbroken line := by
    intro line hline
    apply unbroken_of_mem_logicalLines _ _ hline
    · intro t ht
      cases ht
    · intro t ht
      exact unbroken_of_mem_naturalLines ht
  have hsum : (ps.map fun p => marks p.1 + marks p.2).sum ≤
      ((logicalLines none (naturalLines false input)).map slashes).sum := by
    apply sum_le_of_forall₂ h
    intro line hline p hp
    exact marks_property (hunbroken line hline) hp
  omega

end MySchedule.Java.PropertiesFormat
