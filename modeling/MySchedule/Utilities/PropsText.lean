import Mathlib.Algebra.Order.BigOperators.Group.List
import Mathlib.Algebra.Order.Group.Nat
import Mathlib.Data.List.Sort
import Mathlib.Data.List.TakeWhile
import MySchedule.Java.PropertiesBounds

/-!
# Properties as text

`Utils.propsToText` prints `name = value` without an escape, and
`Utils.loadPropertiesFromText` reads the format of `java.util.Properties`. What was
printed is read back when no name and no value has a unit that the format gives a
meaning, and only then.
-/

namespace MySchedule.Utilities

open Java Java.PropertiesFormat Keyed List

/-- The values of the system property `line.separator`. -/
inductive LineSeparator
  | lineFeed
  | carriageReturn
  | both
  deriving DecidableEq, Repr

def LineSeparator.units : LineSeparator → Text
  | .lineFeed => [PropertiesFormat.lineFeed]
  | .carriageReturn => [PropertiesFormat.carriageReturn]
  | .both => [PropertiesFormat.carriageReturn, PropertiesFormat.lineFeed]

/-- `name + " = " + value`. -/
def printed (name value : Text) : Text := name ++ text " = " ++ value

/-- The names in the order in which they are printed. -/
def sortedNames (configProps : LinkedMap Text Text) : List Text :=
  configProps.keys.insertionSort (· ≤ ·)

/-- `configProps.getProperty(name)`, as a part of a string. -/
def propertyText (configProps : LinkedMap Text Text) (name : Text) : Text :=
  (configProps.get name).getD (text "null")

def propsToText (separator : LineSeparator) (configProps : LinkedMap Text Text) : Text :=
  (sortedNames configProps).flatMap fun name =>
    printed name (propertyText configProps name) ++ separator.units

def loadPropertiesFromText (configPropsText : Text) :
    Except Throwable (LinkedMap Text Text) :=
  match load configPropsText with
  | .error e => .error (.caused (.runtimeException "RuntimeException")
      (some "Failed to create Properties from input text.") e)
  | .ok config => .ok config

/-- The text of the properties loads, and as equal properties. -/
def RoundTrips (separator : LineSeparator) (p : LinkedMap Text Text) : Prop :=
  ∃ q, loadPropertiesFromText (propsToText separator p) = .ok q ∧ ∀ name, q.get name = p.get name

/-- No unit of the name ends the name, starts an escape or ends the line, and the line is no
comment. -/
def PlainName (name : Text) : Prop :=
  (∀ c ∈ name, isTerminator c = false ∧ c ≠ backslash ∧ isBreak c = false) ∧
    isComment name = false

/-- No unit of the value starts an escape or ends the line, and the first one is no blank. -/
def PlainValue (value : Text) : Prop :=
  (∀ c ∈ value, c ≠ backslash ∧ isBreak c = false) ∧ skipBlanks value = value

section Printed

variable {b : Bool} {name value s t : Text} {p : Text × Text}

/-- A key is part of what stands before the printed separator, unless a backslash escapes
the blank of that separator. -/
theorem splitKey_cases (b : Bool) (s t : Text) :
    (splitKey b (s ++ unit ' ' :: unit '=' :: t)).1 <+: s ∨
      (splitKey b (s ++ unit ' ' :: unit '=' :: t)).1 = s ++ [unit ' '] ∧
        (backslash ∈ s ∨ b = true) := by
  induction s generalizing b with
  | nil =>
    cases b with
    | false =>
      left
      exact List.prefix_rfl
    | true =>
      right
      exact ⟨rfl, .inr rfl⟩
  | cons c s ih =>
    rw [List.cons_append, splitKey]
    split
    · left
      exact List.nil_prefix
    · rcases ih (c = backslash && !b) with hstart | ⟨heq, hslash⟩
      · left
        exact (List.prefix_cons_inj c).mpr hstart
      · right
        refine ⟨congrArg (c :: ·) heq, .inl ?_⟩
        rcases hslash with hslash | hc
        · exact List.mem_cons_of_mem c hslash
        · rw [Bool.and_eq_true, decide_eq_true_eq] at hc
          rw [hc.1]
          exact List.mem_cons_self ..

/-- Without backslashes a key ends at its first terminator. -/
theorem splitKey_of_plain (hs : backslash ∉ s) (t : Text) :
    (splitKey false (s ++ unit ' ' :: t)).1 = s.takeWhile (fun c => !isTerminator c) := by
  induction s with
  | nil => rfl
  | cons c s ih =>
    rw [List.mem_cons, not_or] at hs
    rw [List.cons_append, splitKey, List.takeWhile_cons]
    cases hc : isTerminator c with
    | true => rfl
    | false => simp [Ne.symm hs.1, ih hs.2]

/-- A key without terminators and backslashes is split off whole. -/
theorem splitKey_of_noTerminator (hs : ∀ c ∈ s, isTerminator c = false ∧ c ≠ backslash)
    (hc : isTerminator c = true) : splitKey false (s ++ c :: t) = (s, c :: t) := by
  induction s with
  | nil => simp [splitKey, hc]
  | cons d s ih =>
    obtain ⟨hd, hne⟩ := hs d (List.mem_cons_self ..)
    have hrest := ih fun d hd => hs d (List.mem_cons_of_mem _ hd)
    rw [List.cons_append, splitKey]
    simp [hd, hne, hrest]

/-- The text of a line after its leading blanks. -/
theorem skipBlanks_printed (name value : Text) :
    skipBlanks (printed name value) =
      if skipBlanks name = [] then unit '=' :: unit ' ' :: value
      else skipBlanks name ++ unit ' ' :: unit '=' :: unit ' ' :: value := by
  rw [printed, List.append_assoc]
  change (name ++ (unit ' ' :: unit '=' :: unit ' ' :: value)).dropWhile isBlank = _
  rw [List.dropWhile_append]
  simp only [List.isEmpty_iff]
  rfl

/-- A key is no larger than what stands before the printed separator, and as large only when
that is all plain. -/
theorem size_key_le {key : Text}
    (h : loadConvert (splitKey false (s ++ unit ' ' :: unit '=' :: t)).1 = .ok key) :
    size key ≤ size s ∧ (size key = size s → ∀ c ∈ s, isTerminator c = false ∧ c ≠ backslash) := by
  by_cases hs : backslash ∈ s
  · have hslash : slashes s ≠ 0 := fun hzero => slashes_eq_zero.mp hzero hs
    have hlt : size key < size s := by
      rcases splitKey_cases false s t with hstart | ⟨heq, _⟩
      · rcases size_loadConvert h with ⟨hplain, rfl⟩ | hlt
        · have hlength := hstart.length_le
          rw [size_of_plain hplain, size]
          omega
        · have hle : size (splitKey false (s ++ unit ' ' :: unit '=' :: t)).1 ≤ size s :=
            Nat.add_le_add hstart.length_le (hstart.sublist.count_le _)
          omega
      · rw [heq] at h
        rcases size_loadConvert h with ⟨hplain, _⟩ | hlt
        · exact absurd (List.mem_append_left _ hs) hplain
        · rw [size_append] at hlt
          have hblank : size [unit ' '] = 1 := by decide
          omega
    exact ⟨hlt.le, fun heq => absurd heq hlt.ne⟩
  · rw [splitKey_of_plain hs] at h
    have hsub : backslash ∉ s.takeWhile fun c => !isTerminator c :=
      fun hmem => hs ((List.takeWhile_prefix _).subset hmem)
    rw [loadConvert_of_plain hsub] at h
    rw [← Except.ok.inj h, size_of_plain hsub, size_of_plain hs]
    refine ⟨(List.takeWhile_prefix _).length_le, fun hlength c hc => ?_⟩
    have hself := (List.takeWhile_prefix (fun c => !isTerminator c)).eq_of_length hlength
    have hterminator := List.mem_takeWhile_imp (hself.symm ▸ hc)
    exact ⟨by simpa using hterminator, fun heq => hs (heq ▸ hc)⟩

/-- The key that is read back is no larger than the name, and as large only when the name is
plain. -/
theorem size_name_le (h : property (skipBlanks (printed name value)) = .ok p) :
    size p.1 ≤ size name ∧ (size p.1 = size name →
      ∀ c ∈ name, isTerminator c = false ∧ c ≠ backslash) := by
  obtain ⟨key, hkey, h⟩ := ok_of_bind h
  obtain ⟨v, _, h⟩ := ok_of_bind h
  rw [← Except.ok.inj h]
  change size key ≤ size name ∧ (size key = size name → _)
  have hskip := size_skipBlanks name
  rw [skipBlanks_printed] at hkey
  split at hkey
  · have hnil : key = [] := (Except.ok.inj (hkey : loadConvert [] = .ok key)).symm
    subst hnil
    refine ⟨Nat.zero_le _, fun hsize c hc => ?_⟩
    cases name with
    | nil => cases hc
    | cons d name =>
      rw [size_nil, size_cons] at hsize
      omega
  · obtain ⟨hle, heq⟩ := size_key_le hkey
    refine ⟨hle.trans hskip, fun hsize => ?_⟩
    have hlength : (skipBlanks name).length = name.length := by
      have hname : size (skipBlanks name) = size name := by omega
      rw [size, size, slashes_skipBlanks] at hname
      omega
    have hname : skipBlanks name = name := (skipBlanks_suffix name).eq_of_length hlength
    rw [hname] at heq hle
    exact heq hsize

/-- The line of a plain name: the value is what follows the separator and its blanks. -/
theorem property_printed (hname : ∀ c ∈ name, isTerminator c = false ∧ c ≠ backslash) :
    property (skipBlanks (printed name value)) =
      (loadConvert (skipBlanks value)).map fun value => (name, value) := by
  have hplain : loadConvert name = .ok name :=
    loadConvert_of_plain fun hmem => (hname backslash hmem).2 rfl
  have hraw : ∀ rest, rawValue (unit '=' :: unit ' ' :: rest) = skipBlanks rest := fun rest => rfl
  have hskip : skipBlanks name = name :=
    skipBlanks_of_noTerminator fun c hc => (hname c hc).1
  rw [skipBlanks_printed, hskip]
  split
  · next hempty =>
    subst hempty
    rw [property]
    change (loadConvert [] >>= fun key => _) = _
    rw [hplain]
    change (loadConvert (skipBlanks value) >>= fun value => _) = _
    cases loadConvert (skipBlanks value) <;> rfl
  · rw [property, splitKey_of_noTerminator hname rfl]
    change (loadConvert name >>= fun key => _) = _
    rw [hplain]
    change (loadConvert (skipBlanks value) >>= fun value => _) = _
    cases loadConvert (skipBlanks value) <;> rfl

/-- A value that is read back as it was has no escape and no leading blank. -/
theorem plain_of_loadConvert (h : loadConvert (skipBlanks value) = .ok value) :
    backslash ∉ value ∧ skipBlanks value = value := by
  have hskip := size_skipBlanks value
  rcases size_loadConvert h with ⟨hplain, heq⟩ | hlt
  · rw [← heq] at hplain
    exact ⟨hplain, heq.symm⟩
  · omega

end Printed

section Lines

variable {separator : LineSeparator}

/-- A line without breaks, up to its separator. -/
theorem naturalLines_line {line : Text} (hline : Unbroken line) (t : Text) (b : Bool)
    (hb : b = true → line ≠ []) :
    naturalLines b (line ++ (separator.units ++ t)) =
      line :: naturalLines (separator = .carriageReturn) t := by
  induction line generalizing b with
  | nil =>
    have hfalse : b = false := by
      cases b with
      | true => exact absurd rfl (hb rfl)
      | false => rfl
    subst hfalse
    cases separator <;> rfl
  | cons c line ih =>
    have hbreak := hline c (List.mem_cons_self ..)
    rw [isBreak, Bool.or_eq_false_iff, decide_eq_false_iff_not, decide_eq_false_iff_not] at hbreak
    rw [List.cons_append, naturalLines, if_neg hbreak.2, if_neg hbreak.1,
      ih hline.tail false fun h => absurd h Bool.false_ne_true]
    rfl

/-- Lines ended by the separator are the natural lines, and an empty one after them. -/
theorem naturalLines_flatMap {lines : List Text}
    (hlines : ∀ line ∈ lines, Unbroken line ∧ line ≠ []) (b : Bool) :
    naturalLines b (lines.flatMap (· ++ separator.units)) = lines ++ [[]] := by
  induction lines generalizing b with
  | nil => rfl
  | cons line lines ih =>
    obtain ⟨hline, hne⟩ := hlines line (List.mem_cons_self ..)
    rw [List.flatMap_cons, List.append_assoc, naturalLines_line hline _ b fun _ => hne,
      ih fun t ht => hlines t (List.mem_cons_of_mem line ht)]
    rfl

/-- The separators add no backslash. -/
theorem slashes_flatMap (lines : List Text) :
    slashes (lines.flatMap (· ++ separator.units)) = (lines.map slashes).sum := by
  have hunits : slashes separator.units = 0 := by cases separator <;> decide
  induction lines with
  | nil => rfl
  | cons line lines ih =>
    rw [List.flatMap_cons, slashes_append, slashes_append, hunits, ih, List.map_cons,
      List.sum_cons, Nat.add_zero]

end Lines

section Entries

variable {p : LinkedMap Text Text}

/-- The properties in the order in which they are printed. -/
def entries (p : LinkedMap Text Text) : List (Text × Text) :=
  (sortedNames p).map fun name => (name, propertyText p name)

/-- The lines that are printed, without their separators. -/
def printedLines (p : LinkedMap Text Text) : List Text :=
  (entries p).map fun e => printed e.1 e.2

/-- The text is the printed lines, each ended by the separator. -/
theorem propsToText_eq (separator : LineSeparator) (p : LinkedMap Text Text) :
    propsToText separator p = (printedLines p).flatMap (· ++ separator.units) := by
  rw [propsToText, printedLines, entries, List.map_map, List.flatMap_map]
  rfl

/-- An entry is a name with the value it has. -/
theorem mem_entries {name value : Text} : (name, value) ∈ entries p ↔ p.get name = some value := by
  have hmem : ∀ name, name ∈ sortedNames p ↔ p.get name ≠ none := fun name =>
    (List.perm_insertionSort _ _).mem_iff.trans (p.mem_keys name)
  rw [entries, List.mem_map]
  constructor
  · rintro ⟨name', hname, he⟩
    obtain ⟨v, hv⟩ := Option.ne_none_iff_exists'.mp ((hmem name').mp hname)
    cases he
    rw [propertyText, hv]
    rfl
  · intro hvalue
    refine ⟨name, (hmem name).mpr (by simp [hvalue]), ?_⟩
    rw [propertyText, hvalue]
    rfl

/-- No name has two entries. -/
theorem nodup_names (p : LinkedMap Text Text) : ((entries p).map Prod.fst).Nodup := by
  rw [entries, List.map_map]
  change ((sortedNames p).map id).Nodup
  rw [List.map_id]
  exact (List.perm_insertionSort _ _).nodup_iff.mpr p.nodup

/-- The printed lines have the backslashes of the names and values. -/
theorem sum_slashes_printedLines (p : LinkedMap Text Text) :
    ((printedLines p).map slashes).sum =
      ((entries p).map fun e => slashes e.1 + slashes e.2).sum := by
  rw [printedLines, List.map_map]
  congr 1
  apply List.map_congr_left
  intro e _
  have hseparator : slashes (text " = ") = 0 := by decide
  change slashes (printed e.1 e.2) = _
  rw [printed, slashes_append, slashes_append, hseparator, Nat.add_zero]

end Entries

section RoundTrip

variable {separator : LineSeparator} {p : LinkedMap Text Text} {ps : List (Text × Text)}

/-- `ps` are the properties of the logical lines of the text. -/
def Loads (separator : LineSeparator) (p : LinkedMap Text Text) (ps : List (Text × Text)) : Prop :=
  Forall₂ (fun line e => property line = .ok e)
    (logicalLines none (naturalLines false (propsToText separator p))) ps

/-- Every property is among those of the lines. -/
theorem RoundTrips.loads (h : RoundTrips separator p) :
    ∃ ps, Loads separator p ps ∧ (entries p).Subperm ps := by
  obtain ⟨q, hload, hget⟩ := h
  rw [loadPropertiesFromText] at hload
  cases hq : load (propsToText separator p) with
  | error e =>
    rw [hq] at hload
    cases hload
  | ok config =>
    rw [hq] at hload
    cases hload
    obtain ⟨ps, hps, rfl⟩ := loadLines_eq_ok hq
    refine ⟨ps, hps, List.subperm_of_subset ((nodup_names p).of_map _) ?_⟩
    rintro ⟨name, value⟩ he
    exact mem_of_get_putAll ((hget name).trans (mem_entries.mp he))

/-- Fewer entries do not add up to more. -/
theorem sum_le_of_subperm {es : List (Text × Text)} (h : es.Subperm ps) (f : Text × Text → ℕ) :
    (es.map f).sum ≤ (ps.map f).sum := by
  obtain ⟨l, hperm, hsub⟩ := h
  rw [← (hperm.map f).sum_eq]
  exact (hsub.map f).sum_le_sum fun n _ => Nat.zero_le n

/-- No name and no value has a line break, and no line goes on. -/
theorem Loads.unbroken (h : Loads separator p ps) (hsub : (entries p).Subperm ps) :
    (∀ e ∈ entries p, Unbroken e.1 ∧ Unbroken e.2) ∧
      ∀ line ∈ naturalLines false (propsToText separator p),
        continues (skipBlanks line) = false := by
  have hmarks := sum_marks_le h
  have hentries := sum_le_of_subperm hsub fun e => marks e.1 + marks e.2
  have htext : slashes (propsToText separator p) =
      ((entries p).map fun e => slashes e.1 + slashes e.2).sum := by
    rw [propsToText_eq, slashes_flatMap, sum_slashes_printedLines]
  have hle : ∀ e ∈ entries p, ∀ e', e = e' →
      slashes e'.1 + slashes e'.2 ≤ marks e.1 + marks e.2 := by
    rintro e _ _ rfl
    exact Nat.add_le_add (slashes_le_marks e.1) (slashes_le_marks e.2)
  have hrefl : Forall₂ Eq (entries p) (entries p) := forall₂_same.mpr fun _ _ => rfl
  have hsum := sum_le_of_forall₂ hrefl hle
  constructor
  · intro e he
    have hequal := forall₂_same.mp (eq_of_sum_le hrefl hle (by omega)) e he
    have hkey := slashes_le_marks e.1
    have hvalue := slashes_le_marks e.2
    exact ⟨unbroken_of_marks_le (by omega), unbroken_of_marks_le (by omega)⟩
  · intro line hline
    have hcount : (naturalLines false (propsToText separator p)).countP
        (fun line => continues (skipBlanks line)) = 0 := by omega
    simpa using List.countP_eq_zero.mp hcount line hline

/-- A printed line is never empty. -/
theorem printed_ne_nil (name value : Text) : printed name value ≠ [] := by
  simp [printed, text]

/-- Names and values without breaks are printed on a line each. -/
theorem naturalLines_propsToText (h : ∀ e ∈ entries p, Unbroken e.1 ∧ Unbroken e.2) :
    naturalLines false (propsToText separator p) = printedLines p ++ [[]] := by
  rw [propsToText_eq]
  apply naturalLines_flatMap
  intro line hline
  obtain ⟨e, he, rfl⟩ := List.mem_map.mp hline
  have hseparator : Unbroken (text " = ") := unbroken_of_marks_le (by decide)
  exact ⟨((h e he).1.append hseparator).append (h e he).2, printed_ne_nil e.1 e.2⟩

/-- Then no line is a comment, and the properties of the lines are those that were printed. -/
theorem Loads.lines (h : Loads separator p ps) (hsub : (entries p).Subperm ps) :
    (entries p).Perm ps ∧
      (∀ e ∈ entries p, isComment (skipBlanks (printed e.1 e.2)) = false) ∧
      Forall₂ (fun e e' => property (skipBlanks (printed e.1 e.2)) = .ok e') (entries p) ps := by
  obtain ⟨hbreaks, hcontinues⟩ := h.unbroken hsub
  have hnatural : naturalLines false (propsToText separator p) = printedLines p ++ [[]] :=
    naturalLines_propsToText hbreaks
  rw [hnatural] at hcontinues
  rw [Loads, hnatural, logicalLines_append_blank fun line hline =>
    hcontinues line (List.mem_append_left _ hline)] at h
  have hlength : ps.length ≤ (entries p).length := by
    have hfilter := List.length_filter_le
      (fun line => !(line = [] || isComment line)) ((printedLines p).map skipBlanks)
    rw [h.length_eq, List.length_map, printedLines, List.length_map] at hfilter
    exact hfilter
  have hperm := hsub.perm_of_length_le hlength
  have hall : ∀ line ∈ (printedLines p).map skipBlanks,
      (!(line = [] || isComment line)) = true := by
    rw [← List.length_filter_eq_length_iff, h.length_eq, ← hperm.length_eq, List.length_map,
      printedLines, List.length_map]
  rw [List.filter_eq_self.mpr hall, printedLines, List.map_map, forall₂_map_left_iff] at h
  refine ⟨hperm, fun e he => ?_, h⟩
  have hline := hall _ (List.mem_map_of_mem (f := skipBlanks)
    (List.mem_map_of_mem (f := fun e : Text × Text => printed e.1 e.2) he))
  rw [Bool.not_eq_true', Bool.or_eq_false_iff] at hline
  exact hline.2

/-- Since no key is larger than its name, and their sizes agree in all, every name is plain. -/
theorem Loads.plain_name (h : Loads separator p ps) (hsub : (entries p).Subperm ps) :
    ∀ e ∈ entries p, ∃ e' ∈ entries p, property (skipBlanks (printed e.1 e.2)) = .ok e' ∧
      ∀ c ∈ e.1, isTerminator c = false ∧ c ≠ backslash := by
  obtain ⟨hperm, _, hproperty⟩ := h.lines hsub
  have hequal := eq_of_sum_le (f := fun e => size e.1) (g := fun e' => size e'.1) hproperty
    (fun e _ e' he' => (size_name_le he').1)
    ((hperm.map fun e => size e.1).sum_eq).le
  intro e he
  obtain ⟨i, hi, rfl⟩ := List.mem_iff_getElem.mp he
  have hi' : i < ps.length := hequal.length_eq ▸ hi
  obtain ⟨hp, hsize⟩ := hequal.get hi hi'
  exact ⟨ps[i], hperm.mem_iff.mpr (List.getElem_mem hi'), hp, (size_name_le hp).2 hsize⟩

/-- A printed line is a comment if its name looks like one. -/
theorem isComment_printed {name : Text} (h : ∀ c ∈ name, isTerminator c = false)
    (value : Text) : isComment (skipBlanks (printed name value)) = isComment name := by
  rw [skipBlanks_printed, skipBlanks_of_noTerminator h]
  cases name <;> rfl

/-- Properties that round trip are plain. -/
theorem RoundTrips.plain (h : RoundTrips separator p) {name value : Text}
    (hvalue : p.get name = some value) : PlainName name ∧ PlainValue value := by
  obtain ⟨ps, hloads, hsub⟩ := h.loads
  have he := mem_entries.mpr hvalue
  obtain ⟨hname, hval⟩ := (hloads.unbroken hsub).1 _ he
  have hcomment := (hloads.lines hsub).2.1 _ he
  obtain ⟨⟨name', value'⟩, he', hproperty, hplain⟩ := hloads.plain_name hsub _ he
  rw [isComment_printed fun c hc => (hplain c hc).1] at hcomment
  rw [property_printed hplain] at hproperty
  obtain ⟨v, hv, hpair⟩ := ok_of_map hproperty
  obtain ⟨rfl, rfl⟩ := Prod.mk.inj hpair
  have hsame : v = value := Option.some.inj ((mem_entries.mp he').symm.trans hvalue)
  subst hsame
  obtain ⟨hslash, hskip⟩ := plain_of_loadConvert hv
  constructor
  · exact ⟨fun c hc => ⟨(hplain c hc).1, (hplain c hc).2, hname c hc⟩, hcomment⟩
  · exact ⟨fun c hc => ⟨fun heq => hslash (heq ▸ hc), hval c hc⟩, hskip⟩

/-- A plain property is read back from its line. -/
theorem property_of_plain {name value : Text} (hname : PlainName name) (hvalue : PlainValue value) :
    property (skipBlanks (printed name value)) = .ok (name, value) := by
  have hslash : backslash ∉ value := fun hmem => (hvalue.1 _ hmem).1 rfl
  rw [property_printed fun c hc => ⟨(hname.1 c hc).1, (hname.1 c hc).2.1⟩, hvalue.2,
    loadConvert_of_plain hslash]
  rfl

/-- The line of a plain property is neither blank nor a comment. -/
theorem line_of_plain {name value : Text} (hname : PlainName name) :
    (!(skipBlanks (printed name value) = [] || isComment (skipBlanks (printed name value)))) =
      true := by
  have hcomment : isComment (skipBlanks (printed name value)) = false :=
    (isComment_printed (fun c hc => (hname.1 c hc).1) value).trans hname.2
  have hempty : skipBlanks (printed name value) ≠ [] := by
    rw [skipBlanks_printed]
    split <;> simp
  simp [hcomment, hempty]

/-- A printed line of plain texts does not continue. -/
theorem continues_of_plain {name value : Text} (hname : PlainName name)
    (hvalue : PlainValue value) : continues (skipBlanks (printed name value)) = false := by
  have hslash : backslash ∉ printed name value := by
    have hkey : backslash ∉ name := fun hmem => (hname.1 _ hmem).2.1 rfl
    have hval : backslash ∉ value := fun hmem => (hvalue.1 _ hmem).1 rfl
    have hseparator : backslash ∉ text " = " := by decide
    simp [printed, hkey, hval, hseparator]
  apply continues_of_not_mem
  rw [← slashes_eq_zero, slashes_skipBlanks, slashes_eq_zero]
  exact hslash

/-- The properties of the lines are those that were printed, when these are plain. -/
theorem loads_entries (hplain : ∀ e ∈ entries p, PlainName e.1 ∧ PlainValue e.2) :
    Loads separator p (entries p) := by
  have hnatural : naturalLines false (propsToText separator p) = printedLines p ++ [[]] := by
    apply naturalLines_propsToText
    intro e he
    obtain ⟨hname, hvalue⟩ := hplain e he
    exact ⟨fun c hc => (hname.1 c hc).2.2, fun c hc => (hvalue.1 c hc).2⟩
  have hcontinues : ∀ line ∈ printedLines p, continues (skipBlanks line) = false := by
    intro line hline
    obtain ⟨e, he, rfl⟩ := List.mem_map.mp hline
    exact continues_of_plain (hplain e he).1 (hplain e he).2
  have hlines : ∀ line ∈ (printedLines p).map skipBlanks,
      (!(line = [] || isComment line)) = true := by
    intro line hline
    rw [printedLines, List.map_map, List.mem_map] at hline
    obtain ⟨e, he, rfl⟩ := hline
    exact line_of_plain (hplain e he).1
  rw [Loads, hnatural, logicalLines_append_blank hcontinues, List.filter_eq_self.mpr hlines,
    printedLines, List.map_map, forall₂_map_left_iff, forall₂_same]
  intro e he
  exact property_of_plain (hplain e he).1 (hplain e he).2

/-- Plain properties are read back. -/
theorem roundTrips_of_plain (h : ∀ name value, p.get name = some value →
    PlainName name ∧ PlainValue value) : RoundTrips separator p := by
  have hloads : Loads separator p (entries p) :=
    loads_entries fun e he => h e.1 e.2 (mem_entries.mp he)
  refine ⟨putAll .empty (entries p), ?_, fun name => ?_⟩
  · rw [loadPropertiesFromText, load, loadLines_of_forall₂ hloads]
  · cases hget : p.get name with
    | none =>
      cases hq : (putAll .empty (entries p)).get name with
      | none => rfl
      | some value =>
        rw [mem_entries.mp (mem_of_get_putAll hq)] at hget
        cases hget
    | some value => exact get_putAll_of_mem (nodup_names p) (mem_entries.mpr hget)

/-- The text of properties loads as equal properties exactly if every name and every value
is plain. -/
theorem roundTrips_iff (separator : LineSeparator) (p : LinkedMap Text Text) :
    RoundTrips separator p ↔
      ∀ name value, p.get name = some value → PlainName name ∧ PlainValue value :=
  ⟨fun h _ _ hvalue => h.plain hvalue, roundTrips_of_plain⟩

/-- The properties of a scheduler whose script has a Windows path. -/
def windowsPath : LinkedMap Text Text := LinkedMap.empty.put (text "script") (text "C:\\jobs")

/-- A path with a backslash does not come back. -/
theorem windowsPath_not_roundTrips : ¬ RoundTrips .lineFeed windowsPath := by
  rintro ⟨q, hload, hget⟩
  have hscript : (loadPropertiesFromText (propsToText .lineFeed windowsPath)).map
      (fun q => q.get (text "script")) = .ok (some (text "C:jobs")) := by decide +kernel
  rw [hload] at hscript
  have hloaded : q.get (text "script") = some (text "C:jobs") := Except.ok.inj hscript
  rw [hget] at hloaded
  exact absurd hloaded (by decide +kernel)

end RoundTrip

end MySchedule.Utilities
