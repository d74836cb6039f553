import Mathlib.Data.List.DropRight
import Mathlib.Data.List.Infix

/-!
# Expansions outside of double quotes

What a shell makes of the value of a variable that it is not told to quote: the value is
split into fields at blanks, and each field is replaced by the names of the files that it
matches. A field that matches none stays.
-/

namespace Shell

abbrev Word := List Char

/-- The characters of the default `IFS`. -/
def isIfs (c : Char) : Bool := c = ' ' || c = '\t' || c = '\n'

/-- The fields of a value, between blanks. -/
def fields (value : Word) : List Word := (value.splitOnP isIfs).filter (· ≠ [])

variable (glob : Word → List Word)

/-- Pathname expansion; `glob` gives the names of the files that match a field. -/
def pathnames (field : Word) : List Word :=
  match glob field with
  | [] => [field]
  | names => names

/-- The words that an unquoted value stands for. -/
def expand (value : Word) : List Word := (fields value).flatMap (pathnames glob)

/-- The text that `$(…)` stands for. -/
def substitution (output : Word) : Word := output.rdropWhile (· = '\n')

/-- Joined to a text with a separator before each. -/
def appendEach (separator : Word) (value : Word) (words : List Word) : Word :=
  words.foldl (fun value word => value ++ separator ++ word) value

/-- The value is one field with blanks around it; no file matches it and there are no
blanks, or the value names the only file that does. -/
def Intact (value : Word) : Prop :=
  ∃ field, fields value = [field] ∧ (glob field = [] ∧ field = value ∨ glob field = [value])

variable {glob} {value s t : Word} {c : Char} {words : List Word}

/-- A separator ends the fields before it. -/
theorem fields_append (s : Word) (hc : isIfs c = true) (t : Word) :
    fields (s ++ c :: t) = fields s ++ fields t := by
  rw [fields, List.splitOnP_append_cons s t hc, List.filter_append]
  rfl

@[simp] theorem fields_nil : fields [] = [] := rfl

/-- Blanks are looked for one character after the other. -/
theorem noBlank_of_all (h : value.all (fun c => !isIfs c) = true) :
    ∀ c ∈ value, isIfs c = false := by simpa using h

/-- Words without separators, decided word by word. -/
theorem noBlanks_of_all (h : words.all (·.all fun c => !isIfs c) = true) :
    ∀ word ∈ words, ∀ c ∈ word, isIfs c = false := fun word hword =>
  noBlank_of_all (List.all_eq_true.mp h word hword)

/-- A word without separators is one field. -/
theorem fields_of_noBlank (h : ∀ c ∈ value, isIfs c = false) (hne : value ≠ []) :
    fields value = [value] := by
  rw [fields, List.splitOnP_eq_singleton h]
  simp [hne]

/-- A text without blanks begins the first field. -/
theorem fields_start {start : Word} (h : ∀ c ∈ start, isIfs c = false) (hne : start ≠ [])
    (value : Word) :
    ∃ rest, fields (start ++ value) = (start ++ value.takeWhile (!isIfs ·)) :: rest := by
  have hfirst : ∀ c ∈ start ++ value.takeWhile (!isIfs ·), isIfs c = false := by
    intro c hc
    rcases List.mem_append.mp hc with hc | hc
    · exact h c hc
    · simpa using List.mem_takeWhile_imp hc
  have hone := fields_of_noBlank hfirst (List.append_ne_nil_of_left_ne_nil hne _)
  cases hrest : value.dropWhile (!isIfs ·) with
  | nil =>
    have hall : value.takeWhile (!isIfs ·) = value := by
      simpa [hrest] using List.takeWhile_append_dropWhile (p := (!isIfs ·)) (l := value)
    rw [hall] at hone ⊢
    exact ⟨[], hone⟩
  | cons c rest =>
    have hblank : isIfs c = true := by
      simpa [hrest] using List.head_dropWhile_not (!isIfs ·) (l := value) (by simp [hrest])
    refine ⟨fields rest, ?_⟩
    conv_lhs => rw [← List.takeWhile_append_dropWhile (p := (!isIfs ·)) (l := value), hrest]
    rw [← List.append_assoc, fields_append _ hblank, hone, List.singleton_append]

/-- The characters of a value that are no blanks are those of its fields. -/
theorem flatten_fields (value : Word) :
    (fields value).flatten = value.filter fun c => !isIfs c := by
  induction value with
  | nil => rfl
  | cons c value ih =>
    rw [fields, List.splitOnP_cons_eq_if_modifyHead]
    cases hc : isIfs c with
    | true => simpa [hc, fields] using ih
    | false =>
      obtain ⟨first, rest, hsplit⟩ :=
        List.exists_cons_of_ne_nil (List.splitOnP_ne_nil isIfs value)
      rw [fields, hsplit] at ih
      rw [hsplit]
      cases first with
      | nil => simpa [hc] using ih
      | cons d first => simpa [hc] using ih

/-- A field has no blanks. -/
theorem noBlank_of_mem_fields {field : Word} (h : field ∈ fields value) :
    ∀ c ∈ field, isIfs c = false := by
  intro c hc
  have hmem : c ∈ (fields value).flatten := List.mem_flatten.mpr ⟨field, h, hc⟩
  rw [flatten_fields] at hmem
  simpa using (List.mem_filter.mp hmem).2

/-- Where each field stands for itself, the value stands for its fields. -/
theorem expand_eq_fields (h : ∀ field ∈ fields value, pathnames glob field = [field]) :
    expand glob value = fields value := by
  have hsingle : (fields value).flatMap (pathnames glob) =
      (fields value).flatMap fun field => [field] := List.flatMap_congr h
  rw [expand, hsingle]
  simp

/-- Blanks at the end make no difference. -/
theorem fields_substitution (output : Word) : fields (substitution output) = fields output := by
  induction output using List.reverseRecOn with
  | nil => rfl
  | append_singleton output c ih =>
    by_cases hc : c = '\n'
    · subst hc
      rw [substitution, List.rdropWhile_concat_pos _ _ _ (by simp), fields_append output rfl,
        fields_nil, List.append_nil]
      exact ih
    · rw [substitution, List.rdropWhile_concat_neg _ _ _ (by simpa using hc)]

/-- A field expands to itself if to nothing else. -/
theorem pathnames_ne_nil (glob : Word → List Word) (field : Word) : pathnames glob field ≠ [] := by
  rw [pathnames]
  split
  · simp
  · next h => exact h

/-- Pathname expansion loses no field. -/
theorem length_le_expand (glob : Word → List Word) (value : Word) :
    (fields value).length ≤ (expand glob value).length := by
  rw [expand]
  induction fields value with
  | nil => exact Nat.zero_le _
  | cons field fields ih =>
    have hpos := List.length_pos_iff.mpr (pathnames_ne_nil glob field)
    rw [List.flatMap_cons, List.length_append, List.length_cons]
    omega

/-- A value that is not blank expands to some word. -/
theorem expand_ne_nil (glob : Word → List Word) (h : ∃ c ∈ value, isIfs c = false) :
    expand glob value ≠ [] := by
  obtain ⟨c, hc, hblank⟩ := h
  have hfields : fields value ≠ [] := by
    intro hnil
    have hflat := flatten_fields value
    rw [hnil, List.flatten_nil, eq_comm, List.filter_eq_nil_iff] at hflat
    exact hflat c hc (by simp [hblank])
  have hle := length_le_expand glob value
  have hpos := List.length_pos_iff.mpr hfields
  exact List.length_pos_iff.mp (by omega)

/-- A separator ends the words before it. -/
theorem expand_append (s : Word) (hc : isIfs c = true) (t : Word) :
    expand glob (s ++ c :: t) = expand glob s ++ expand glob t := by
  rw [expand, fields_append s hc, List.flatMap_append]
  rfl

/-- The values that stand for themselves. -/
theorem expand_eq_singleton_iff : expand glob value = [value] ↔ Intact glob value := by
  constructor
  · intro h
    have hle := length_le_expand glob value
    rw [h, List.length_singleton] at hle
    match hfields : fields value with
    | [] => simp [expand, hfields] at h
    | [field] =>
      refine ⟨field, hfields, ?_⟩
      rw [expand, hfields, List.flatMap_singleton, pathnames] at h
      split at h
      · next hnone => exact .inl ⟨hnone, List.singleton_inj.mp h⟩
      · exact .inr h
    | _ :: _ :: _ =>
      rw [hfields, List.length_cons, List.length_cons] at hle
      omega
  · rintro ⟨field, hfields, ⟨hnone, rfl⟩ | hnames⟩
    · rw [expand, hfields, List.flatMap_singleton, pathnames, hnone]
    · rw [expand, hfields, List.flatMap_singleton, pathnames, hnames]

/-- A value without blanks that matches no file stands for itself. -/
theorem intact_of_noBlank (h : ∀ c ∈ value, isIfs c = false) (hne : value ≠ [])
    (hglob : glob value = []) : Intact glob value :=
  ⟨value, fields_of_noBlank h hne, .inl ⟨hglob, rfl⟩⟩

/-- A value that was put together from texts after blanks stands for what they stand for. -/
theorem expand_appendEach (hc : isIfs c = true) (value : Word) (words : List Word) :
    expand glob (appendEach [c] value words) =
      expand glob value ++ words.flatMap (expand glob) := by
  induction words generalizing value with
  | nil => simp [appendEach]
  | cons word words ih =>
    have hstep : appendEach [c] value (word :: words) =
        appendEach [c] (value ++ [c] ++ word) words := rfl
    rw [hstep, ih, List.append_assoc, List.singleton_append, expand_append value hc,
      List.flatMap_cons, List.append_assoc]

/-- Words that are not blank are not lost in expansion. -/
theorem length_le_flatMap (glob : Word → List Word)
    (h : ∀ word ∈ words, ∃ c ∈ word, isIfs c = false) :
    words.length ≤ (words.flatMap (expand glob)).length := by
  induction words with
  | nil => exact Nat.zero_le _
  | cons word words ih =>
    have hrest := ih fun w hw => h w (List.mem_cons_of_mem word hw)
    have hpos := List.length_pos_iff.mpr
      (expand_ne_nil glob (h word (List.mem_cons_self ..)))
    rw [List.flatMap_cons, List.length_append, List.length_cons]
    omega

/-- Words that expansion leaves intact stay as they are. -/
theorem flatMap_of_intact (h : ∀ word ∈ words, Intact glob word) :
    words.flatMap (expand glob) = words := by
  have hsingle : words.flatMap (expand glob) = words.flatMap fun word => [word] :=
    List.flatMap_congr fun word hword => expand_eq_singleton_iff.mpr (h word hword)
  rw [hsingle]
  simp

/-- Values that are not blank stand for themselves together when each of them does. -/
theorem flatMap_expand_eq_self_iff (h : ∀ word ∈ words, ∃ c ∈ word, isIfs c = false) :
    words.flatMap (expand glob) = words ↔ ∀ word ∈ words, Intact glob word := by
  refine ⟨fun heq => ?_, flatMap_of_intact⟩
  induction words with
  | nil =>
    intro word hword
    cases hword
  | cons word words ih =>
    have htail := fun w hw => h w (List.mem_cons_of_mem word hw)
    rw [List.flatMap_cons] at heq
    -- every value stands for a word or more, so the first one stands for one
    have hlength := congrArg List.length heq
    have hrest := length_le_flatMap glob htail
    have hpos := List.length_pos_iff.mpr (expand_ne_nil glob (h word (List.mem_cons_self ..)))
    rw [List.length_append, List.length_cons] at hlength
    have hone : (expand glob word).length = [word].length := by
      rw [List.length_singleton]
      omega
    obtain ⟨hword, hwords⟩ := List.append_inj heq hone
    rw [List.forall_mem_cons]
    exact ⟨expand_eq_singleton_iff.mp hword, ih htail hwords⟩

/-- Appending words in two goes is appending them all. -/
theorem appendEach_append (separator value : Word) (words words' : List Word) :
    appendEach separator (appendEach separator value words) words' =
      appendEach separator value (words ++ words') :=
  List.foldl_append.symm

/-- Appending keeps the value as a beginning. -/
theorem appendEach_eq_append (separator value : Word) (words : List Word) :
    appendEach separator value words = value ++ words.flatMap (separator ++ ·) := by
  induction words generalizing value with
  | nil => simp [appendEach]
  | cons word words ih =>
    have hstep : appendEach separator value (word :: words) =
        appendEach separator (value ++ separator ++ word) words := rfl
    rw [hstep, ih]
    simp

/-- Appending texts is joining them to the value. -/
theorem appendEach_eq_intercalate (separator value : Word) (words : List Word) :
    appendEach separator value words = separator.intercalate (value :: words) := by
  rw [appendEach_eq_append]
  induction words generalizing value with
  | nil => simp
  | cons word words ih =>
    rw [List.intercalate_cons_cons, ← ih]
    simp

/-- The words of an output with a line for each path are those of the paths. -/
theorem expand_lines (glob : Word → List Word) (paths : List Word) :
    expand glob (substitution (paths.flatMap (· ++ ['\n']))) = paths.flatMap (expand glob) := by
  rw [expand, fields_substitution]
  change expand glob (paths.flatMap (· ++ ['\n'])) = _
  induction paths with
  | nil => rfl
  | cons path paths ih =>
    rw [List.flatMap_cons, List.append_assoc, List.singleton_append, expand_append path rfl, ih,
      List.flatMap_cons]

end Shell
