import MySchedule.Java.Throwable
import MySchedule.Utilities.Getters

/-!
# Printing a value

`Utils.toString` prints strings and numbers as they are, the elements of arrays,
collections and maps, and the properties of anything else. It takes every array for an
`Object[]` and calls `toString` on every element and on what every getter gives.
-/

namespace MySchedule.Utilities

open Java

/-- An array, of a primitive component type or of references. -/
inductive JavaArray (Object : Type)
  | primitive (length : Nat)
  | reference (elements : List (Option Object))

/-- What `Utils` learns about objects. None of them changes while it prints one, and their own
methods end normally: `toString` with a string, a getter with any value. -/
structure Heap (Object : Type) where
  getClass : Object → JavaClass
  identityHashCode : Object → Int
  ownToString : Object → String
  isCharSequence : Object → Bool
  isNumber : Object → Bool
  array : Object → Option (JavaArray Object)
  collection : Object → Option (List (Option Object))
  map : Object → Option (List (Option Object × Option Object))
  /-- The class is public, or in the package of `Utils`. -/
  accessible : String → Bool
  /-- What a getter gives: nothing if that is null, or the getter is void. -/
  returns : Object → Method → Option Object

def JavaClass.getName (cls : JavaClass) : String :=
  match cls.chain with
  | [] => objectClass
  | c :: _ => c.name

/-- `(Object[])object` on an array of primitives. -/
def classCast (className : String) : Throwable :=
  .plain (.runtimeException "ClassCastException")
    (some (className ++ " cannot be cast to [Ljava.lang.Object;"))

/-- What `Method.invoke` throws for a method of a class that is not accessible. -/
def illegalAccessMessage (className : String) : String :=
  "Class quartz.experiment.Utils can not access a member of class " ++ className ++
    " with modifiers \"public\""

/-- The same, wrapped by `new RuntimeException(e)`. -/
def illegalAccess (className : String) : Throwable :=
  .caused (.runtimeException "RuntimeException")
    (some ("java.lang.IllegalAccessException: " ++ illegalAccessMessage className))
    (.plain (.checkedException "IllegalAccessException") (some (illegalAccessMessage className)))

section Join

variable {Item : Type} (itemToString : Item → String)

/-- The loop of `join` after the first item. -/
def joinLoop (sep : Option String) : List (Option Item) → String → Except Throwable String
  | [], sb => .ok sb
  | none :: _, _ => .error .nullPointer
  | some item :: items, sb => joinLoop sep items (concat sb sep ++ itemToString item)

/-- `Utils.join`; it calls `toString` on every item. -/
def join (items : List (Option Item)) (sep : Option String) : Except Throwable String :=
  match items with
  | [] => .ok ""
  | none :: _ => .error .nullPointer
  | some item :: items => joinLoop itemToString sep items (itemToString item)

/-- What the branches for arrays, collections and maps append. -/
def appendItems (items : List (Option Item)) (sep : Option String) (sb : String) :
    Except Throwable String := do
  let sb := sb ++ "\x7b"
  let sb ← if items.length > 0 then
      (join itemToString items sep).map fun joined => concat (concat sb sep ++ joined) sep
    else .ok sb
  return sb ++ "\x7d" ++ ", size=" ++ items.length.repr

end Join

namespace Heap

variable {Object : Type} (letters : Letters) (heap : Heap Object)

def getGetterValue (getter : Getter Object) : Except Throwable (Option Object) :=
  if heap.accessible getter.method.declaringClass then
    .ok (heap.returns getter.object getter.method)
  else .error (illegalAccess getter.method.declaringClass)

def getGetterStrValue (getter : Getter Object) : Except Throwable String := do
  match ← heap.getGetterValue getter with
  | none => .error .nullPointer
  | some value => return heap.ownToString value

def toObjectString (object : Object) : String :=
  (heap.getClass object).getName ++ "@" ++ (heap.identityHashCode object).repr

/-- `toString` of a map entry. -/
def entryToString (entry : Option Object × Option Object) : String :=
  concat (concat "" (entry.1.map heap.ownToString) ++ "=") (entry.2.map heap.ownToString)

/-- `(Object[])object`. -/
def castToObjects (object : Object) : JavaArray Object → Except Throwable (List (Option Object))
  | .primitive _ => .error (classCast (heap.getClass object).getName)
  | .reference elements => .ok elements

/-- The loop over the getters. -/
def propValsLoop : List (Getter Object) → List String → Except Throwable (List String)
  | [], propVals => .ok propVals
  | getter :: getters, propVals => do
    let val ← heap.getGetterStrValue getter
    propValsLoop getters (propVals ++ [String.ofList getter.propName ++ "=" ++ val])

/-- The branch for anything but a string, a number or a container. -/
def appendGetters (object : Object) (sep : Option String) (sb : String) :
    Except Throwable String := do
  let getters := getGetters letters heap.getClass object none
  if getters.length > 0 then
    let propVals ← heap.propValsLoop getters []
    let joined ← join id (propVals.map some) sep
    return sb ++ "\x7b" ++ joined ++ "\x7d"
  else return sb

/-- `Utils.toString`; the separator may be null. -/
def toString (object : Object) (sep : Option String) : Except Throwable String :=
  let sb := heap.toObjectString object
  if heap.isCharSequence object then .ok (heap.ownToString object)
  else if heap.isNumber object then .ok (heap.ownToString object)
  else match heap.array object with
  | some array => do
    let array ← heap.castToObjects object array
    appendItems heap.ownToString array sep sb
  | none => match heap.collection object with
    | some list => appendItems heap.ownToString list sep sb
    | none => match heap.map object with
      | some entries => appendItems heap.entryToString (entries.map some) sep sb
      | none => heap.appendGetters letters object sep sb

/-- `Utils.dump`, by the text that it logs. -/
def dump (object : Object) : Except Throwable String := heap.toString letters object (some "\n")

/-- Every getter of the object, overridden ones included, may be called and gives a value. -/
def GettersGive (object : Object) : Prop :=
  ∀ c ∈ (heap.getClass object).chain, ∀ sig ∈ c.declared, isGetter letters sig = true →
    heap.accessible c.name = true ∧ heap.returns object ⟨c.name, sig⟩ ≠ none

/-- A string, a number, an array of references or a collection without null elements, a map,
or an object whose getters all give a value. -/
def Printable (object : Object) : Prop :=
  heap.isCharSequence object = true ∨ heap.isNumber object = true ∨
    match heap.array object, heap.collection object, heap.map object with
    | some (.primitive _), _, _ => False
    | some (.reference elements), _, _ => none ∉ elements
    | none, some elements, _ => none ∉ elements
    | none, none, some _ => True
    | none, none, none => heap.GettersGive letters object

end Heap

section Join

variable {Item : Type} {itemToString : Item → String} {items : List (Option Item)}
  {sep : Option String} {sb : String}

/-- The loop ends if no item is null. -/
theorem joinLoop_ok_iff :
    (∃ text, joinLoop itemToString sep items sb = .ok text) ↔ none ∉ items := by
  induction items generalizing sb with
  | nil => simp [joinLoop]
  | cons item items ih =>
    cases item with
    | none => simp [joinLoop]
    | some item => simp [joinLoop, ih]

/-- `join` returns if no item is null. -/
theorem join_ok_iff (itemToString : Item → String) (items : List (Option Item))
    (sep : Option String) : (∃ text, join itemToString items sep = .ok text) ↔ none ∉ items := by
  cases items with
  | nil => simp [join]
  | cons item items =>
    cases item with
    | none => simp [join]
    | some item => simp [join, joinLoop_ok_iff]

/-- The items are appended if none is null. -/
theorem appendItems_ok_iff :
    (∃ text, appendItems itemToString items sep sb = .ok text) ↔ none ∉ items := by
  rw [← join_ok_iff itemToString items sep]
  cases items with
  | nil => simp [appendItems, join, exists_ok_bind_iff, pure, Except.pure]
  | cons item items =>
    have hlength : (item :: items).length > 0 := Nat.succ_pos _
    simp only [appendItems, hlength, if_true, exists_ok_bind_iff]
    cases join itemToString (item :: items) sep with
    | error e => simp [Except.map]
    | ok joined => simp [Except.map, pure, Except.pure]

/-- The loop throws a `NullPointerException` and nothing else. -/
theorem joinLoop_error {e : Throwable} (h : joinLoop itemToString sep items sb = .error e) :
    e = .nullPointer := by
  induction items generalizing sb with
  | nil => cases h
  | cons item items ih =>
    cases item with
    | none =>
      cases h
      rfl
    | some item => exact ih h

/-- `join` throws a `NullPointerException` and nothing else. -/
theorem join_error {e : Throwable} (h : join itemToString items sep = .error e) :
    e = .nullPointer := by
  cases items with
  | nil => cases h
  | cons item items =>
    cases item with
    | none =>
      cases h
      rfl
    | some item => exact joinLoop_error h

/-- Appending items throws a `NullPointerException` and nothing else. -/
theorem appendItems_error {e : Throwable} (h : appendItems itemToString items sep sb = .error e) :
    e = .nullPointer := by
  rw [appendItems] at h
  split at h
  · cases hjoin : join itemToString items sep with
    | error e' =>
      rw [hjoin] at h
      cases h
      exact join_error hjoin
    | ok joined =>
      rw [hjoin] at h
      cases h
  · cases h

end Join

namespace Heap

variable {Object : Type} {letters : Letters} {heap : Heap Object} {object : Object}
  {sep : Option String} {sb : String}

/-- A getter's value is read if its class is accessible and what it returns is not null. -/
theorem getGetterStrValue_ok_iff {getter : Getter Object} :
    (∃ val, heap.getGetterStrValue getter = .ok val) ↔
      heap.accessible getter.method.declaringClass = true ∧
        heap.returns getter.object getter.method ≠ none := by
  rw [getGetterStrValue, exists_ok_bind_iff, getGetterValue]
  cases heap.accessible getter.method.declaringClass with
  | false => simp
  | true =>
    cases heap.returns getter.object getter.method with
    | none => simp
    | some value => simp [pure, Except.pure]

/-- The values are read if each single one is. -/
theorem propValsLoop_ok_iff (getters : List (Getter Object)) (propVals : List String) :
    (∃ vals, heap.propValsLoop getters propVals = .ok vals) ↔
      ∀ getter ∈ getters, ∃ val, heap.getGetterStrValue getter = .ok val := by
  induction getters generalizing propVals with
  | nil => simp [propValsLoop]
  | cons getter getters ih =>
    simp only [propValsLoop, exists_ok_bind_iff, ih, exists_and_right, List.forall_mem_cons]

/-- The getters listed for an object are those that the classes of its chain declare. -/
theorem forall_getters_iff {p : Object → Method → Prop} :
    (∀ getter ∈ getGetters letters heap.getClass object none, p getter.object getter.method) ↔
      ∀ c ∈ (heap.getClass object).chain, ∀ sig ∈ c.declared, isGetter letters sig = true →
        p object ⟨c.name, sig⟩ := by
  have hnames := (List.nodup_cons.mp (heap.getClass object).names_nodup).1
  have hmethods : (getGetters letters heap.getClass object none).map (·.method) =
      listed letters objectClass (heap.getClass object).chain := methods_getGettersLoop []
  have hobject : ∀ getter ∈ getGetters letters heap.getClass object none,
      getter.object = object := fun getter hgetter =>
    object_of_mem_getGettersLoop hgetter (by simp)
  constructor
  · intro h c hc sig hsig hget
    have hlisted : (⟨c.name, sig⟩ : Method) ∈
        listed letters objectClass (heap.getClass object).chain :=
      (mem_listed_objectClass hnames).mpr ⟨hget, c, hc, rfl, hsig⟩
    rw [← hmethods] at hlisted
    obtain ⟨getter, hgetter, hmethod⟩ := List.mem_map.mp hlisted
    rw [← hmethod, ← hobject getter hgetter]
    exact h getter hgetter
  · intro h getter hgetter
    have hlisted : getter.method ∈ listed letters objectClass (heap.getClass object).chain := by
      rw [← hmethods]
      exact List.mem_map_of_mem hgetter
    obtain ⟨hget, c, hc, hname, hsig⟩ := (mem_listed_objectClass hnames).mp hlisted
    have hp := h c hc _ hsig hget
    rw [← hname] at hp
    rw [hobject getter hgetter]
    exact hp

/-- The getters are appended if they all give values. -/
theorem appendGetters_ok_iff :
    (∃ text, heap.appendGetters letters object sep sb = .ok text) ↔
      heap.GettersGive letters object := by
  rw [GettersGive, ← forall_getters_iff (p := fun object method =>
    heap.accessible method.declaringClass = true ∧ heap.returns object method ≠ none)]
  simp only [← getGetterStrValue_ok_iff]
  rw [← propValsLoop_ok_iff _ [], appendGetters]
  cases getGetters letters heap.getClass object none with
  | nil => simp [propValsLoop, pure, Except.pure]
  | cons getter getters =>
    have hlength : (getter :: getters).length > 0 := Nat.succ_pos _
    have hjoin : ∀ propVals : List String, ∃ joined, join id (propVals.map some) sep = .ok joined :=
      fun propVals => (join_ok_iff id _ sep).mpr (by simp)
    simp only [hlength, if_true, exists_ok_bind_iff, pure, Except.pure, Except.ok.injEq,
      exists_eq', and_true, hjoin]

/-- `toString` returns on the objects that are printable. -/
theorem toString_ok_iff (letters : Letters) (heap : Heap Object) (object : Object)
    (sep : Option String) :
    (∃ text, heap.toString letters object sep = .ok text) ↔ heap.Printable letters object := by
  rw [toString, Printable]
  cases heap.isCharSequence object with
  | true => simp
  | false =>
    cases heap.isNumber object with
    | true => simp
    | false =>
      simp only [Bool.false_eq_true, if_false, false_or]
      cases heap.array object with
      | some array =>
        cases array with
        | primitive length => simp [castToObjects, bind, Except.bind]
        | reference elements => exact appendItems_ok_iff
      | none =>
        cases heap.collection object with
        | some elements => exact appendItems_ok_iff
        | none =>
          cases heap.map object with
          | some entries =>
            have hentries : none ∉ entries.map some := by simp
            exact iff_of_true (appendItems_ok_iff.mpr hentries) trivial
          | none => exact appendGetters_ok_iff

/-- What a getter fails with: it may not be called, or there is nothing to call `toString` on. -/
def GetterFails (heap : Heap Object) (e : Throwable) : Prop :=
  e = .nullPointer ∨ ∃ className, heap.accessible className = false ∧ e = illegalAccess className

/-- A value that cannot be read throws what its getter fails with. -/
theorem getGetterStrValue_error {getter : Getter Object} {e : Throwable}
    (h : heap.getGetterStrValue getter = .error e) : heap.GetterFails e := by
  rcases error_of_bind h with h | ⟨value, _, h⟩
  · rw [getGetterValue] at h
    split at h
    · cases h
    · next haccess =>
      cases h
      exact Or.inr ⟨_, by simpa using haccess, rfl⟩
  · cases value with
    | none =>
      cases h
      exact Or.inl rfl
    | some value => cases h

/-- The loop throws what one of the getters fails with. -/
theorem propValsLoop_error {getters : List (Getter Object)} {propVals : List String}
    {e : Throwable} (h : heap.propValsLoop getters propVals = .error e) : heap.GetterFails e := by
  induction getters generalizing propVals with
  | nil => cases h
  | cons getter getters ih =>
    rcases error_of_bind h with h | ⟨val, _, h⟩
    · exact getGetterStrValue_error h
    · exact ih h

/-- Appending the getters throws what one of them fails with. -/
theorem appendGetters_error {e : Throwable}
    (h : heap.appendGetters letters object sep sb = .error e) : heap.GetterFails e := by
  rw [appendGetters] at h
  split at h
  · rcases error_of_bind h with h | ⟨propVals, _, h⟩
    · exact propValsLoop_error h
    · rcases error_of_bind h with h | ⟨joined, _, h⟩
      · exact Or.inl (join_error h)
      · cases h
  · cases h

/-- There are three ways to fail: a null is asked for its string, an array of primitives is
cast, or a getter may not be called. -/
theorem toString_error {e : Throwable} (h : heap.toString letters object sep = .error e) :
    heap.GetterFails e ∨
      (∃ length, heap.array object = some (.primitive length)) ∧
        e = classCast (heap.getClass object).getName := by
  rw [toString] at h
  split at h
  · cases h
  · split at h
    · cases h
    · split at h
      · next array harray =>
        cases array with
        | primitive length =>
          cases h
          exact Or.inr ⟨⟨length, harray⟩, rfl⟩
        | reference elements => exact Or.inl (Or.inl (appendItems_error h))
      · split at h
        · exact Or.inl (Or.inl (appendItems_error h))
        · split at h
          · exact Or.inl (Or.inl (appendItems_error h))
          · exact Or.inl (appendGetters_error h)

end Heap

/-- `toString` and `dump` return, whatever the separator, exactly for printable values. -/
theorem toString_and_dump_ok_iff {Object : Type} (letters : Letters) (heap : Heap Object)
    (object : Object) :
    (∀ sep, (∃ text, heap.toString letters object sep = .ok text) ↔
      heap.Printable letters object) ∧
    ((∃ text, heap.dump letters object = .ok text) ↔ heap.Printable letters object) :=
  ⟨heap.toString_ok_iff letters object, heap.toString_ok_iff letters object (some "\n")⟩

/-- An `int[]`, a `String[]` with a null element, and a job without a name. -/
inductive Sample
  | ints
  | names
  | job

def arrayClass (name : String) (hname : objectClass ≠ name) : JavaClass where
  chain := [⟨name, []⟩]
  names_nodup := by simpa using hname
  declared_nodup := by simp

def sampleHeap : Heap Sample where
  getClass
    | .ints => arrayClass "[I" (by decide)
    | .names => arrayClass "[Ljava.lang.String;" (by decide)
    | .job => sleepJobClass
  identityHashCode _ := 1
  ownToString _ := "sample"
  isCharSequence _ := false
  isNumber _ := false
  array
    | .ints => some (.primitive 2)
    | .names => some (.reference [none])
    | .job => none
  collection _ := none
  map _ := none
  accessible _ := true
  returns _ _ := none

/-- The array of primitives is no `Object[]`, and neither the null element nor the null name
has a `toString`. -/
theorem toString_and_dump_fail :
    (¬ ∃ text, sampleHeap.toString asciiLetters .ints (some ", ") = .ok text) ∧
    (¬ ∃ text, sampleHeap.toString asciiLetters .names (some ", ") = .ok text) ∧
    (¬ ∃ text, sampleHeap.toString asciiLetters .job (some ", ") = .ok text) ∧
    ¬ ∃ text, sampleHeap.dump asciiLetters .job = .ok text := by
  have hints : sampleHeap.toString asciiLetters .ints (some ", ") = .error (classCast "[I") := rfl
  have hnames : sampleHeap.toString asciiLetters .names (some ", ") = .error .nullPointer := rfl
  have hjob : sampleHeap.toString asciiLetters .job (some ", ") = .error .nullPointer := rfl
  have hdump : sampleHeap.dump asciiLetters .job = .error .nullPointer := rfl
  rw [hints, hnames, hjob, hdump]
  simp

end MySchedule.Utilities
