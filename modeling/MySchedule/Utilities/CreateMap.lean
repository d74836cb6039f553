import MySchedule.Java.Throwable
import MySchedule.Keyed.PutAll
import Mathlib.Algebra.Ring.Parity
import Mathlib.Data.List.Induction

/-!
# A map from a flat argument list

`Utils.createMap` reads its arguments in pairs, but bounds an index that moves by two
with the number of pairs. It therefore sees the first half of the pairs only, the
middle one of an odd number included.
-/

namespace MySchedule.Utilities

open Java Keyed

variable {Object : Type} (toString : Object → String)

def oddCount (length : Nat) : Throwable :=
  .plain (.runtimeException "RuntimeException")
    (some ("CreateMap parameters must be in even count. Got " ++ length.repr ++ " instead."))

def indexOutOfBounds (i : Nat) : Throwable :=
  .plain (.runtimeException "ArrayIndexOutOfBoundsException") (some i.repr)

/-- The loop of `createMap` from index `i` on; a null argument is `none`. -/
def createMapLoop (objects : List (Option Object)) (size i : Nat)
    (result : LinkedMap String (Option Object)) :
    Except Throwable (LinkedMap String (Option Object)) :=
  if i < size then
    match objects[i]?, objects[i + 1]? with
    | some (some key), some value =>
      createMapLoop objects size (i + 2) (result.put (toString key) value)
    | some none, some _ => .error .nullPointer
    | _, _ => .error (indexOutOfBounds i)
  else .ok result
termination_by size - i

def createMap (objects : List (Option Object)) :
    Except Throwable (LinkedMap String (Option Object)) :=
  if objects.length % 2 ≠ 0 then .error (oddCount objects.length)
  else createMapLoop toString objects (objects.length / 2) 0 .empty

/-- No argument in key position is null. -/
def NonNullKeys (objects : List (Option Object)) : Prop := ∀ j, objects[2 * j]? ≠ some none

/-- The pairs of an argument list, each with its key as a string. -/
def pairs : List (Option Object) → List (String × Option Object)
  | some key :: value :: rest => (toString key, value) :: pairs rest
  | none :: _ :: rest => pairs rest
  | _ => []

/-- What `createMap` is for: the map of all pairs, where a later pair overrides. -/
structure MapOfPairs (objects : List (Option Object)) : Prop where
  throws_iff : (∃ e, createMap toString objects = .error e) ↔ Odd objects.length
  result : Even objects.length → ∃ result, createMap toString objects = .ok result ∧
    (∀ name, name ∈ result.keys ↔ name ∈ (pairs toString objects).map Prod.fst) ∧
    ∀ name, result.get name = (last Prod.fst name (pairs toString objects)).map Prod.snd

def firstHalf {α : Type} (ps : List α) : List α := ps.take ((ps.length + 1) / 2)

def secondHalf {α : Type} (ps : List α) : List α := ps.drop ((ps.length + 1) / 2)

/-- Every key of the second half ends with the same value in the first half. -/
def SecondHalfRepeats (ps : List (String × Option Object)) : Prop :=
  ∀ name ∈ (secondHalf ps).map Prod.fst,
    last Prod.fst name (firstHalf ps) = last Prod.fst name (secondHalf ps)

variable {toString} {objects : List (Option Object)}

/-- The rest has no null key. -/
theorem NonNullKeys.tail {key value : Option Object}
    (h : NonNullKeys (key :: value :: objects)) : NonNullKeys objects := by
  intro j
  have hj := h (j + 1)
  rwa [show 2 * (j + 1) = 2 * j + 1 + 1 by omega, List.getElem?_cons_succ,
    List.getElem?_cons_succ] at hj

/-- The first key is not null. -/
theorem NonNullKeys.head {key value : Option Object}
    (h : NonNullKeys (key :: value :: objects)) : ∃ k, key = some k := by
  cases key with
  | none => exact absurd rfl (h 0)
  | some k => exact ⟨k, rfl⟩

/-- Half as many pairs as objects. -/
theorem length_pairs (h : NonNullKeys objects) :
    (pairs toString objects).length = objects.length / 2 := by
  induction objects using pairs.induct with
  | case1 key value rest ih =>
    simp only [pairs, List.length_cons, ih h.tail]
    omega
  | case2 value rest ih =>
    obtain ⟨k, hk⟩ := h.head
    cases hk
  | case3 objects hpair hnull =>
    match objects with
    | [] => simp [pairs]
    | [_] => simp [pairs]
    | none :: _ :: _ => exact absurd rfl (hnull _ _)
    | some _ :: _ :: _ => exact absurd rfl (hpair _ _ _)

/-- Where the pairs stand in the argument list. -/
theorem getElem?_pairs (toString : Object → String) (h : NonNullKeys objects) {j : Nat}
    (hj : j < objects.length / 2) :
    ∃ key value, objects[2 * j]? = some (some key) ∧ objects[2 * j + 1]? = some value ∧
      (pairs toString objects)[j]? = some (toString key, value) := by
  induction objects using pairs.induct generalizing j with
  | case1 key value rest ih =>
    cases j with
    | zero => exact ⟨key, value, rfl, rfl, rfl⟩
    | succ j =>
      have hrest : j < rest.length / 2 := by
        simp only [List.length_cons] at hj
        omega
      obtain ⟨key', value', hkey, hvalue, hpair⟩ := ih h.tail hrest
      exact ⟨key', value', hkey, hvalue, hpair⟩
  | case2 value rest ih =>
    obtain ⟨k, hk⟩ := h.head
    cases hk
  | case3 objects hpair hnull =>
    match objects with
    | [] => simp at hj
    | [_] => simp at hj
    | none :: _ :: _ => exact absurd rfl (hnull _ _)
    | some _ :: _ :: _ => exact absurd rfl (hpair _ _ _)

/-- The first half is the longer one. -/
theorem length_firstHalf {α : Type} (ps : List α) :
    (firstHalf ps).length = (ps.length + 1) / 2 := by
  rw [firstHalf, List.length_take]
  omega

/-- The loop puts the pairs of the first half that it has not passed yet. -/
theorem createMapLoop_eq (h : NonNullKeys objects) (j : Nat)
    (result : LinkedMap String (Option Object)) :
    createMapLoop toString objects (objects.length / 2) (2 * j) result =
      .ok (putAll result ((firstHalf (pairs toString objects)).drop j)) := by
  induction hd : (objects.length / 2 + 1) / 2 - j generalizing j result with
  | zero =>
    have hj : ¬ 2 * j < objects.length / 2 := by omega
    have hlength : (firstHalf (pairs toString objects)).length ≤ j := by
      rw [length_firstHalf, length_pairs h]
      omega
    rw [createMapLoop, if_neg hj, List.drop_eq_nil_of_le hlength]
    rfl
  | succ d ih =>
    have hj : 2 * j < objects.length / 2 := by omega
    obtain ⟨key, value, hkey, hvalue, hpair⟩ :=
      getElem?_pairs toString h (j := j) (by omega)
    have hhalf : (firstHalf (pairs toString objects))[j]? = some (toString key, value) := by
      rw [firstHalf, List.getElem?_take_of_lt, hpair]
      rw [length_pairs h]
      omega
    have hdrop : (firstHalf (pairs toString objects)).drop j =
        (toString key, value) :: (firstHalf (pairs toString objects)).drop (j + 1) := by
      obtain ⟨hlt, he⟩ := List.getElem?_eq_some_iff.mp hhalf
      rw [List.drop_eq_getElem_cons hlt, he]
    rw [createMapLoop, if_pos hj, hkey, hvalue]
    simp only
    rw [show 2 * j + 2 = 2 * (j + 1) by omega, ih (j + 1) _ (by omega), hdrop]
    rfl

/-- An even number of objects gives the first half of the pairs. -/
theorem createMap_even (h : NonNullKeys objects) (heven : Even objects.length) :
    createMap toString objects = .ok (putAll .empty (firstHalf (pairs toString objects))) := by
  have hlength : objects.length % 2 = 0 := Nat.even_iff.mp heven
  rw [createMap, if_neg (by omega)]
  exact createMapLoop_eq h 0 .empty

/-- An odd number of objects throws. -/
theorem createMap_throws_iff (h : NonNullKeys objects) :
    (∃ e, createMap toString objects = .error e) ↔ Odd objects.length := by
  constructor
  · rintro ⟨e, he⟩
    rw [← Nat.not_even_iff_odd]
    intro heven
    rw [createMap_even h heven] at he
    cases he
  · intro hodd
    have hlength : objects.length % 2 = 1 := Nat.odd_iff.mp hodd
    refine ⟨oddCount objects.length, ?_⟩
    rw [createMap, if_pos (by omega)]

/-- The first half ends every key as the whole list does exactly when the second half
repeats it. -/
theorem last_firstHalf_iff (ps : List (String × Option Object)) :
    (∀ name, last Prod.fst name (firstHalf ps) = last Prod.fst name ps) ↔
      SecondHalfRepeats ps := by
  have hsplit : ∀ name, last Prod.fst name ps =
      (last Prod.fst name (secondHalf ps)).or (last Prod.fst name (firstHalf ps)) := by
    intro name
    rw [← last_append, firstHalf, secondHalf, List.take_append_drop]
  constructor
  · intro h name hname
    obtain ⟨p, hp⟩ := Option.ne_none_iff_exists'.mp (last_ne_none.mpr hname)
    rw [h name, hsplit name, hp, Option.some_or]
  · intro h name
    rw [hsplit name]
    by_cases hname : name ∈ (secondHalf ps).map Prod.fst
    · rw [h name hname, Option.or_self]
    · rw [last_eq_none.mpr hname, Option.none_or]

/-- Entries of one key are equal when their values are. -/
theorem last_eq_of_map_snd {ps qs : List (String × Option Object)} {name : String}
    (h : (last Prod.fst name ps).map Prod.snd = (last Prod.fst name qs).map Prod.snd) :
    last Prod.fst name ps = last Prod.fst name qs := by
  cases hp : last Prod.fst name ps with
  | none =>
    rw [hp] at h
    exact (Option.map_eq_none_iff.mp h.symm).symm
  | some p =>
    rw [hp, Option.map_some] at h
    obtain ⟨q, hq, hvalue⟩ := Option.map_eq_some_iff.mp h.symm
    have hkey : p.1 = q.1 := (key_of_last hp).trans (key_of_last hq).symm
    rw [hq, Prod.ext hkey hvalue.symm]

/-- `createMap` builds the map of all its pairs exactly when the pairs it does not visit
add nothing; an odd argument list it always refuses. -/
theorem mapOfPairs_iff (objects : List (Option Object)) (h : NonNullKeys objects) :
    MapOfPairs toString objects ↔
      Odd objects.length ∨ SecondHalfRepeats (pairs toString objects) := by
  constructor
  · intro hmap
    rcases Nat.even_or_odd objects.length with heven | hodd
    · right
      obtain ⟨result, hresult, _, hget⟩ := hmap.result heven
      rw [createMap_even h heven, Except.ok.injEq] at hresult
      subst hresult
      rw [← last_firstHalf_iff]
      intro name
      apply last_eq_of_map_snd
      rw [← hget name, get_putAll]
      simp [LinkedMap.empty]
    · exact Or.inl hodd
  · intro hcond
    refine ⟨createMap_throws_iff h, fun heven => ?_⟩
    have hrepeats : SecondHalfRepeats (pairs toString objects) :=
      hcond.resolve_left (Nat.not_odd_iff_even.mpr heven)
    have hget : ∀ name, (putAll .empty (firstHalf (pairs toString objects))).get name =
        (last Prod.fst name (pairs toString objects)).map Prod.snd := by
      intro name
      rw [get_putAll, (last_firstHalf_iff _).mpr hrepeats name]
      simp [LinkedMap.empty]
    refine ⟨_, createMap_even h heven, fun name => ?_, hget⟩
    rw [LinkedMap.mem_keys, hget name, ne_eq, Option.map_eq_none_iff, ← ne_eq, last_ne_none]

/-- Three pairs: the key of the last one is among the first two, with its last value there. -/
theorem mapOfPairs_sleepTime : MapOfPairs id
    [some "sleepTime", some "10000", some "name", some "job1", some "sleepTime", some "10000"] := by
  apply (mapOfPairs_iff
    [some "sleepTime", some "10000", some "name", some "job1", some "sleepTime", some "10000"]
    ?_).mpr
  · right
    intro name hname
    simp [secondHalf, pairs] at hname
    subst hname
    decide
  · intro j
    match j with
    | 0 => simp
    | 1 => simp
    | 2 => simp
    | j + 3 => simp [show 2 * (j + 3) = 2 * j + 6 by omega]

/-- Of two pairs the second one is lost. -/
theorem mapOfPairs_loses_second :
    ¬ MapOfPairs id [some "name", some "job1", some "group", some "cleanup"] := by
  intro h
  obtain ⟨result, hresult, hkeys, _⟩ := h.result (by decide)
  have hgroup : "group" ∈ result.keys := by
    rw [hkeys]
    decide
  have hvisited : createMap id [some "name", some "job1", some "group", some "cleanup"] =
      .ok (LinkedMap.empty.put "name" (some "job1")) := by
    simp [createMap, createMapLoop]
  rw [hvisited, Except.ok.injEq] at hresult
  subst hresult
  revert hgroup
  decide

end MySchedule.Utilities
