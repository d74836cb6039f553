import Mathlib.Data.List.Nodup

/-!
# Getters along a superclass chain

`Utils.getGetters` climbs from an object's class to its bound and asks every class on
the way for all its public methods. That query already answers with the inherited
ones, so a getter of a superclass is listed again, overridden or not, and the bound
hides nothing that the object's class inherits.
-/

namespace MySchedule.Utilities

/-- A method name and its parameter types: what an overriding method repeats. -/
structure Signature where
  name : List Char
  parameterTypes : List String
  deriving DecidableEq, Repr

/-- A public method, with the class that declares it. -/
structure Method where
  declaringClass : String
  signature : Signature
  deriving DecidableEq, Repr

/-- One class below `Object`, with the public methods it declares itself. -/
structure ClassDecl where
  name : String
  declared : List Signature
  deriving DecidableEq, Repr

def objectClass : String := "java.lang.Object"

/-- The public methods of `java.lang.Object`. -/
def objectMethods : List Method :=
  [⟨"equals".toList, ["java.lang.Object"]⟩, ⟨"getClass".toList, []⟩, ⟨"hashCode".toList, []⟩,
    ⟨"notify".toList, []⟩, ⟨"notifyAll".toList, []⟩, ⟨"toString".toList, []⟩,
    ⟨"wait".toList, []⟩, ⟨"wait".toList, ["long"]⟩, ⟨"wait".toList, ["long", "int"]⟩].map
    (Method.mk objectClass)

/-- A class by its superclass chain, itself first, up to and without `Object`. -/
structure JavaClass where
  chain : List ClassDecl
  names_nodup : (objectClass :: chain.map (·.name)).Nodup
  declared_nodup : ∀ c ∈ chain, c.declared.Nodup

/-- `Class.getMethods`: what the class declares, and what it inherits and does not override. -/
def getMethods : List ClassDecl → List Method
  | [] => objectMethods
  | c :: above => c.declared.map (Method.mk c.name) ++
      (getMethods above).filter fun m => m.signature ∉ c.declared

/-- The letter tables of the platform, in the default locale. -/
structure Letters where
  isUpperCase : Char → Bool
  toLowerCase : List Char → List Char
  isUpperCase_h : isUpperCase 'h' = false

variable {Object : Type} (letters : Letters)

/-- A getter that was found, with the object to call it on. -/
structure Getter (Object : Type) where
  object : Object
  method : Method
  propName : List Char

/-- The property named by `start` and an upper-case letter after it. -/
def propertyAfter (start name : List Char) : Option (List Char) :=
  match start.isPrefixOf name, name.drop start.length with
  | true, c :: rest =>
    if letters.isUpperCase c then some (letters.toLowerCase [c] ++ rest) else none
  | _, _ => none

/-- The body of the method loop. The test for `is` is not an alternative of the two
before it. -/
def propName (name : List Char) : Option (List Char) :=
  let named := match propertyAfter letters "get".toList name with
    | some property => some property
    | none => propertyAfter letters "has".toList name
  match propertyAfter letters "is".toList name with
  | some property => some property
  | none => named

def getterOf (object : Object) (method : Method) : Option (Getter Object) :=
  if method.signature.parameterTypes.length > 0 then none
  else if method.signature.name = "getClass".toList then none
  else (propName letters method.signature.name).map fun property => ⟨object, method, property⟩

/-- The loop of `getGetters` over the classes from `parentCls` on. -/
def getGettersLoop (object : Object) (upToClass : String) :
    List ClassDecl → List (Getter Object) → List (Getter Object)
  | [], getters => getters
  | c :: above, getters =>
    let getters := getters ++ (getMethods (c :: above)).filterMap (getterOf letters object)
    if c.name = upToClass then getters else getGettersLoop object upToClass above getters

/-- `Utils.getGetters`; a null bound stands for `Object`. -/
def getGetters (getClass : Object → JavaClass) (object : Object) (upToClass : Option String) :
    List (Getter Object) :=
  getGettersLoop letters object (upToClass.getD objectClass) (getClass object).chain []

/-- The classes at or below the bound, from the object's class up. -/
def classesUpTo (upToClass : String) : List ClassDecl → List String
  | [] => [objectClass]
  | c :: above => if c.name = upToClass then [c.name] else c.name :: classesUpTo upToClass above

/-- A getter: no parameters, not `getClass`, and get, has or is before an upper-case letter. -/
def isGetter (sig : Signature) : Bool :=
  decide (sig.parameterTypes = [] ∧ sig.name ≠ "getClass".toList) &&
    ["get".toList, "has".toList, "is".toList].any fun start =>
      start.isPrefixOf sig.name && (sig.name.drop start.length).head?.any letters.isUpperCase

/-- What `getGetters` is for: one getter for every visible getter method that is declared at
or below the bound, and no other. -/
structure ListsGetters (getClass : Object → JavaClass) (object : Object)
    (upToClass : Option String) : Prop where
  nodup : ((getGetters letters getClass object upToClass).map (·.method)).Nodup
  mem_iff (m : Method) : m ∈ (getGetters letters getClass object upToClass).map (·.method) ↔
    m ∈ getMethods (getClass object).chain ∧ isGetter letters m.signature = true ∧
      m.declaringClass ∈ classesUpTo (upToClass.getD objectClass) (getClass object).chain
  on_object (g : Getter Object) (hg : g ∈ getGetters letters getClass object upToClass) :
    g.object = object

/-- Every getter that a superclass declares is overridden in the object's own class, and that
class is then the bound. -/
def OwnGettersOnly (upToClass : String) : List ClassDecl → Prop
  | [] => True
  | c :: above => ∀ d ∈ above, ∀ sig ∈ d.declared, isGetter letters sig = true →
      c.name = upToClass ∧ sig ∈ c.declared

variable {letters} {getClass : Object → JavaClass} {object : Object} {upToClass : String}
  {c : ClassDecl} {above chain : List ClassDecl} {m : Method} {sig : Signature}

/-- A prefix gives a property name if an upper-case letter follows it. -/
theorem propertyAfter_isSome (start name : List Char) :
    (propertyAfter letters start name).isSome =
      (start.isPrefixOf name && (name.drop start.length).head?.any letters.isUpperCase) := by
  unfold propertyAfter
  cases start.isPrefixOf name with
  | false => rfl
  | true =>
    cases name.drop start.length with
    | nil => rfl
    | cons d rest => cases hd : letters.isUpperCase d <;> simp [hd]

/-- A method has a property name if one of the three prefixes gives one. -/
theorem propName_isSome (name : List Char) : (propName letters name).isSome =
    ["get".toList, "has".toList, "is".toList].any fun start =>
      start.isPrefixOf name && (name.drop start.length).head?.any letters.isUpperCase := by
  simp only [List.any_cons, List.any_nil, Bool.or_false, ← propertyAfter_isSome, propName]
  cases propertyAfter letters "get".toList name <;>
    cases propertyAfter letters "has".toList name <;>
      cases propertyAfter letters "is".toList name <;> rfl

/-- A method makes a getter if `isGetter` says so. -/
theorem getterOf_isSome (letters : Letters) (object : Object) (m : Method) :
    (getterOf letters object m).isSome = isGetter letters m.signature := by
  unfold getterOf isGetter
  rw [← propName_isSome]
  by_cases hparams : m.signature.parameterTypes = []
  · have hlength : ¬ m.signature.parameterTypes.length > 0 := by simp [hparams]
    rw [if_neg hlength]
    by_cases hname : m.signature.name = "getClass".toList
    · rw [if_pos hname, decide_eq_false fun h => h.2 hname]
      simp only [Option.isSome_none, Bool.false_and]
    · rw [if_neg hname, decide_eq_true ⟨hparams, hname⟩, Option.isSome_map, Bool.true_and]
  · have hlength : m.signature.parameterTypes.length > 0 := List.length_pos_iff.mpr hparams
    rw [if_pos hlength, decide_eq_false fun h => hparams h.1]
    simp only [Option.isSome_none, Bool.false_and]

/-- A getter keeps its method and its object. -/
theorem method_of_getterOf {g : Getter Object} (h : getterOf letters object m = some g) :
    g.method = m ∧ g.object = object := by
  unfold getterOf at h
  split at h
  · cases h
  · split at h
    · cases h
    · obtain ⟨property, _, rfl⟩ := Option.map_eq_some_iff.mp h
      exact ⟨rfl, rfl⟩

/-- The getters of a list of methods are the getter methods in it. -/
theorem methods_getters (ms : List Method) :
    (ms.filterMap (getterOf letters object)).map (·.method) =
      ms.filter (isGetter letters ·.signature) := by
  induction ms with
  | nil => rfl
  | cons m ms ih =>
    have hsome := getterOf_isSome letters object m
    cases h : getterOf letters object m with
    | none =>
      rw [h, Option.isSome_none] at hsome
      rw [List.filterMap_cons_none h, ih, List.filter_cons, ← hsome]
      rfl
    | some g =>
      rw [h, Option.isSome_some] at hsome
      rw [List.filterMap_cons_some h, List.map_cons, ih, (method_of_getterOf h).1,
        List.filter_cons, ← hsome]
      rfl

/-- The methods that the loop lists from one class on. -/
def listed (letters : Letters) (upToClass : String) : List ClassDecl → List Method
  | [] => []
  | c :: above => (getMethods (c :: above)).filter (isGetter letters ·.signature) ++
      if c.name = upToClass then [] else listed letters upToClass above

/-- The loop adds the methods it lists to those it has. -/
theorem methods_getGettersLoop (getters : List (Getter Object)) :
    (getGettersLoop letters object upToClass chain getters).map (·.method) =
      getters.map (·.method) ++ listed letters upToClass chain := by
  induction chain generalizing getters with
  | nil => simp [getGettersLoop, listed]
  | cons c above ih =>
    rw [getGettersLoop, listed]
    split
    · rw [List.map_append, methods_getters, List.append_nil]
    · rw [ih, List.map_append, methods_getters, List.append_assoc]

/-- All getters of the loop are on the object. -/
theorem object_of_mem_getGettersLoop {g : Getter Object} {getters : List (Getter Object)}
    (hg : g ∈ getGettersLoop letters object upToClass chain getters)
    (h : ∀ g ∈ getters, g.object = object) : g.object = object := by
  induction chain generalizing getters with
  | nil => exact h g hg
  | cons c above ih =>
    have hmore : ∀ g ∈ getters ++ (getMethods (c :: above)).filterMap (getterOf letters object),
        g.object = object := by
      intro g hg
      rcases List.mem_append.mp hg with hg | hg
      · exact h g hg
      · obtain ⟨m, _, hm⟩ := List.mem_filterMap.mp hg
        exact (method_of_getterOf hm).2
    rw [getGettersLoop] at hg
    split at hg
    · exact hmore g hg
    · exact ih hg hmore

/-- `Object` has no getter but `getClass`. -/
theorem not_isGetter_of_mem_objectMethods (hm : m ∈ objectMethods) :
    isGetter letters m.signature = false := by
  simp only [objectMethods, List.map_cons, List.map_nil, List.mem_cons, List.not_mem_nil,
    or_false] at hm
  rcases hm with rfl | rfl | rfl | rfl | rfl | rfl | rfl | rfl | rfl <;>
    simp [isGetter, letters.isUpperCase_h]

/-- Whatever getter a class of the chain declares is visible, from there or overridden. -/
theorem exists_mem_getMethods (hsig : isGetter letters sig = true) :
    (∃ m ∈ getMethods chain, m.signature = sig) ↔ ∃ c ∈ chain, sig ∈ c.declared := by
  induction chain with
  | nil =>
    simp only [getMethods, List.not_mem_nil, false_and, exists_false, iff_false]
    rintro ⟨m, hm, rfl⟩
    rw [not_isGetter_of_mem_objectMethods hm] at hsig
    cases hsig
  | cons c above ih =>
    simp only [List.exists_mem_cons_iff, getMethods, List.mem_append, List.mem_map,
      List.mem_filter, decide_eq_true_eq]
    rw [← ih]
    constructor
    · rintro ⟨m, ⟨sig', hsig', rfl⟩ | ⟨hm, _⟩, rfl⟩
      · exact Or.inl hsig'
      · exact Or.inr ⟨m, hm, rfl⟩
    · intro h
      by_cases hc : sig ∈ c.declared
      · exact ⟨⟨c.name, sig⟩, Or.inl ⟨sig, hc, rfl⟩, rfl⟩
      · obtain ⟨m, hm, rfl⟩ := h.resolve_left hc
        exact ⟨m, Or.inr ⟨hm, hc⟩, rfl⟩

/-- A visible method is declared by `Object` or by a class of the chain. -/
theorem declaringClass_of_mem_getMethods (hm : m ∈ getMethods chain) :
    m.declaringClass ∈ objectClass :: chain.map (·.name) := by
  induction chain with
  | nil =>
    obtain ⟨sig, _, rfl⟩ := List.mem_map.mp hm
    simp
  | cons c above ih =>
    rcases List.mem_append.mp hm with hm | hm
    · obtain ⟨sig, _, rfl⟩ := List.mem_map.mp hm
      simp
    · have habove := ih (List.mem_filter.mp hm).1
      simp only [List.map_cons, List.mem_cons] at habove ⊢
      exact habove.imp_right Or.inr

/-- An inherited method is not declared by the class that inherits it. -/
theorem declaringClass_ne (hnames : (objectClass :: (c :: above).map (·.name)).Nodup)
    (hm : m ∈ getMethods above) : m.declaringClass ≠ c.name := by
  have hclass := declaringClass_of_mem_getMethods hm
  simp only [List.map_cons, List.nodup_cons, List.mem_cons, not_or] at hnames hclass
  rcases hclass with hclass | hclass
  · rw [hclass]
    exact hnames.1.1
  · intro he
    exact hnames.2.1 (he ▸ hclass)

/-- Every visible getter of the first class is listed. -/
theorem mem_listed_cons :
    m ∈ getMethods (c :: above) → isGetter letters m.signature = true →
      m ∈ listed letters upToClass (c :: above) := by
  intro hm hget
  exact List.mem_append.mpr (Or.inl (List.mem_filter.mpr ⟨hm, hget⟩))

/-- A visible getter is declared by a class of the chain. -/
theorem exists_declared_of_mem_getMethods (hm : m ∈ getMethods chain)
    (hget : isGetter letters m.signature = true) :
    ∃ c ∈ chain, m.declaringClass = c.name ∧ m.signature ∈ c.declared := by
  induction chain with
  | nil =>
    rw [not_isGetter_of_mem_objectMethods hm] at hget
    cases hget
  | cons c above ih =>
    rcases List.mem_append.mp hm with hm | hm
    · obtain ⟨sig, hsig, rfl⟩ := List.mem_map.mp hm
      exact ⟨c, List.mem_cons_self, rfl, hsig⟩
    · obtain ⟨d, hd, hdeclared⟩ := ih (List.mem_filter.mp hm).1
      exact ⟨d, List.mem_cons_of_mem c hd, hdeclared⟩

/-- Up to `Object`, every getter that a class of the chain declares is listed, overridden or
not. -/
theorem mem_listed_objectClass (hnames : objectClass ∉ chain.map (·.name)) :
    m ∈ listed letters objectClass chain ↔ isGetter letters m.signature = true ∧
      ∃ c ∈ chain, m.declaringClass = c.name ∧ m.signature ∈ c.declared := by
  induction chain with
  | nil => simp [listed]
  | cons c above ih =>
    simp only [List.map_cons, List.mem_cons, not_or] at hnames
    rw [listed, if_neg (Ne.symm hnames.1), List.mem_append, List.mem_filter, ih hnames.2]
    constructor
    · rintro (⟨hm, hget⟩ | ⟨hget, d, hd, hdeclared⟩)
      · exact ⟨hget, exists_declared_of_mem_getMethods hm hget⟩
      · exact ⟨hget, d, List.mem_cons_of_mem c hd, hdeclared⟩
    · rintro ⟨hget, d, hd, hname, hsig⟩
      rcases List.mem_cons.mp hd with rfl | hd
      · have hown : m ∈ d.declared.map (Method.mk d.name) :=
          List.mem_map.mpr ⟨m.signature, hsig, by rw [← hname]⟩
        exact Or.inl ⟨List.mem_append_left _ hown, hget⟩
      · exact Or.inr ⟨hget, d, hd, hname, hsig⟩

/-- Without a getter among the declared methods nothing is listed. -/
theorem listed_eq_nil
    (h : ∀ d ∈ chain, ∀ sig ∈ d.declared, isGetter letters sig = false) :
    listed letters upToClass chain = [] := by
  induction chain with
  | nil => rfl
  | cons c above ih =>
    have hfilter : (getMethods (c :: above)).filter (isGetter letters ·.signature) = [] := by
      rw [List.filter_eq_nil_iff]
      intro m hm hget
      obtain ⟨d, hd, hsig⟩ := (exists_mem_getMethods hget).mp ⟨m, hm, rfl⟩
      rw [h d hd _ hsig] at hget
      cases hget
    rw [listed, hfilter, List.nil_append, ih fun d hd => h d (List.mem_cons_of_mem c hd)]
    split <;> rfl

/-- With its own getters only, a class shows none that it inherits. -/
theorem filter_getMethods (h : OwnGettersOnly letters upToClass (c :: above)) :
    (getMethods (c :: above)).filter (isGetter letters ·.signature) =
      (c.declared.map (Method.mk c.name)).filter (isGetter letters ·.signature) := by
  have hinherited : ((getMethods above).filter fun m => m.signature ∉ c.declared).filter
      (isGetter letters ·.signature) = [] := by
    rw [List.filter_eq_nil_iff]
    intro m hm hget
    obtain ⟨hm, hnot⟩ := List.mem_filter.mp hm
    obtain ⟨d, hd, hsig⟩ := (exists_mem_getMethods hget).mp ⟨m, hm, rfl⟩
    exact of_decide_eq_true hnot (h d hd _ hsig hget).2
  rw [getMethods, List.filter_append, hinherited, List.append_nil]

/-- With its own getters only, the loop lists what the class declares, once. -/
theorem listed_of_ownGettersOnly (h : OwnGettersOnly letters upToClass (c :: above)) :
    listed letters upToClass (c :: above) =
      (c.declared.map (Method.mk c.name)).filter (isGetter letters ·.signature) := by
  rw [listed, filter_getMethods h]
  split
  · exact List.append_nil _
  · next hbound =>
    rw [listed_eq_nil, List.append_nil]
    intro d hd sig hsig
    by_contra hget
    exact hbound (h d hd sig hsig (by simpa using hget)).1

/-- A getter of a superclass is listed twice, or listed although it is overridden or lies
above the bound, unless it is overridden and the bound is the object's class. -/
theorem ownGettersOnly_of_listed (hnames : (objectClass :: chain.map (·.name)).Nodup)
    (hnodup : (listed letters upToClass chain).Nodup)
    (hmem : ∀ m ∈ listed letters upToClass chain,
      m ∈ getMethods chain ∧ m.declaringClass ∈ classesUpTo upToClass chain) :
    OwnGettersOnly letters upToClass chain := by
  cases chain with
  | nil => trivial
  | cons c above =>
    intro d hd sig hsig hget
    obtain ⟨m, hm, rfl⟩ := (exists_mem_getMethods hget).mpr ⟨d, hd, hsig⟩
    have hclass : m.declaringClass ≠ c.name := declaringClass_ne hnames hm
    by_cases hbound : c.name = upToClass
    · refine ⟨hbound, ?_⟩
      by_contra hnot
      have hvisible : m ∈ getMethods (c :: above) :=
        List.mem_append.mpr (Or.inr (List.mem_filter.mpr ⟨hm, by simpa using hnot⟩))
      have hbelow := (hmem m (mem_listed_cons hvisible hget)).2
      rw [classesUpTo, if_pos hbound, List.mem_singleton] at hbelow
      exact hclass hbelow
    · exfalso
      obtain ⟨e, rest, rfl⟩ : ∃ e rest, above = e :: rest :=
        List.exists_cons_of_ne_nil (List.ne_nil_of_mem hd)
      have hagain : m ∈ listed letters upToClass (e :: rest) := mem_listed_cons hm hget
      rw [listed, if_neg hbound] at hnodup hmem
      have hvisible := (hmem m (List.mem_append.mpr (Or.inr hagain))).1
      exact (List.disjoint_of_nodup_append hnodup)
        (List.mem_filter.mpr ⟨hvisible, hget⟩) hagain

/-- The methods listed are the required ones exactly when no superclass contributes one. -/
theorem listed_iff (hnames : (objectClass :: chain.map (·.name)).Nodup)
    (hdeclared : ∀ c ∈ chain, c.declared.Nodup) :
    ((listed letters upToClass chain).Nodup ∧ ∀ m, m ∈ listed letters upToClass chain ↔
      m ∈ getMethods chain ∧ isGetter letters m.signature = true ∧
        m.declaringClass ∈ classesUpTo upToClass chain) ↔
      OwnGettersOnly letters upToClass chain := by
  constructor
  · rintro ⟨hnodup, hmem⟩
    apply ownGettersOnly_of_listed hnames hnodup
    intro m hm
    obtain ⟨hvisible, _, hbelow⟩ := (hmem m).mp hm
    exact ⟨hvisible, hbelow⟩
  · intro h
    cases chain with
    | nil =>
      refine ⟨List.nodup_nil, fun m => ?_⟩
      simp only [listed, List.not_mem_nil, false_iff, not_and]
      intro hm hget
      rw [not_isGetter_of_mem_objectMethods hm] at hget
      cases hget
    | cons c above =>
      rw [listed_of_ownGettersOnly h]
      constructor
      · have hinjective : Function.Injective (Method.mk c.name) := by
          intro sig sig' he
          cases he
          rfl
        exact ((hdeclared c (by simp)).map hinjective).filter _
      · intro m
        rw [← filter_getMethods h, List.mem_filter]
        refine ⟨fun ⟨hm, hget⟩ => ⟨hm, hget, ?_⟩, fun ⟨hm, hget, _⟩ => ⟨hm, hget⟩⟩
        have hown : m ∈ (c.declared.map (Method.mk c.name)).filter
            (isGetter letters ·.signature) := by
          rw [← filter_getMethods h]
          exact List.mem_filter.mpr ⟨hm, hget⟩
        obtain ⟨sig, _, rfl⟩ := List.mem_map.mp (List.mem_filter.mp hown).1
        rw [classesUpTo]
        split <;> simp

/-- `getGetters` lists each getter once and within its bound exactly when the object's class
inherits none, or overrides all it inherits and is the bound itself. -/
theorem listsGetters_iff (letters : Letters) (getClass : Object → JavaClass) (object : Object)
    (upToClass : Option String) : ListsGetters letters getClass object upToClass ↔
      OwnGettersOnly letters (upToClass.getD objectClass) (getClass object).chain := by
  have hmethods : (getGetters letters getClass object upToClass).map (·.method) =
      listed letters (upToClass.getD objectClass) (getClass object).chain :=
    methods_getGettersLoop []
  rw [← listed_iff (getClass object).names_nodup (getClass object).declared_nodup]
  constructor
  · intro h
    rw [← hmethods]
    exact ⟨h.nodup, h.mem_iff⟩
  · rw [← hmethods]
    rintro ⟨hnodup, hmem⟩
    exact ⟨hnodup, hmem, fun g hg => object_of_mem_getGettersLoop hg (by simp)⟩

/-- The letters of a name in ASCII. -/
def asciiLetters : Letters := ⟨Char.isUpper, List.map Char.toLower, rfl⟩

/-- A class that inherits its only getter. -/
def sleepJobClass : JavaClass where
  chain := [⟨"SleepJob", []⟩, ⟨"BaseJob", [⟨"getName".toList, []⟩]⟩]
  names_nodup := by decide
  declared_nodup := by decide

/-- The inherited getter is listed for either class of the chain. -/
theorem getGetters_lists_twice :
    ¬ ListsGetters asciiLetters (fun _ : Unit => sleepJobClass) () (some "BaseJob") := by
  intro h
  have hnodup := h.nodup
  revert hnodup
  decide

end MySchedule.Utilities
