import Mathlib.Data.List.Nodup
import Mathlib.Data.List.Perm.Basic

/-!
# Sweeping a store by snapshots

A sweep walks over the groups a store has when it starts and, for each of them, over
the keys the group has when the sweep reaches it, and deletes one key after another
while the store shrinks under it. Where a deletion takes away its own key and no
other, the sweep finds every key exactly once and leaves none.
-/

namespace Keyed

/-- What a sweep leaves: the store, its deletions with their answers, and its counter. -/
structure Swept (σ κ : Type) where
  store : σ
  calls : List (κ × Bool)
  count : Nat

variable {σ κ γ ε : Type}

/-- The inner loop, over a snapshot of keys. -/
def sweepKeys (delete : κ → σ → Except ε (Bool × σ)) : List κ → σ → Except ε (Swept σ κ)
  | [], s => .ok ⟨s, [], 0⟩
  | k :: ks, s => do
    let (found, s) ← delete k s
    let rest ← sweepKeys delete ks s
    return ⟨rest.store, (k, found) :: rest.calls, rest.count + 1⟩

/-- The outer loop, over a snapshot of groups. -/
def sweepGroups (keysOf : γ → σ → Except ε (List κ)) (delete : κ → σ → Except ε (Bool × σ)) :
    List γ → σ → Except ε (Swept σ κ)
  | [], s => .ok ⟨s, [], 0⟩
  | g :: gs, s => do
    let swept ← sweepKeys delete (← keysOf g s) s
    let rest ← sweepGroups keysOf delete gs swept.store
    return ⟨rest.store, swept.calls ++ rest.calls, swept.count + rest.count⟩

def sweep (groups : σ → Except ε (List γ)) (keysOf : γ → σ → Except ε (List κ))
    (delete : κ → σ → Except ε (Bool × σ)) (s : σ) : Except ε (Swept σ κ) := do
  sweepGroups keysOf delete (← groups s) s

/-- A store that answers its queries with the keys it has and deletes one key at a time. -/
structure Sweepable [DecidableEq κ] [DecidableEq γ] (keys : σ → List κ) (group : κ → γ)
    (groups : σ → Except ε (List γ)) (keysOf : γ → σ → Except ε (List κ))
    (delete : κ → σ → Except ε (Bool × σ)) : Prop where
  nodup (s : σ) : (keys s).Nodup
  groups_ok (s : σ) : ∃ gs, groups s = .ok gs ∧ ∀ k ∈ keys s, group k ∈ gs
  keysOf_ok (g : γ) (s : σ) : keysOf g s = .ok ((keys s).filter (group · = g))
  delete_ok (k : κ) (s : σ) (hk : k ∈ keys s) :
    ∃ s', delete k s = .ok (true, s') ∧ keys s' = (keys s).filter (· ≠ k)

/-- A successful sweep of the given keys: each was found, and only they are gone. -/
structure Swept.Of [DecidableEq κ] (keys : σ → List κ) (s : σ) (p : κ → Bool)
    (swept : Swept σ κ) : Prop where
  calls : swept.calls.Perm (((keys s).filter p).map (·, true))
  count : swept.count = swept.calls.length
  rest : keys swept.store = (keys s).filter (!p ·)

/-- The keys of the first kind, then those of the second kind among the others. -/
theorem filter_or_perm (p q : κ → Bool) (ks : List κ) :
    (ks.filter p ++ (ks.filter (!p ·)).filter q).Perm (ks.filter fun k => p k || q k) := by
  have hsplit := List.filter_append_perm p (ks.filter fun k => p k || q k)
  have hfirst : (ks.filter fun k => p k || q k).filter p = ks.filter p := by
    rw [List.filter_filter]
    apply List.filter_congr
    intro k _
    cases p k <;> simp
  have hsecond : (ks.filter fun k => p k || q k).filter (!p ·) =
      (ks.filter (!p ·)).filter q := by
    rw [List.filter_filter, List.filter_filter]
    apply List.filter_congr
    intro k _
    cases p k <;> simp
  rwa [hfirst, hsecond] at hsplit

namespace Sweepable

variable [DecidableEq κ] [DecidableEq γ] {keys : σ → List κ} {group : κ → γ}
  {groups : σ → Except ε (List γ)} {keysOf : γ → σ → Except ε (List κ)}
  {delete : κ → σ → Except ε (Bool × σ)} {P : σ → Prop}

theorem sweepKeys_ok (h : Sweepable keys group groups keysOf delete)
    (hP : ∀ k s s', k ∈ keys s → delete k s = .ok (true, s') → P s → P s') (ks : List κ) (s : σ)
    (hks : ks.Nodup) (hmem : ∀ k ∈ ks, k ∈ keys s) (hs : P s) :
    ∃ swept, sweepKeys delete ks s = .ok swept ∧ P swept.store ∧
      swept.calls = ks.map (·, true) ∧ swept.count = swept.calls.length ∧
      keys swept.store = (keys s).filter (· ∉ ks) := by
  induction ks generalizing s with
  | nil => exact ⟨_, rfl, hs, rfl, rfl, by simp⟩
  | cons k ks ih =>
    obtain ⟨hk, hks⟩ := List.nodup_cons.mp hks
    have hkeys : k ∈ keys s := hmem k (by simp)
    obtain ⟨s', hdelete, hs'⟩ := h.delete_ok k s hkeys
    have hrest : ∀ k' ∈ ks, k' ∈ keys s' := by
      intro k' hk'
      rw [hs', List.mem_filter]
      have hne : k' ≠ k := by
        rintro rfl
        exact hk hk'
      exact ⟨hmem k' (by simp [hk']), by simpa using hne⟩
    obtain ⟨swept, hswept, hstore, hcalls, hcount, hleft⟩ :=
      ih s' hks hrest (hP k s s' hkeys hdelete hs)
    refine ⟨⟨swept.store, (k, true) :: swept.calls, swept.count + 1⟩, ?_, hstore, ?_, ?_, ?_⟩
    · simp [sweepKeys, hdelete, hswept, bind, Except.bind, pure, Except.pure]
    · simp [hcalls]
    · simp [hcount]
    · rw [hleft, hs', List.filter_filter]
      apply List.filter_congr
      intro k' _
      simp [Bool.and_comm]

theorem sweepGroups_ok (h : Sweepable keys group groups keysOf delete)
    (hP : ∀ k s s', k ∈ keys s → delete k s = .ok (true, s') → P s → P s') (gs : List γ) (s : σ)
    (hs : P s) : ∃ swept, sweepGroups keysOf delete gs s = .ok swept ∧ P swept.store ∧
      Swept.Of keys s (fun k => decide (group k ∈ gs)) swept := by
  induction gs generalizing s with
  | nil => exact ⟨_, rfl, hs, by simp, rfl, by simp⟩
  | cons g gs ih =>
    have hks : ((keys s).filter (group · = g)).Nodup := (h.nodup s).filter _
    obtain ⟨first, hfirst, hstore, hcalls, hcount, hleft⟩ :=
      h.sweepKeys_ok hP _ s hks (fun k hk => (List.mem_filter.mp hk).1) hs
    have hleft' : keys first.store = (keys s).filter fun k => !decide (group k = g) := by
      rw [hleft]
      apply List.filter_congr
      intro k hk
      simp [hk]
    have hmem : (fun k => decide (group k ∈ g :: gs)) =
        fun k => decide (group k = g) || decide (group k ∈ gs) := by
      funext k
      simp
    obtain ⟨rest, hrest, hstore', hof⟩ := ih first.store hstore
    refine ⟨⟨rest.store, first.calls ++ rest.calls, first.count + rest.count⟩, ?_, hstore', ?_⟩
    · simp [sweepGroups, h.keysOf_ok, hfirst, hrest, bind, Except.bind, pure, Except.pure]
    · constructor
      · rw [hmem]
        refine List.Perm.trans ?_ ((filter_or_perm _ _ _).map _)
        rw [List.map_append, ← hleft', ← hcalls]
        exact hof.calls.append_left _
      · simp [hcount, hof.count]
      · rw [hof.rest, hleft', List.filter_filter]
        apply List.filter_congr
        intro k _
        simp [Bool.and_comm]

/-- A sweep ends, finds every key of the store once and leaves none; what each deletion
preserves holds in the end. -/
theorem sweep_ok (h : Sweepable keys group groups keysOf delete)
    (hP : ∀ k s s', k ∈ keys s → delete k s = .ok (true, s') → P s → P s') (s : σ) (hs : P s) :
    ∃ swept, sweep groups keysOf delete s = .ok swept ∧ P swept.store ∧
      swept.calls.Perm ((keys s).map (·, true)) ∧ swept.count = (keys s).length ∧
      keys swept.store = [] := by
  obtain ⟨gs, hgs, hall⟩ := h.groups_ok s
  obtain ⟨swept, hswept, hstore, hof⟩ := h.sweepGroups_ok hP gs s hs
  have hfilter : (keys s).filter (fun k => decide (group k ∈ gs)) = keys s :=
    List.filter_eq_self.mpr fun k hk => by simpa using hall k hk
  have hcalls : swept.calls.Perm ((keys s).map (·, true)) := hfilter ▸ hof.calls
  refine ⟨swept, ?_, hstore, hcalls, ?_, ?_⟩
  · simpa [sweep, hgs, bind, Except.bind] using hswept
  · rw [hof.count, hcalls.length_eq, List.length_map]
  · rw [hof.rest, List.filter_eq_nil_iff]
    intro k hk
    simpa using hall k hk

end Sweepable

/-- The keys of every group in turn are all the keys, each once. -/
theorem flatMap_filter_perm [DecidableEq γ] {group : κ → γ} {gs : List γ} {ks : List κ}
    (hgs : gs.Nodup) (hall : ∀ k ∈ ks, group k ∈ gs) :
    (gs.flatMap fun g => ks.filter (group · = g)).Perm ks := by
  induction gs generalizing ks with
  | nil =>
    have hks : ks = [] := List.eq_nil_iff_forall_not_mem.mpr fun k hk => by simpa using hall k hk
    rw [hks]
    exact List.Perm.refl _
  | cons g gs ih =>
    obtain ⟨hg, hgs⟩ := List.nodup_cons.mp hgs
    have hrest : (gs.flatMap fun g' => ks.filter (group · = g')) =
        gs.flatMap fun g' => (ks.filter fun k => !decide (group k = g)).filter (group · = g') := by
      apply List.flatMap_congr
      intro g' hg'
      rw [List.filter_filter]
      apply List.filter_congr
      intro k _
      by_cases hk : group k = g'
      · have hne : g' ≠ g := by
          rintro rfl
          exact hg hg'
        simp [hk, hne]
      · simp [hk]
    rw [List.flatMap_cons, hrest]
    refine ((ih hgs fun k hk => ?_).append_left _).trans (List.filter_append_perm _ ks)
    obtain ⟨hk, hne⟩ := List.mem_filter.mp hk
    exact (List.mem_cons.mp (hall k hk)).resolve_left (by simpa using hne)

/-- A sweep that deletes nothing goes over the keys of each group in turn. -/
theorem sweepGroups_static [DecidableEq γ] (ks : List κ) {group : κ → γ}
    {keysOf : γ → σ → Except ε (List κ)} {visit : κ → σ → Except ε (Bool × σ)} {s : σ}
    (hkeysOf : ∀ g, keysOf g s = .ok (ks.filter (group · = g)))
    (hvisit : ∀ k, visit k s = .ok (true, s)) (gs : List γ) :
    sweepGroups keysOf visit gs s = .ok ⟨s,
      (gs.flatMap fun g => ks.filter (group · = g)).map (·, true),
      (gs.flatMap fun g => ks.filter (group · = g)).length⟩ := by
  have hkeys : ∀ ks : List κ, sweepKeys visit ks s = .ok ⟨s, ks.map (·, true), ks.length⟩ := by
    intro ks
    induction ks with
    | nil => rfl
    | cons k ks ih => simp [sweepKeys, hvisit, ih, bind, Except.bind, pure, Except.pure]
  induction gs with
  | nil => rfl
  | cons g gs ih =>
    simp [sweepGroups, hkeysOf, hkeys, ih, bind, Except.bind, pure, Except.pure]

end Keyed
