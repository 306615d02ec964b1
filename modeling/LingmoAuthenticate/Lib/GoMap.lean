import Mathlib.Data.List.AList
import Mathlib.Tactic.Lemma

/-!
# Go maps

A Go map is Mathlib's `AList`: entries with distinct keys. The order of the entries is not
observable: a `range` loop visits them in an order of its own, so a loop is modelled over any list
that is a permutation of the entries (`Ranges`), and statements are about `lookup`.

* `mapVal` changes every value (`lookup_mapVal`).
* `keep` deletes the entries that do not qualify; `lookup_keep_eq_some`. `perm_cons_erase`: an entry
  that is deleted, and the others.
* `Ranges.mem_iff` and `Ranges.nodup`: what every order of a loop has in common;
  `Ranges.filterMap_eq`: a loop that has a result for one key at most.
* `lookup_foldlM`, `lookup_foldl`: a loop that writes, for each item, at the key of the item only.
* `lookup_foldl_insert`: a loop that writes one value at the keys that qualify;
  `lookup_foldl_erase`: a loop that deletes keys.
-/

namespace LingmoAuthenticate.Lib

universe u v w

/-- A Go map from `K` to `V`; a nil map reads like the empty one. -/
abbrev GoMap (K : Type u) (V : Type v) := AList fun _ : K => V

namespace GoMap

variable {K : Type u} {V : Type v} {W : Type w}

/-! ## Changing every value -/

/-- The map with every value changed, as by a loop that writes each entry once. -/
def mapVal (f : K → V → W) (m : GoMap K V) : GoMap K W where
  entries := m.entries.map fun e => ⟨e.1, f e.1 e.2⟩
  nodupKeys := by
    have h : (m.entries.map fun e => (⟨e.1, f e.1 e.2⟩ : Σ _ : K, W)).keys = m.keys := by
      simp [List.keys, AList.keys, Function.comp_def]
    unfold List.NodupKeys
    rw [h]
    exact m.keys_nodup

theorem lookup_mapVal [DecidableEq K] (f : K → V → W) (m : GoMap K V) (k : K) :
    (m.mapVal f).lookup k = (m.lookup k).map (f k) :=
  List.dlookup_map₂ (γ := fun _ => V) (δ := fun _ => W) (f := f) k

/-! ## Deleting entries -/

/-- The entries that qualify, as a loop that deletes the others leaves them. -/
def keep (p : K → V → Bool) (m : GoMap K V) : GoMap K V where
  entries := m.entries.filter fun e => p e.1 e.2
  nodupKeys := m.nodupKeys.sublist List.filter_sublist

theorem lookup_keep_eq_some [DecidableEq K] {p : K → V → Bool} {m : GoMap K V} {k : K} {x : V} :
    (keep p m).lookup k = some x ↔ m.lookup k = some x ∧ p k x = true := by
  rw [← Option.mem_def, ← Option.mem_def, AList.mem_lookup_iff, AList.mem_lookup_iff]
  exact List.mem_filter

/-- A new entry that is the only one that does not qualify. -/
theorem keep_insert_of_notMem [DecidableEq K] {p : K → V → Bool} {m : GoMap K V} {k : K} {x : V}
    (hk : k ∉ m) (hx : p k x = false) (hp : ∀ k' x', m.lookup k' = some x' → p k' x' = true) :
    keep p (m.insert k x) = m := by
  apply AList.ext
  show ((m.insert k x).entries.filter fun e => p e.1 e.2) = m.entries
  rw [AList.entries_insert_of_notMem hk, List.filter_cons, if_neg (by rw [hx]; decide),
    List.filter_eq_self]
  exact fun e he => hp e.1 e.2 (AList.mem_lookup_iff.mpr he)

/-- A new entry that is deleted again. -/
theorem erase_insert_of_notMem [DecidableEq K] {m : GoMap K V} {k : K} (x : V) (hk : k ∉ m) :
    (m.insert k x).erase k = m := by
  apply AList.ext
  show (m.insert k x).entries.kerase k = m.entries
  rw [AList.entries_insert_of_notMem hk]
  exact List.kerase_cons_eq rfl

/-- An entry and the others. -/
theorem perm_cons_erase [DecidableEq K] {m : GoMap K V} {k : K} {x : V} (h : m.lookup k = some x) :
    m.entries.Perm (⟨k, x⟩ :: (m.erase k).entries) := by
  rw [← AList.entries_insert_of_notMem (AList.mem_erase.not.mpr fun hk => hk.1 rfl)]
  apply List.lookup_ext m.nodupKeys ((m.erase k).insert k x).nodupKeys
  intro k' x'
  show x' ∈ m.lookup k' ↔ x' ∈ ((m.erase k).insert k x).lookup k'
  by_cases hk : k' = k
  · rw [hk, AList.lookup_insert, h]
  · rw [AList.lookup_insert_ne hk, AList.lookup_erase_ne hk]

/-! ## Loops over a map -/

/-- `es` is an order in which a `range` loop may visit the entries of `m`. -/
def Ranges (m : GoMap K V) (es : List (Σ _ : K, V)) : Prop := es.Perm m.entries

theorem ranges_entries (m : GoMap K V) : m.Ranges m.entries := List.Perm.refl _

/-- A way to visit the entries of every map, as a loop over the map may do it: each entry once, in
an order that nothing is known about. -/
structure RangeOrder (K : Type u) (V : Type v) where
  visit : GoMap K V → List (Σ _ : K, V)
  ranges : ∀ m, Ranges m (visit m)

/-- The entries as they are listed. -/
def RangeOrder.listed (K : Type u) (V : Type v) : RangeOrder K V where
  visit m := m.entries
  ranges m := ranges_entries m

/-- No key is visited twice. -/
theorem Ranges.nodup {m : GoMap K V} {es : List (Σ _ : K, V)} (h : m.Ranges es) :
    (es.map Sigma.fst).Nodup :=
  ((h.map Sigma.fst).nodup_iff).mpr m.keys_nodup

/-- What is visited is what the map holds. -/
theorem Ranges.mem_iff [DecidableEq K] {m : GoMap K V} {es : List (Σ _ : K, V)} (h : m.Ranges es)
    {k : K} {x : V} : (⟨k, x⟩ : Σ _ : K, V) ∈ es ↔ m.lookup k = some x := by
  rw [List.Perm.mem_iff h]
  exact AList.mem_lookup_iff.symm

/-- A key is visited exactly when the map has it. -/
theorem Ranges.mem_keys_iff [DecidableEq K] {m : GoMap K V} {es : List (Σ _ : K, V)}
    (h : m.Ranges es) {k : K} : k ∈ es.map Sigma.fst ↔ (m.lookup k).isSome := by
  rw [(h.map Sigma.fst).mem_iff, AList.lookup_isSome]
  exact Iff.rfl

/-- **A loop that has a result for one key at most**, whatever its order. -/
theorem Ranges.filterMap_eq [DecidableEq K] {m : GoMap K V} {es : List (Σ _ : K, V)}
    (h : m.Ranges es) {k : K} {f : (Σ _ : K, V) → Option W}
    (hf : ∀ e ∈ es, e.1 ≠ k → f e = none) :
    es.filterMap f = ((m.lookup k).bind fun x => f ⟨k, x⟩).toList := by
  rcases hk : m.lookup k with _ | x
  · refine List.filterMap_eq_nil_iff.mpr fun e he => hf e he ?_
    rintro rfl
    rw [h.mem_iff.mp he] at hk
    cases hk
  · obtain ⟨before, after, rfl⟩ := List.append_of_mem (h.mem_iff.mpr hk)
    have hnd := h.nodup
    rw [List.map_append, List.map_cons, List.nodup_append] at hnd
    obtain ⟨-, hafter, hbefore⟩ := hnd
    have hnone : ∀ e ∈ before, f e = none := fun e he =>
      hf e (List.mem_append_left _ he)
        (hbefore e.1 (List.mem_map_of_mem he) k (List.mem_cons_self ..))
    have hnone' : ∀ e ∈ after, f e = none := by
      intro e he
      refine hf e (List.mem_append_right _ (List.mem_cons_of_mem _ he)) fun heq => ?_
      have hmem : e.1 ∈ after.map Sigma.fst := List.mem_map_of_mem he
      rw [heq] at hmem
      exact (List.nodup_cons.mp hafter).1 hmem
    rw [List.filterMap_append, List.filterMap_cons, List.filterMap_eq_nil_iff.mpr hnone,
      List.filterMap_eq_nil_iff.mpr hnone', Option.bind_some]
    rcases f ⟨k, x⟩ with _ | y
    · rfl
    · rfl

/-! ## Loops that write at the key of each item -/

section loops

variable [DecidableEq K] {α : Type*} {p : α → K}

/-- **A loop that writes at the key of each item.** If the round for an item `e` leaves the other
keys alone, and turns the value `o` at `p e` into `g e o`, then after a loop over items with
distinct keys, each key visited holds `g` of what it held before, and the others what they held. -/
theorem lookup_foldlM {f : GoMap K W → α → Option (GoMap K W)} {g : α → Option W → Option W}
    (hf : ∀ s e s', f s e = some s' →
      s'.lookup (p e) = g e (s.lookup (p e)) ∧ ∀ k, k ≠ p e → s'.lookup k = s.lookup k)
    {es : List α} (hnd : (es.map p).Nodup) {s t : GoMap K W} (h : es.foldlM f s = some t) :
    (∀ e ∈ es, t.lookup (p e) = g e (s.lookup (p e))) ∧
      ∀ k, k ∉ es.map p → t.lookup k = s.lookup k := by
  induction es generalizing s with
  | nil =>
      simp only [List.foldlM_nil, Option.pure_def, Option.some.injEq] at h
      subst h
      exact ⟨fun e he => absurd he List.not_mem_nil, fun k _ => rfl⟩
  | cons e es ih =>
      simp only [List.foldlM_cons, Option.bind_eq_bind, Option.bind_eq_some_iff] at h
      obtain ⟨s', hs', ht⟩ := h
      obtain ⟨hself, hother⟩ := hf s e s' hs'
      simp only [List.map_cons, List.nodup_cons] at hnd
      obtain ⟨hmem, hnd'⟩ := hnd
      obtain ⟨ih₁, ih₂⟩ := ih hnd' ht
      constructor
      · intro e' he'
        rcases List.mem_cons.mp he' with rfl | he'
        · rw [ih₂ _ hmem]
          exact hself
        · have hk : p e' ≠ p e := by
            intro hk
            exact hmem (hk ▸ List.mem_map_of_mem he')
          rw [ih₁ e' he', hother _ hk]
      · intro k hk
        simp only [List.map_cons, List.mem_cons, not_or] at hk
        rw [ih₂ k hk.2, hother k hk.1]

/-- **A loop that writes one value at the keys that qualify**, of items that may repeat. -/
theorem lookup_foldl_insert (q : K → Prop) [DecidablePred q] (x : W) (ks : List K)
    (m : GoMap K W) (k : K) :
    (ks.foldl (fun m k => if q k then m.insert k x else m) m).lookup k =
      if k ∈ ks ∧ q k then some x else m.lookup k := by
  induction ks generalizing m with
  | nil => simp
  | cons k' ks ih =>
      rw [List.foldl_cons, ih]
      by_cases hk : k = k'
      · subst hk
        by_cases hq : q k
        · simp [hq]
        · simp [hq]
      · have hhead : (if q k' then m.insert k' x else m).lookup k = m.lookup k := by
          split_ifs
          · exact AList.lookup_insert_ne hk
          · rfl
        rw [hhead]
        simp only [List.mem_cons, hk, false_or]

/-- **A loop that deletes keys**, which may repeat. -/
theorem lookup_foldl_erase (ks : List K) (m : GoMap K W) (k : K) :
    (ks.foldl (fun m k => m.erase k) m).lookup k = if k ∈ ks then none else m.lookup k := by
  induction ks generalizing m with
  | nil => rfl
  | cons k' ks ih =>
      rw [List.foldl_cons, ih]
      by_cases hk : k = k'
      · rw [hk, AList.lookup_erase, if_pos (List.mem_cons_self ..), ite_self]
      · rw [AList.lookup_erase_ne hk]
        exact if_congr (by rw [List.mem_cons, or_iff_right hk]) rfl rfl

/-- The loop of `lookup_foldlM`, where no round can fail. -/
theorem lookup_foldl {f : GoMap K W → α → GoMap K W} {g : α → Option W → Option W}
    (hf : ∀ s e, (f s e).lookup (p e) = g e (s.lookup (p e)) ∧
      ∀ k, k ≠ p e → (f s e).lookup k = s.lookup k)
    {es : List α} (hnd : (es.map p).Nodup) (s : GoMap K W) :
    (∀ e ∈ es, (es.foldl f s).lookup (p e) = g e (s.lookup (p e))) ∧
      ∀ k, k ∉ es.map p → (es.foldl f s).lookup k = s.lookup k := by
  refine lookup_foldlM (f := fun s e => some (f s e)) ?_ hnd (List.foldlM_pure (m := Option))
  intro s e s' h
  cases h
  exact hf s e

end loops

end GoMap

end LingmoAuthenticate.Lib
