import Mathlib.Data.List.AList
import Mathlib.Data.List.Dedup
import Mathlib.Data.List.Sort
import Mathlib.Algebra.BigOperators.Group.List.Basic

/-! Keyed tables over association lists with distinct keys, for arbitrary key
and value types: lookup, in-place update, filtering, and sums over the values. -/
namespace KeyedTable
open List
variable {κ ν M : Type*}

/-- A finite map with one value per key. The order of the entries carries no
meaning to a reader of the map. -/
abbrev Table (κ ν : Type*) := AList (fun _ : κ => ν)

def values (m : Table κ ν) : List ν := m.entries.map Sigma.snd

def mapValues (m : Table κ ν) (f : κ → ν → ν) : Table κ ν where
  entries := m.entries.map fun e => ⟨e.1, f e.1 e.2⟩
  nodupKeys := by
    have h := m.nodupKeys
    simpa only [NodupKeys, keys, map_map, Function.comp_def] using h

def retain (m : Table κ ν) (p : κ → ν → Bool) : Table κ ν where
  entries := m.entries.filter fun e => p e.1 e.2
  nodupKeys := m.nodupKeys.sublist filter_sublist

def tally [AddCommMonoid M] (m : Table κ ν) (w : ν → M) : M := ((values m).map w).sum

variable [DecidableEq κ]

instance [DecidableEq ν] : DecidableEq (Table κ ν) :=
  fun _ _ => decidable_of_iff _ AList.ext_iff.symm

variable (m : Table κ ν) (order : List κ) (k : κ) (v : ν)

def get : Option ν := m.lookup k

def modify (f : ν → ν) : Table κ ν :=
  match get m k with
  | some v => m.insert k (f v)
  | none => m

/-- The entries as a loop over the table meets them: those `order` names first,
in its order, then the rest. Every order of the entries is one such visit. -/
def visit : List (κ × ν) :=
  (order.dedup ++ m.keys.filter (· ∉ order)).filterMap fun k => (get m k).map (k, ·)

def sorted [LinearOrder κ] (m : Table κ ν) : List (κ × ν) :=
  (m.entries.map fun e => (e.1, e.2)).insertionSort fun a b => a.1 ≤ b.1

def eraseAll (ks : List κ) : Table κ ν := ks.foldl (fun m k => m.erase k) m

variable {m order k v}

lemma get_eq_some_iff : get m k = some v ↔ (⟨k, v⟩ : Sigma fun _ => ν) ∈ m.entries :=
  AList.mem_lookup_iff

lemma get_isSome_iff : (get m k).isSome ↔ k ∈ m :=
  AList.lookup_isSome

lemma get_eq_none_iff : get m k = none ↔ k ∉ m :=
  AList.lookup_eq_none

lemma mem_of_get (h : get m k = some v) : k ∈ m := by
  rw [← get_isSome_iff, h]
  rfl

lemma exists_get_of_mem (h : k ∈ m) : ∃ v, get m k = some v :=
  Option.isSome_iff_exists.1 (get_isSome_iff.2 h)

lemma mem_iff_exists_get : k ∈ m ↔ ∃ v, get m k = some v :=
  ⟨exists_get_of_mem, fun ⟨_, h⟩ => mem_of_get h⟩

lemma mem_values_iff : v ∈ values m ↔ ∃ k, get m k = some v := by
  simp only [values, mem_map, get_eq_some_iff]
  constructor
  · rintro ⟨⟨k, w⟩, hm, rfl⟩
    exact ⟨k, hm⟩
  rintro ⟨k, hm⟩
  exact ⟨⟨k, v⟩, hm, rfl⟩

@[simp] lemma get_empty : get (∅ : Table κ ν) k = none := rfl

lemma get_insert : get (m.insert k v) k' = if k' = k then some v else get m k' := by
  split_ifs with h
  · subst h
    exact AList.lookup_insert m
  · exact AList.lookup_insert_ne h

@[simp] lemma get_insert_self : get (m.insert k v) k = some v := AList.lookup_insert m

lemma get_insert_ne (h : k' ≠ k) :
    get (m.insert k v) k' = get m k' := AList.lookup_insert_ne h

lemma of_get_insert (h : get (m.insert k v) k' = some v') :
    k' = k ∧ v' = v ∨ k' ≠ k ∧ get m k' = some v' := by
  rw [get_insert] at h
  split_ifs at h with hk
  · exact .inl ⟨hk, (Option.some.inj h).symm⟩
  · exact .inr ⟨hk, h⟩

lemma get_erase : get (m.erase k) k' = if k' = k then none else get m k' := by
  split_ifs with h
  · subst h
    exact AList.lookup_erase k' m
  · exact AList.lookup_erase_ne h

lemma of_get_erase (h : get (m.erase k) k' = some v) :
    k' ≠ k ∧ get m k' = some v := by
  rw [get_erase] at h
  split_ifs at h with hk
  exact ⟨hk, h⟩

lemma get_erase_ne (h : k' ≠ k) : get (m.erase k) k' = get m k' :=
  AList.lookup_erase_ne h

lemma mem_erase_iff : k' ∈ m.erase k ↔ k' ≠ k ∧ k' ∈ m :=
  AList.mem_erase

lemma mem_eraseAll : k ∈ eraseAll m ks ↔ k ∈ m ∧ k ∉ ks := by
  induction ks generalizing m with
  | nil => simp [eraseAll]
  | cons k' ks ih =>
    have hstep : eraseAll m (k' :: ks) = eraseAll (m.erase k') ks := rfl
    rw [hstep, ih, mem_erase_iff, mem_cons, not_or]
    tauto

lemma get_modify :
    get (modify m k f) k' = if k' = k then (get m k).map f else get m k' := by
  unfold modify
  cases h : get m k with
  | none =>
    split_ifs with hk
    · rw [hk, h]
      rfl
    · rfl
  | some v => exact get_insert

@[simp] lemma mem_modify : k' ∈ modify m k f ↔ k' ∈ m := by
  rw [← get_isSome_iff, ← get_isSome_iff, get_modify]
  split_ifs with h
  · rw [h, Option.isSome_map]
  · rfl

lemma get_mapValues : get (mapValues m f) k = (get m k).map (f k) := by
  apply Option.ext
  intro w
  rw [get_eq_some_iff]
  simp only [mapValues, mem_map, Option.map_eq_some_iff, get_eq_some_iff]
  constructor
  · rintro ⟨⟨k', v⟩, hm, he⟩
    simp only [Sigma.mk.injEq] at he
    obtain ⟨rfl, hw⟩ := he
    exact ⟨v, hm, eq_of_heq hw⟩
  · rintro ⟨v, hm, rfl⟩
    exact ⟨⟨k, v⟩, hm, rfl⟩

lemma get_retain {p} : get (retain m p) k = (get m k).filter (p k) := by
  apply Option.ext
  intro w
  rw [get_eq_some_iff]
  simp only [retain, mem_filter, Option.filter_eq_some_iff, get_eq_some_iff]

lemma mem_visit : (k, v) ∈ visit m order ↔ get m k = some v := by
  simp only [visit, mem_filterMap, mem_append, mem_dedup, mem_filter,
    Option.map_eq_some_iff, Prod.mk.injEq, decide_eq_true_eq]
  constructor
  · rintro ⟨k', -, v', hv, rfl, rfl⟩
    exact hv
  intro hv
  have hk : k ∈ m.keys := mem_of_get hv
  exact ⟨k, (em (k ∈ order)).imp_right fun h => ⟨hk, h⟩, v, hv, rfl, rfl⟩

/-- A loop over the table meets each key once. -/
lemma visit_nodup : ((visit m order).map Prod.fst).Nodup := by
  have hsub (ks : List κ) :
      ((ks.filterMap fun k => (get m k).map (k, ·)).map Prod.fst).Sublist ks := by
    induction ks with
    | nil => exact Sublist.refl _
    | cons k ks ih =>
      cases h : get m k with
      | none =>
        rw [filterMap_cons_none (by rw [h]; rfl)]
        exact ih.cons k
      | some v =>
        rw [filterMap_cons_some (by rw [h]; rfl)]
        exact ih.cons_cons k
  refine (Nodup.append order.nodup_dedup (m.nodupKeys.filter _) ?_).sublist (hsub _)
  intro k hk hk'
  have hout := (mem_filter.1 hk').2
  exact (of_decide_eq_true hout) (mem_dedup.1 hk)

omit [DecidableEq κ] in
lemma tally_one : tally m (fun _ => 1) = m.entries.length := by
  simp only [tally, values, map_const', sum_replicate_nat, length_map, mul_one]

omit [DecidableEq κ] in
lemma countP_values (p) : (values m).countP p = tally m fun v => if p v then 1 else 0 := by
  rw [tally]
  induction values m with
  | nil => rfl
  | cons v vs ih => rw [countP_cons, map_cons, sum_cons, ih, add_comm]

section
variable [AddCommMonoid M]
variable (m : Table κ ν) (w : ν → M)
omit [DecidableEq κ] in
@[simp] lemma tally_empty : tally (∅ : Table κ ν) w = 0 := rfl

lemma tally_erase {k} {v : ν} (h : get m k = some v) : tally (m.erase k) w + w v = tally m w := by
  obtain ⟨v', l1, l2, -, hl, he⟩ := exists_of_kerase (mem_of_get h)
  have hv : v' = v := by
    have hmem : (⟨k, v'⟩ : Sigma fun _ : κ => ν) ∈ m.entries := by rw [hl]; simp
    exact Option.some.inj ((get_eq_some_iff.2 hmem).symm.trans h)
  have herase : (m.erase k).entries = l1 ++ l2 := he
  simp only [tally, values, herase, hl, hv, map_append, map_cons, sum_append, sum_cons]
  rw [add_assoc, add_comm (sum _) (w v)]

lemma tally_insert (k v) : tally (m.insert k v) w = w v + tally (m.erase k) w := by
  rfl

lemma tally_insert_new {k} (h : k ∉ m) {v} : tally (m.insert k v) w = w v + tally m w := by
  have he : m.erase k = m := by
    apply AList.ext
    exact kerase_of_notMem_keys h
  rw [tally_insert, he]

lemma tally_congr {m m' : Table κ ν} {w : ν → M}
    (h : ∀ k, (get m k).map w = (get m' k).map w) : tally m w = tally m' w := by
  -- The weighted entries have distinct keys, so equal lookups make them a permutation.
  let weighted (m : Table κ ν) : List (κ × M) := m.entries.map fun e => (e.1, w e.2)
  have hnodup (m : Table κ ν) : (weighted m).Nodup := by
    apply Nodup.of_map Prod.fst
    have hkeys : (m.entries.map Sigma.fst).Nodup := m.nodupKeys
    simpa only [weighted, map_map, Function.comp_def] using hkeys
  have hmem (m : Table κ ν) (k : κ) (x : M) : (k, x) ∈ weighted m ↔ (get m k).map w = some x := by
    simp only [weighted, mem_map, Prod.mk.injEq, Option.map_eq_some_iff, get_eq_some_iff]
    constructor
    · rintro ⟨⟨k', v⟩, hm, rfl, hx⟩
      exact ⟨v, hm, hx⟩
    rintro ⟨v, hm, hx⟩
    exact ⟨⟨k, v⟩, hm, rfl, hx⟩
  have hperm : (weighted m).Perm (weighted m') := by
    rw [perm_ext_iff_of_nodup (hnodup m) (hnodup m')]
    rintro ⟨k, x⟩
    rw [hmem, hmem, h]
  have hsum (m) : tally m w = ((weighted m).map Prod.snd).sum := by
    simp only [tally, values, weighted, map_map, Function.comp_def]
  rw [hsum, hsum, (hperm.map Prod.snd).sum_eq]

lemma tally_modify (k f) (hf : ∀ v, w (f v) = w v) : tally (modify m k f) w = tally m w := by
  unfold modify
  cases h : get m k with
  | none => rfl
  | some v =>
    have he := tally_erase m w h
    simp only [tally_insert, hf]
    rw [add_comm, he]

end

variable (m : Table κ ν) (p : ν → Bool)

lemma le_tally (w : ν → ℕ) {k} {v : ν} (h : get m k = some v) : w v ≤ tally m w := by
  have he := tally_erase m w h
  omega

lemma tally_eq_zero (w) (h : ∀ k v, get m k = some v → w v = 0) : tally m w = 0 := by
  refine sum_eq_zero fun x hx => ?_
  obtain ⟨v, hv, rfl⟩ := mem_map.1 hx
  obtain ⟨k, hk⟩ := mem_values_iff.1 hv
  exact h k v hk

def keysWith : List κ := (m.entries.filter fun e => p e.2).map Sigma.fst

omit [DecidableEq κ] in
lemma length_keysWith : (keysWith m p).length = (values m).countP p := by
  rw [keysWith, length_map, ← countP_eq_length_filter, values, countP_map]
  rfl

omit [DecidableEq κ] in
lemma keysWith_nodup : (keysWith m p).Nodup := by
  have hkeys : (m.entries.map Sigma.fst).Nodup := m.nodupKeys
  exact hkeys.sublist (filter_sublist.map _)

lemma mem_keysWith (k) : k ∈ keysWith m p ↔ ∃ v, get m k = some v ∧ p v = true := by
  rw [keysWith, mem_map]
  constructor
  · rintro ⟨e, he, rfl⟩
    obtain ⟨hmem, hp⟩ := mem_filter.1 he
    exact ⟨e.2, get_eq_some_iff.2 hmem, hp⟩
  rintro ⟨v, hv, hp⟩
  exact ⟨⟨k, v⟩, mem_filter.2 ⟨get_eq_some_iff.1 hv, hp⟩, rfl⟩

lemma countP_values_le {m m' : Table κ ν} {p p' : ν → Bool}
    (h : ∀ k v, get m k = some v → p v = true → ∃ v', get m' k = some v' ∧ p' v' = true) :
    (values m).countP p ≤ (values m').countP p' := by
  rw [← length_keysWith, ← length_keysWith]
  apply (subperm_of_subset (keysWith_nodup m p) _).length_le
  intro k hk
  obtain ⟨v, hv, hp⟩ := (mem_keysWith m p k).1 hk
  exact (mem_keysWith m' p' k).2 (h k v hv hp)

lemma countP_values_le_succ {m m' : Table κ ν} {p p' : ν → Bool} {k}
    (h : ∀ j v, j ≠ k → get m j = some v → p v = true → ∃ v', get m' j = some v' ∧ p' v' = true) :
    (values m).countP p ≤ (values m').countP p' + 1 := by
  rw [← length_keysWith, ← length_keysWith, ← length_cons (a := k)]
  apply (subperm_of_subset (keysWith_nodup m p) _).length_le
  intro j hj
  obtain ⟨v, hv, hp⟩ := (mem_keysWith m p j).1 hj
  by_cases hjk : j = k
  · exact mem_cons.2 (Or.inl hjk)
  · exact mem_cons_of_mem _ ((mem_keysWith m' p' j).2 (h j v hjk hv hp))

omit [DecidableEq κ] in
lemma length_le_of_mem {m m' : Table κ ν} (h : ∀ k ∈ m', k ∈ m) :
    m'.entries.length ≤ m.entries.length := by
  have hkeys : m'.keys ⊆ m.keys := h
  have hle := (subperm_of_subset m'.keys_nodup hkeys).length_le
  simpa only [AList.keys, keys, length_map] using hle

lemma length_le_of_get {m m' : Table κ ν} (h : ∀ k v, get m' k = some v → get m k = some v) :
    m'.entries.length ≤ m.entries.length := by
  refine length_le_of_mem fun k hk => ?_
  obtain ⟨v, hv⟩ := exists_get_of_mem hk
  exact mem_of_get (h k v hv)

lemma length_insert_le {k v} : (m.insert k v).entries.length ≤ m.entries.length + 1 := by
  rw [AList.entries_insert, length_cons]
  exact Nat.succ_le_succ (kerase_sublist k m.entries).length_le

lemma length_insert_mem {m : Table κ ν} {k : κ} (h : k ∈ m) {v} :
    (m.insert k v).entries.length ≤ m.entries.length :=
  length_le_of_mem fun _ hj => (AList.mem_insert m).1 hj |>.elim (fun he => he ▸ h) id

end KeyedTable
