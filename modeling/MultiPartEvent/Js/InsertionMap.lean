import Mathlib

/-!
# Insertion-ordered maps

The `Map` of the source language: a finite map that iterates its keys in the order in which
they were first set.  Setting a key that is present keeps its place.

`InsertionMap.collect` is the loop shape the program repeats: walk a list and update the
entry of each element's key.  The two results about it, `get?_collect` and
`mem_keys_collect`, say that such a loop splits by key: the entry of `k` depends on the
elements of key `k` only, in their order.
-/

namespace MultiPartEvent

/-- A map that remembers insertion order: its entries, no key twice. -/
structure InsertionMap (κ ν : Type*) where
  /-- The entries in insertion order. -/
  entries : List (κ × ν)
  /-- No key has two entries. -/
  nodup : (entries.map Prod.fst).Nodup

namespace InsertionMap

variable {α κ ν : Type*} [DecidableEq κ]

/-- The map without entries. -/
def empty : InsertionMap κ ν := ⟨[], by simp⟩

/-- The keys in insertion order. -/
def keys (m : InsertionMap κ ν) : List κ := m.entries.map Prod.fst

/-- The values in insertion order. -/
def values (m : InsertionMap κ ν) : List ν := m.entries.map Prod.snd

/-- The number of entries. -/
def size (m : InsertionMap κ ν) : ℕ := m.entries.length

/-- The value at a key. -/
def get? (m : InsertionMap κ ν) (k : κ) : Option ν := m.entries.lookup k

/-- The entries after setting a key: replaced in place, or appended. -/
def setEntries (l : List (κ × ν)) (k : κ) (v : ν) : List (κ × ν) :=
  if k ∈ l.map Prod.fst then l.map (fun e => if e.1 = k then (k, v) else e) else l ++ [(k, v)]

/-- Setting a key appends it to the keys unless it is one of them. -/
lemma map_fst_setEntries (l : List (κ × ν)) (k : κ) (v : ν) :
    (setEntries l k v).map Prod.fst =
      if k ∈ l.map Prod.fst then l.map Prod.fst else l.map Prod.fst ++ [k] := by
  unfold setEntries
  split_ifs with hk
  · rw [List.map_map]
    refine List.map_congr_left fun e _ => ?_
    by_cases he : e.1 = k <;> simp [he]
  · simp

/-- Set the value at a key. -/
def set (m : InsertionMap κ ν) (k : κ) (v : ν) : InsertionMap κ ν where
  entries := setEntries m.entries k v
  nodup := by
    rw [map_fst_setEntries]
    split_ifs with hk
    · exact m.nodup
    · exact List.nodup_append.mpr ⟨m.nodup, by simp, by
        rintro a ha b hb rfl
        exact hk (List.mem_singleton.mp hb ▸ ha)⟩

/-- Update the value at a key from its previous value, if any. -/
def upsert (m : InsertionMap κ ν) (k : κ) (f : Option ν → ν) : InsertionMap κ ν :=
  m.set k (f (m.get? k))

/-! ### Lookup -/

omit [DecidableEq κ] in
/-- The keys are pairwise distinct. -/
lemma nodup_keys (m : InsertionMap κ ν) : m.keys.Nodup := m.nodup

omit [DecidableEq κ] in
/-- There are as many keys as entries. -/
@[simp] lemma length_keys (m : InsertionMap κ ν) : m.keys.length = m.size := by
  simp [keys, size]

@[simp] lemma get?_empty (k : κ) : (empty : InsertionMap κ ν).get? k = none := rfl

omit [DecidableEq κ] in
@[simp] lemma keys_empty : (empty : InsertionMap κ ν).keys = [] := rfl

/-- A key has a value exactly when the pair is an entry. -/
lemma get?_eq_some_iff {m : InsertionMap κ ν} {k : κ} {v : ν} :
    m.get? k = some v ↔ (k, v) ∈ m.entries := by
  obtain ⟨l, hl⟩ := m
  simp only [get?]
  induction l with
  | nil => simp
  | cons e l ih =>
    obtain ⟨j, w⟩ := e
    rw [List.map_cons, List.nodup_cons] at hl
    rw [List.lookup_cons, List.mem_cons, Prod.mk.injEq]
    by_cases hkj : k = j
    · subst hkj
      have habsent : (k, v) ∉ l := fun h => hl.1 (List.mem_map.mpr ⟨_, h, rfl⟩)
      simp [habsent, eq_comm]
    · have hne : (k == j) = false := beq_eq_false_iff_ne.mpr hkj
      rw [hne]
      simp only [hkj, false_and, false_or]
      exact ih hl.2

/-- A key has no value exactly when it is not one of the keys. -/
lemma get?_eq_none_iff {m : InsertionMap κ ν} {k : κ} : m.get? k = none ↔ k ∉ m.keys := by
  rw [Option.eq_none_iff_forall_ne_some]
  simp [get?_eq_some_iff, keys]

/-- A key with a value is one of the keys. -/
lemma mem_keys_iff {m : InsertionMap κ ν} {k : κ} : k ∈ m.keys ↔ ∃ v, m.get? k = some v := by
  rw [← not_iff_not, ← get?_eq_none_iff, Option.eq_none_iff_forall_ne_some]
  simp

/-- The values are those of the keys. -/
lemma mem_values_iff {m : InsertionMap κ ν} {v : ν} : v ∈ m.values ↔ ∃ k, m.get? k = some v := by
  unfold values
  simp only [List.mem_map, Prod.exists, exists_eq_right, get?_eq_some_iff]

/-- The keys after setting a key. -/
lemma keys_set (m : InsertionMap κ ν) (k : κ) (v : ν) :
    (m.set k v).keys = if k ∈ m.keys then m.keys else m.keys ++ [k] :=
  map_fst_setEntries m.entries k v

/-- Setting a key adds it to the keys and no other. -/
@[simp] lemma mem_keys_set {m : InsertionMap κ ν} {k j : κ} {v : ν} :
    j ∈ (m.set k v).keys ↔ j ∈ m.keys ∨ j = k := by
  rw [keys_set]
  split_ifs with hk
  · constructor
    · exact Or.inl
    · rintro (h | rfl)
      exacts [h, hk]
  · simp

/-- The value after setting a key. -/
lemma get?_set (m : InsertionMap κ ν) (k j : κ) (v : ν) :
    (m.set k v).get? j = if j = k then some v else m.get? j := by
  ext w
  rw [get?_eq_some_iff]
  change (j, w) ∈ setEntries m.entries k v ↔ _
  unfold setEntries
  by_cases hjk : j = k
  · subst hjk
    rw [if_pos rfl]
    split_ifs with hj
    · obtain ⟨e, he, hej⟩ := List.mem_map.mp hj
      simp only [List.mem_map, Option.some.injEq]
      constructor
      · rintro ⟨e', -, he'⟩
        split_ifs at he' with h
        · exact (Prod.mk.inj he').2
        · exact absurd (congrArg Prod.fst he') h
      · rintro rfl
        exact ⟨e, he, by rw [if_pos hej]⟩
    · have habsent : (j, w) ∉ m.entries := fun h => hj (List.mem_map.mpr ⟨_, h, rfl⟩)
      simp [habsent, eq_comm]
  · rw [if_neg hjk, get?_eq_some_iff]
    split_ifs with hk
    · simp only [List.mem_map]
      constructor
      · rintro ⟨e, he, heq⟩
        split_ifs at heq with h
        · exact absurd (congrArg Prod.fst heq).symm hjk
        · exact heq ▸ he
      · intro h
        exact ⟨_, h, by rw [if_neg hjk]⟩
    · simp [hjk]

/-- The values are those of the keys, in key order. -/
lemma values_eq_filterMap (m : InsertionMap κ ν) : m.values = m.keys.filterMap m.get? := by
  have hentry : ∀ e ∈ m.entries, (fun e : κ × ν => m.get? e.1) e = some e.2 := fun e he =>
    get?_eq_some_iff.mpr he
  rw [keys, List.filterMap_map, values, ← List.filterMap_eq_map]
  exact List.filterMap_congr fun e he => (hentry e he).symm

/-- Among entries no two of which share a key, those with a given key are the entry of that
key, if there is one. -/
lemma filter_entries (m : InsertionMap κ ν) (k : κ) :
    m.entries.filter (fun e => e.1 = k) = (m.get? k).toList.map fun v => (k, v) := by
  obtain ⟨l, hl⟩ := m
  simp only [get?]
  induction l with
  | nil => rfl
  | cons e l ih =>
    obtain ⟨j, w⟩ := e
    rw [List.map_cons, List.nodup_cons] at hl
    rw [List.filter_cons, List.lookup_cons]
    by_cases hjk : j = k
    · subst hjk
      have hrest : l.filter (fun e => e.1 = j) = [] := by
        rw [List.filter_eq_nil_iff]
        intro e he hej
        exact hl.1 (List.mem_map.mpr ⟨e, he, by simpa using hej⟩)
      simp [hrest]
    · have hne : (k == j) = false := beq_eq_false_iff_ne.mpr (Ne.symm hjk)
      rw [hne]
      simpa [hjk] using ih hl.2

/-- A walk over the entries in any order, restricted to what one key contributes, is the walk
over the entry of that key. -/
lemma filter_flatMap_entries {β : Type*} {m : InsertionMap κ ν} {l : List (κ × ν)}
    (hl : l.Perm m.entries) {f : κ × ν → List β} {p : β → Bool} {k : κ}
    (hp : ∀ e, ∀ b ∈ f e, p b = true ↔ e.1 = k) :
    (l.flatMap f).filter p = (m.get? k).toList.flatMap fun v => f (k, v) := by
  have hentry : l.filter (fun e => e.1 = k) = (m.get? k).toList.map fun v => (k, v) := by
    have hperm := hl.filter (fun e => decide (e.1 = k))
    rw [filter_entries] at hperm
    cases hget : m.get? k with
    | none => simpa [hget] using hperm
    | some v => simpa [hget] using hperm
  have hsplit : (l.flatMap f).filter p = (l.filter (fun e => e.1 = k)).flatMap f := by
    rw [List.filter_flatMap]
    clear hl hentry
    induction l with
    | nil => rfl
    | cons e l ih =>
      rw [List.flatMap_cons, ih, List.filter_cons]
      by_cases he : e.1 = k
      · have hall : (f e).filter p = f e :=
          List.filter_eq_self.mpr fun b hb => (hp e b hb).mpr he
        simp [he, hall]
      · have hnone : (f e).filter p = [] :=
          List.filter_eq_nil_iff.mpr fun b hb hpb => he ((hp e b hb).mp hpb)
        simp [he, hnone]
  rw [hsplit, hentry, List.flatMap_map]

/-! ### Loops that update the entry of each element's key -/

/-- Walk a list and update the entry of each element's key from its previous value. -/
def collect (key : α → κ) (step : Option ν → α → ν) (m : InsertionMap κ ν) (l : List α) :
    InsertionMap κ ν :=
  l.foldl (fun m a => m.upsert (key a) (fun v => step v a)) m

variable {key : α → κ} {step : Option ν → α → ν}

@[simp] lemma collect_nil (m : InsertionMap κ ν) : collect key step m [] = m := rfl

@[simp] lemma collect_cons (m : InsertionMap κ ν) (a : α) (l : List α) :
    collect key step m (a :: l) =
      collect key step (m.upsert (key a) (fun v => step v a)) l := rfl

/-- The entry of a key is built from the elements of that key, in order. -/
theorem get?_collect (m : InsertionMap κ ν) (l : List α) (k : κ) :
    (collect key step m l).get? k =
      (l.filter (fun a => key a = k)).foldl (fun v a => some (step v a)) (m.get? k) := by
  induction l generalizing m with
  | nil => rfl
  | cons a l ih =>
    rw [collect_cons, ih, upsert, get?_set]
    by_cases hk : key a = k
    · subst hk
      simp
    · simp [hk, Ne.symm hk]

/-- The keys are those the loop started with and those of the elements. -/
theorem mem_keys_collect {m : InsertionMap κ ν} {l : List α} {k : κ} :
    k ∈ (collect key step m l).keys ↔ k ∈ m.keys ∨ ∃ a ∈ l, key a = k := by
  induction l generalizing m with
  | nil => simp
  | cons a l ih =>
    rw [collect_cons, ih, upsert, mem_keys_set, or_assoc, @eq_comm _ k (key a)]
    simp only [List.mem_cons, exists_eq_or_imp]

/-- Setting a key adds an entry unless it has one. -/
lemma size_set (m : InsertionMap κ ν) (k : κ) (v : ν) :
    (m.set k v).size = if k ∈ m.keys then m.size else m.size + 1 := by
  rw [← length_keys, keys_set]
  split_ifs <;> simp

end InsertionMap

end MultiPartEvent
