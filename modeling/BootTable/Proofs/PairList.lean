import Mathlib.Data.List.Nodup

/-!
# BootTable — lists of keys and values

Indexes, marks and counters are lists of pairs. A lookup answers the value of the first pair with
the key, so where no key is repeated the lookups say the same as membership. Pairs are added one
after the other: `upsert` changes what a key stands for and puts a new key at the end.

* **`lookup_eq_some_iff_mem`**: lookups as membership.
* **`lookup_upsert`**, **`map_fst_upsert`**: what an update does to lookups and to the keys.
-/

namespace BootTable

/-- Changes what a key stands for; a new key comes to stand at the end. -/
def upsert {α β : Type} [DecidableEq α] (key : α) (change : Option β → β) :
    List (α × β) → List (α × β)
  | [] => [(key, change none)]
  | pair :: pairs =>
    if pair.1 = key then (pair.1, change (some pair.2)) :: pairs
    else pair :: upsert key change pairs

variable {α β : Type} [DecidableEq α] [BEq α] [LawfulBEq α]

theorem lookup_cons_eq_ite (key : α) (pair : α × β) (pairs : List (α × β)) :
    (pair :: pairs).lookup key = if key = pair.1 then some pair.2 else pairs.lookup key := by
  rw [List.lookup_cons]
  by_cases h : key = pair.1
  · simp [h]
  · have hbeq : (key == pair.1) = false := by simpa using h
    rw [if_neg h, hbeq]

/-- Leaving out the pairs of one key does not change what other keys stand for. -/
theorem lookup_filter_fst_ne {key other : α} (h : other ≠ key) (pairs : List (α × β)) :
    (pairs.filter fun pair => pair.1 ≠ key).lookup other = pairs.lookup other := by
  induction pairs with
  | nil => rfl
  | cons pair pairs ih =>
    rw [lookup_cons_eq_ite, ← ih, List.filter_cons]
    by_cases hkey : pair.1 = key
    · have hne : other ≠ pair.1 := fun heq => h (heq.trans hkey)
      simp [hkey, h]
    · simp [hkey, lookup_cons_eq_ite]

/-- Where no key is repeated, a lookup answers the value that stands beside the key. -/
theorem lookup_eq_some_iff_mem {pairs : List (α × β)} (hkeys : (pairs.map Prod.fst).Nodup)
    {key : α} {value : β} : pairs.lookup key = some value ↔ (key, value) ∈ pairs := by
  induction pairs with
  | nil => simp
  | cons pair pairs ih =>
    rw [List.map_cons, List.nodup_cons] at hkeys
    rw [lookup_cons_eq_ite, List.mem_cons]
    by_cases h : key = pair.1
    · have habsent : (key, value) ∉ pairs := fun hmem =>
        hkeys.1 (h ▸ List.mem_map_of_mem (f := Prod.fst) hmem)
      rw [if_pos h, Option.some.injEq]
      constructor
      · rintro rfl
        exact .inl (Prod.ext h rfl)
      · rintro (heq | hmem)
        · rw [← heq]
        · exact absurd hmem habsent
    · have hne : (key, value) ≠ pair := fun heq => h (by rw [← heq])
      rw [if_neg h, ih hkeys.2]
      simp [hne]

theorem lookup_map_graph (f : α → β) (keys : List α) (key : α) :
    (keys.map fun k => (k, f k)).lookup key = if key ∈ keys then some (f key) else none := by
  induction keys with
  | nil => rfl
  | cons k keys ih =>
    rw [List.map_cons, lookup_cons_eq_ite, ih]
    by_cases h : key = k
    · simp [h]
    · simp [h]

/-- Entries kept under a key of their own are found by the first entry that has it. -/
theorem lookup_map_pair {γ : Type} (key : γ → α) (value : γ → β) (entries : List γ) (k : α) :
    (entries.map fun entry => (key entry, value entry)).lookup k =
      (entries.find? fun entry => key entry = k).map value := by
  induction entries with
  | nil => rfl
  | cons entry entries ih =>
    rw [List.map_cons, lookup_cons_eq_ite, ih]
    by_cases h : key entry = k
    · simp [h]
    · have hne : k ≠ key entry := fun heq => h heq.symm
      simp [h, hne]

/-- Where no key is repeated, the list is given by its keys and what they stand for. -/
theorem eq_map_graph_of_lookup {pairs : List (α × β)} (hkeys : (pairs.map Prod.fst).Nodup)
    {f : α → β} (hf : ∀ key ∈ pairs.map Prod.fst, pairs.lookup key = some (f key)) :
    pairs = (pairs.map Prod.fst).map fun key => (key, f key) := by
  have hsame : ∀ pair ∈ pairs, pair = (pair.1, f pair.1) := by
    intro pair hmem
    have hvalue := (lookup_eq_some_iff_mem hkeys).mpr hmem
    rw [hf pair.1 (List.mem_map_of_mem hmem), Option.some.injEq] at hvalue
    rw [hvalue]
  rw [List.map_map]
  exact (List.map_id pairs).symm.trans (List.map_congr_left hsame)

/-! ## Updates -/

theorem lookup_upsert (key other : α) (change : Option β → β) (pairs : List (α × β)) :
    (upsert key change pairs).lookup other =
      if other = key then some (change (pairs.lookup other)) else pairs.lookup other := by
  induction pairs with
  | nil => rw [upsert, lookup_cons_eq_ite]; rfl
  | cons pair pairs ih =>
    unfold upsert
    by_cases hpair : pair.1 = key
    · rw [if_pos hpair, lookup_cons_eq_ite, lookup_cons_eq_ite]
      by_cases hother : other = key
      · simp [hother, hpair]
      · have hne : other ≠ pair.1 := fun h => hother (h.trans hpair)
        simp [hother, hne]
    · rw [if_neg hpair, lookup_cons_eq_ite, lookup_cons_eq_ite, ih]
      by_cases hother : other = pair.1
      · simp [hother, hpair]
      · simp [hother]

theorem map_fst_upsert (key : α) (change : Option β → β) (pairs : List (α × β)) :
    (upsert key change pairs).map Prod.fst =
      if key ∈ pairs.map Prod.fst then pairs.map Prod.fst else pairs.map Prod.fst ++ [key] := by
  induction pairs with
  | nil => rfl
  | cons pair pairs ih =>
    unfold upsert
    by_cases hpair : pair.1 = key
    · simp [hpair]
    · have hne : key ≠ pair.1 := fun h => hpair h.symm
      rw [if_neg hpair, List.map_cons, ih]
      by_cases hmem : key ∈ pairs.map Prod.fst
      · have hcons : key ∈ (pair :: pairs).map Prod.fst := List.mem_cons_of_mem _ hmem
        rw [if_pos hmem, if_pos hcons, List.map_cons]
      · have hnot : key ∉ (pair :: pairs).map Prod.fst := by
          rw [List.map_cons, List.mem_cons]
          exact fun h => h.elim hne hmem
        rw [if_neg hmem, if_neg hnot, List.map_cons, List.cons_append]

omit [BEq α] [LawfulBEq α] in
theorem upsert_of_notMem {key : α} {pairs : List (α × β)} (h : key ∉ pairs.map Prod.fst)
    (change : Option β → β) : upsert key change pairs = pairs ++ [(key, change none)] := by
  induction pairs with
  | nil => rfl
  | cons pair pairs ih =>
    rw [List.map_cons, List.mem_cons, not_or] at h
    rw [upsert, if_neg fun heq => h.1 heq.symm, ih h.2, List.cons_append]

end BootTable
