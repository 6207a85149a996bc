/-!
# BootTable — lists without repetition

Lists whose order matters and whose repeated entries do not: a repeated entry counts once, at
its first place. Main statements: `mem_firstOccurrences` and `nodup_firstOccurrences`.
-/

namespace BootTable

variable {α : Type}

section

variable [DecidableEq α]

/-- The entries of a list, each at the place of its first occurrence. -/
def firstOccurrences : List α → List α
  | [] => []
  | a :: as => a :: (firstOccurrences as).filter (· ≠ a)

@[simp] theorem mem_firstOccurrences {a : α} {as : List α} :
    a ∈ firstOccurrences as ↔ a ∈ as := by
  induction as with
  | nil => simp [firstOccurrences]
  | cons b bs ih =>
    by_cases h : a = b <;> simp [firstOccurrences, ih, h]

theorem nodup_firstOccurrences (as : List α) : (firstOccurrences as).Nodup := by
  induction as with
  | nil => simp [firstOccurrences]
  | cons b bs ih =>
    simp only [firstOccurrences, List.nodup_cons]
    exact ⟨by simp, ih.sublist List.filter_sublist⟩

/-- Leaving entries out commutes with leaving out repetitions. -/
theorem filter_firstOccurrences (p : α → Bool) (as : List α) :
    (firstOccurrences as).filter p = firstOccurrences (as.filter p) := by
  induction as with
  | nil => rfl
  | cons a others ih =>
    rw [firstOccurrences]
    by_cases h : p a = true
    · rw [List.filter_cons_of_pos h, List.filter_cons_of_pos h, firstOccurrences, ← ih,
        List.filter_filter, List.filter_filter]
      congr 2
      funext b
      exact Bool.and_comm _ _
    · rw [List.filter_cons_of_neg h, List.filter_cons_of_neg h, ← ih, List.filter_filter]
      apply List.filter_congr
      intro b _
      by_cases hb : b = a
      · simp [hb, h]
      · simp [hb]

/-- Of a second list what is new counts. -/
theorem firstOccurrences_append (as bs : List α) :
    firstOccurrences (as ++ bs) =
      firstOccurrences as ++ (firstOccurrences bs).filter fun b => b ∉ as := by
  induction as with
  | nil =>
    have hall : (firstOccurrences bs).filter (fun b => b ∉ ([] : List α)) = firstOccurrences bs := by
      simp
    rw [hall]
    rfl
  | cons a others ih =>
    rw [List.cons_append, firstOccurrences, firstOccurrences, ih, List.filter_append,
      List.filter_filter, List.cons_append]
    congr 2
    apply List.filter_congr
    intro b _
    by_cases hb : b = a
    · simp [hb]
    · simp [hb]

/-- An entry at the end counts if it is new. -/
theorem firstOccurrences_concat (as : List α) (a : α) :
    firstOccurrences (as ++ [a]) =
      if a ∈ as then firstOccurrences as else firstOccurrences as ++ [a] := by
  rw [firstOccurrences_append]
  by_cases hmem : a ∈ as
  · simp [firstOccurrences, hmem]
  · simp [firstOccurrences, hmem]

/-- Where different entries stay different, so do repetitions. -/
theorem firstOccurrences_map {β : Type} [DecidableEq β] {f : α → β} (hf : ∀ a b, f a = f b → a = b)
    (as : List α) : firstOccurrences (as.map f) = (firstOccurrences as).map f := by
  induction as with
  | nil => rfl
  | cons a others ih =>
    rw [List.map_cons, firstOccurrences, firstOccurrences, ih, List.map_cons, List.filter_map]
    congr 2
    apply List.filter_congr
    intro b _
    have hsame : f b = f a ↔ b = a := ⟨hf b a, congrArg f⟩
    simp [hsame]

/-- Where no entry is repeated, none is left out. -/
theorem firstOccurrences_of_nodup {as : List α} (h : as.Nodup) : firstOccurrences as = as := by
  induction as with
  | nil => rfl
  | cons a others ih =>
    rw [List.nodup_cons] at h
    rw [firstOccurrences, ih h.2, List.filter_eq_self.mpr]
    intro b hb
    have hne : b ≠ a := fun heq => h.1 (heq ▸ hb)
    exact decide_eq_true hne

theorem firstOccurrences_eq_eraseDups (as : List α) : firstOccurrences as = as.eraseDups := by
  match as with
  | [] => simp [firstOccurrences]
  | a :: others =>
    rw [firstOccurrences, filter_firstOccurrences, firstOccurrences_eq_eraseDups,
      List.eraseDups_cons]
    congr 2
    apply List.filter_congr
    intro b _
    by_cases hb : b = a
    · simp [hb]
    · simp [hb]
termination_by as.length
decreasing_by exact Nat.lt_succ_of_le (List.length_filter_le _ _)

end

/-- Without repetition, a list has at most one entry exactly if any two entries are equal. -/
theorem length_le_one_iff_of_nodup {as : List α} (h : as.Nodup) :
    as.length ≤ 1 ↔ ∀ a ∈ as, ∀ b ∈ as, a = b := by
  match as with
  | [] => simp
  | [a] => simp
  | a :: b :: rest =>
    constructor
    · intro hle
      simp at hle
    · intro hall
      have hab : a = b := hall a (by simp) b (by simp)
      rw [hab, List.nodup_cons] at h
      exact absurd List.mem_cons_self h.1

/-- A list in which no entry is repeated. -/
structure DistinctList (α : Type) where
  toList : List α
  nodup : toList.Nodup
deriving DecidableEq

namespace DistinctList

def empty : DistinctList α := ⟨[], List.nodup_nil⟩

instance : Membership α (DistinctList α) := ⟨fun as a => a ∈ as.toList⟩

@[simp] theorem mem_toList {a : α} {as : DistinctList α} : a ∈ as.toList ↔ a ∈ as := Iff.rfl

variable [DecidableEq α]

instance (a : α) (as : DistinctList α) : Decidable (a ∈ as) :=
  inferInstanceAs (Decidable (a ∈ as.toList))

def ofList (as : List α) : DistinctList α := ⟨firstOccurrences as, nodup_firstOccurrences as⟩

@[simp] theorem toList_ofList (as : List α) : (ofList as).toList = firstOccurrences as := rfl

theorem mem_ofList {a : α} {as : List α} : a ∈ ofList as ↔ a ∈ as :=
  mem_firstOccurrences

end DistinctList

end BootTable
