import BootTable.DistinctList
import Mathlib.Data.List.Basic

/-!
# BootTable — the first of its kind

A search through a list answers the first member of which something is true. `IsFirst` says which
one that is without the search, so that there is at most one.

* **`IsFirst.unique`**: two members that are first of their kind are the same.
* **`isFirst_filter_iff`**, **`isFirst_firstOccurrences_iff`**: what may be left out of a list.
* **`exists_isFirst_of_findSome?`**, **`findSome?_of_isFirst`**, **`isFirst_of_find?`**: what a search
  answers is first, and what is first it answers.
-/

namespace BootTable

variable {α β : Type} {p : α → Prop} {as : List α}

/-- Of the members of a list of which something is true, the first one. -/
def IsFirst (p : α → Prop) (as : List α) (a : α) : Prop :=
  ∃ before after, as = before ++ a :: after ∧ p a ∧ ∀ b ∈ before, ¬p b

theorem not_isFirst_nil {a : α} : ¬IsFirst p [] a := by
  rintro ⟨before, after, hsplit, -⟩
  exact List.append_ne_nil_of_right_ne_nil before (List.cons_ne_nil a after) hsplit.symm

theorem isFirst_cons_iff {a b : α} :
    IsFirst p (b :: as) a ↔ (a = b ∧ p b) ∨ (¬p b ∧ IsFirst p as a) := by
  constructor
  · rintro ⟨before, after, hsplit, ha, hbefore⟩
    cases before with
    | nil =>
      cases hsplit
      exact .inl ⟨rfl, ha⟩
    | cons first before =>
      cases hsplit
      exact .inr ⟨hbefore _ List.mem_cons_self,
        before, after, rfl, ha, fun c hc => hbefore c (List.mem_cons_of_mem _ hc)⟩
  · rintro (⟨rfl, ha⟩ | ⟨hb, before, after, rfl, ha, hbefore⟩)
    · exact ⟨[], as, rfl, ha, fun c hc => absurd hc List.not_mem_nil⟩
    · exact ⟨b :: before, after, rfl, ha, List.forall_mem_cons.mpr ⟨hb, hbefore⟩⟩

theorem exists_isFirst {a : α} (hmem : a ∈ as) (ha : p a) : ∃ first, IsFirst p as first := by
  induction as with
  | nil => cases hmem
  | cons b others ih =>
    by_cases hb : p b
    · exact ⟨b, isFirst_cons_iff.mpr (.inl ⟨rfl, hb⟩)⟩
    · rcases List.mem_cons.mp hmem with rfl | hin
      · exact absurd ha hb
      · obtain ⟨first, hfirst⟩ := ih hin
        exact ⟨first, isFirst_cons_iff.mpr (.inr ⟨hb, hfirst⟩)⟩

theorem IsFirst.holds {a : α} (h : IsFirst p as a) : p a := by
  obtain ⟨-, -, -, ha, -⟩ := h
  exact ha

theorem IsFirst.mem {a : α} (h : IsFirst p as a) : a ∈ as := by
  obtain ⟨before, after, rfl, -, -⟩ := h
  exact List.mem_append_right _ List.mem_cons_self

theorem IsFirst.unique {a b : α} (ha : IsFirst p as a) (hb : IsFirst p as b) : a = b := by
  induction as with
  | nil => exact absurd ha not_isFirst_nil
  | cons first others ih =>
    rcases isFirst_cons_iff.mp ha with ⟨rfl, hp⟩ | ⟨hnot, ha⟩
    · rcases isFirst_cons_iff.mp hb with ⟨rfl, -⟩ | ⟨hnot, -⟩
      · rfl
      · exact absurd hp hnot
    · rcases isFirst_cons_iff.mp hb with ⟨-, hp⟩ | ⟨-, hb⟩
      · exact absurd hp hnot
      · exact ih ha hb

/-- What is of the kind is the first one or stands behind it. -/
theorem IsFirst.eq_or_rel {r : α → α → Prop} (hordered : as.Pairwise r) {a b : α}
    (ha : IsFirst p as a) (hmem : b ∈ as) (hb : p b) : b = a ∨ r a b := by
  obtain ⟨before, after, rfl, -, hbefore⟩ := ha
  have hbehind := (List.pairwise_cons.mp (List.pairwise_append.mp hordered).2.1).1
  rcases List.mem_append.mp hmem with hmem | hmem
  · exact absurd hb (hbefore b hmem)
  · exact (List.mem_cons.mp hmem).imp_right (hbehind b)

/-- To leave out what is not of the kind does not change which one is first. -/
theorem isFirst_filter_iff {q : α → Bool} (hq : ∀ a, p a → q a = true) {a : α} :
    IsFirst p (as.filter q) a ↔ IsFirst p as a := by
  induction as with
  | nil => rfl
  | cons first others ih =>
    by_cases hkept : q first = true
    · rw [List.filter_cons_of_pos hkept, isFirst_cons_iff, isFirst_cons_iff, ih]
    · have hnot : ¬p first := mt (hq first) hkept
      rw [List.filter_cons_of_neg hkept, isFirst_cons_iff, ih]
      simp [hnot]

/-- To leave out repetitions does not change which one is first. -/
theorem isFirst_firstOccurrences_iff [DecidableEq α] {a : α} :
    IsFirst p (firstOccurrences as) a ↔ IsFirst p as a := by
  induction as with
  | nil => rfl
  | cons first others ih =>
    rw [firstOccurrences, isFirst_cons_iff, isFirst_cons_iff]
    refine or_congr Iff.rfl (and_congr_right fun hnot => ?_)
    -- What repeats the first entry is not of the kind, as the first entry is not.
    rw [isFirst_filter_iff fun b hb => ?_, ih]
    have hne : b ≠ first := fun heq => hnot (heq ▸ hb)
    exact decide_eq_true hne

/-- What is first of its kind is so among those entries, too, of which something else is true. -/
theorem IsFirst.filter {q : α → Bool} {a : α} (h : IsFirst p as a) (ha : q a = true) :
    IsFirst p (as.filter q) a := by
  obtain ⟨before, after, rfl, hp, hbefore⟩ := h
  refine ⟨before.filter q, after.filter q, ?_, hp, fun b hb => hbefore b (List.mem_of_mem_filter hb)⟩
  rw [List.filter_append, List.filter_cons_of_pos ha]

theorem isFirst_of_find? {q : α → Bool} (hq : ∀ a, q a = true ↔ p a) {a : α}
    (h : as.find? q = some a) : IsFirst p as a := by
  obtain ⟨ha, before, after, hsplit, hbefore⟩ := List.find?_eq_some_iff_append.mp h
  refine ⟨before, after, hsplit, (hq a).mp ha, fun b hb hpb => ?_⟩
  have hnot := hbefore b hb
  rw [(hq b).mpr hpb] at hnot
  cases hnot

theorem exists_isFirst_of_findSome? {f : α → Option β} (hf : ∀ a ∈ as, f a = none ↔ ¬p a) {b : β}
    (h : as.findSome? f = some b) : ∃ a, IsFirst p as a ∧ f a = some b := by
  obtain ⟨before, a, after, rfl, ha, hbefore⟩ := List.findSome?_eq_some_iff.mp h
  refine ⟨a, ⟨before, after, rfl, ?_, fun b hb => ?_⟩, ha⟩
  · by_contra hnot
    rw [(hf a (List.mem_append_right _ List.mem_cons_self)).mpr hnot] at ha
    cases ha
  · exact (hf b (List.mem_append_left _ hb)).mp (hbefore b hb)

theorem findSome?_of_isFirst {f : α → Option β} (hf : ∀ a ∈ as, ¬p a → f a = none) {a : α} {b : β}
    (h : IsFirst p as a) (ha : f a = some b) : as.findSome? f = some b := by
  obtain ⟨before, after, rfl, -, hbefore⟩ := h
  exact List.findSome?_eq_some_iff.mpr
    ⟨before, a, after, rfl, ha, fun c hc => hf c (List.mem_append_left _ hc) (hbefore c hc)⟩

/-- A search through all that there is finds nothing exactly if there is nothing of the kind. -/
theorem find?_eq_none_iff_of_forall_mem [DecidableEq β] (hall : ∀ a, a ∈ as) {key : α → β} {b : β} :
    (as.find? fun a => key a = b) = none ↔ ∀ a, key a ≠ b := by
  simp [List.find?_eq_none, hall]

end BootTable
