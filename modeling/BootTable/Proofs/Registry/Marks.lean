import BootTable.Proofs.PairList
import BootTable.Registry.Rules
import Mathlib.Data.List.Induction

/-!
# BootTable — the earliest and latest marks

Marks are collected capability by capability while the components pass by. Seen from one
capability, the pass is a fold over the components that mention it: the mark it has is replaced by
a better one and kept against any other. A comparison that follows a rank of the phases thus leaves
the first component of the best rank.

* **`map_fst_collect`**: capabilities are marked in the order in which they are first mentioned.
* **`lookup_collect`**: the mark of a capability is the best one of the components that mention it.
* **`exists_split_of_best`**: what is before the best mark is worse, what is after it no better.
* **`exists_of_mem_collect`**, **`exists_mem_collect`**: marks and the components that they are of.
-/

namespace BootTable.Marks

variable {better : Phase → Phase → Bool}

/-! ## Keeping marks -/

/-- The better of a mark that may be there and a new one. -/
def improve (better : Phase → Phase → Bool) (old? : Option Mark) (new : Mark) : Mark :=
  match old? with
  | none => new
  | some old => if better new.phase old.phase then new else old

/-- The best of several marks; the first one, of those that are equally good. -/
def best (better : Phase → Phase → Bool) (marks : List Mark) : Option Mark :=
  marks.foldl (fun old? new => some (improve better old? new)) none

theorem best_concat (marks : List Mark) (mark : Mark) :
    best better (marks ++ [mark]) = some (improve better (best better marks) mark) := by
  simp [best, List.foldl_append]

/-- To offer a mark twice is to offer it once. -/
theorem improve_improve (old? : Option Mark) (mark : Mark) :
    improve better (some (improve better old? mark)) mark = improve better old? mark := by
  cases old? with
  | none => exact ite_self mark
  | some old =>
    by_cases h : better mark.phase old.phase = true
    · simp [improve, h]
    · simp [improve, h]

theorem keep_eq_upsert (mark : Mark) (capability : Capability) (marks : Marks) :
    keep better mark capability marks =
      upsert capability (fun old? => improve better old? mark) marks := by
  induction marks with
  | nil => rfl
  | cons entry others ih =>
    unfold keep upsert
    rw [ih]
    rfl

theorem lookup_keep (mark : Mark) (capability other : Capability) (marks : Marks) :
    (keep better mark capability marks).lookup other =
      if other = capability then some (improve better (marks.lookup other) mark)
      else marks.lookup other := by
  rw [keep_eq_upsert, lookup_upsert]

theorem map_fst_keep (mark : Mark) (capability : Capability) (marks : Marks) :
    (keep better mark capability marks).map Prod.fst =
      if capability ∈ marks.map Prod.fst then marks.map Prod.fst
      else marks.map Prod.fst ++ [capability] := by
  rw [keep_eq_upsert, map_fst_upsert]

/-! ## Collecting marks -/

/-- Marks everything that one component mentions. -/
def keepAll (better : Phase → Phase → Bool) (mark : Mark) (capabilities : List Capability)
    (marks : Marks) : Marks :=
  capabilities.foldl (fun marks capability => keep better mark capability marks) marks

theorem lookup_keepAll (mark : Mark) (capabilities : List Capability) (other : Capability)
    (marks : Marks) :
    (keepAll better mark capabilities marks).lookup other =
      if other ∈ capabilities then some (improve better (marks.lookup other) mark)
      else marks.lookup other := by
  induction capabilities using List.reverseRecOn with
  | nil => simp [keepAll]
  | append_singleton capabilities capability ih =>
    have hlast : keepAll better mark (capabilities ++ [capability]) marks =
        keep better mark capability (keepAll better mark capabilities marks) := by
      simp [keepAll, List.foldl_append]
    rw [hlast, lookup_keep, ih]
    by_cases hother : other = capability
    · by_cases hmem : other ∈ capabilities
      · rw [if_pos hother, if_pos hmem, improve_improve, if_pos (by simp [hmem])]
      · rw [if_pos hother, if_neg hmem, if_pos (by simp [hother])]
    · by_cases hmem : other ∈ capabilities
      · rw [if_neg hother, if_pos hmem, if_pos (by simp [hmem])]
      · rw [if_neg hother, if_neg hmem, if_neg (by simp [hother, hmem])]

theorem map_fst_keepAll {mark : Mark} {marks : Marks} {mentionedBefore : List Capability}
    (h : marks.map Prod.fst = firstOccurrences mentionedBefore) (capabilities : List Capability) :
    (keepAll better mark capabilities marks).map Prod.fst =
      firstOccurrences (mentionedBefore ++ capabilities) := by
  induction capabilities generalizing marks mentionedBefore with
  | nil => rw [List.append_nil, ← h, keepAll, List.foldl_nil]
  | cons capability others ih =>
    have hkeep : (keep better mark capability marks).map Prod.fst =
        firstOccurrences (mentionedBefore ++ [capability]) := by
      rw [map_fst_keep, h, firstOccurrences_concat]
      simp only [mem_firstOccurrences]
    have hrest := ih hkeep
    rw [List.append_assoc, List.singleton_append] at hrest
    exact hrest

variable {mentioned : Component → List Capability}

theorem collect_concat (components : List Component) (component : Component) :
    collect better mentioned (components ++ [component]) =
      keepAll better component.mark (mentioned component)
        (collect better mentioned components) := by
  simp [collect, keepAll, List.foldl_append]

/-- Capabilities are marked in the order in which they are first mentioned. -/
theorem map_fst_collect (components : List Component) :
    (collect better mentioned components).map Prod.fst =
      firstOccurrences (components.flatMap mentioned) := by
  induction components using List.reverseRecOn with
  | nil => rfl
  | append_singleton components component ih =>
    rw [collect_concat, map_fst_keepAll ih, List.flatMap_append]
    simp

theorem lookup_collect (components : List Component) (capability : Capability) :
    (collect better mentioned components).lookup capability =
      best better ((components.filter fun component => capability ∈ mentioned component).map
        Component.mark) := by
  induction components using List.reverseRecOn with
  | nil => rfl
  | append_singleton components component ih =>
    rw [collect_concat, lookup_keepAll, ih, List.filter_append, List.map_append]
    by_cases h : capability ∈ mentioned component
    · simp [h, best_concat]
    · simp [h]

theorem nodup_keys_collect (components : List Component) :
    ((collect better mentioned components).map Prod.fst).Nodup := by
  rw [map_fst_collect]
  exact nodup_firstOccurrences _

theorem mem_collect_iff {components : List Component} {capability : Capability} {mark : Mark} :
    (capability, mark) ∈ collect better mentioned components ↔
      best better ((components.filter fun component => capability ∈ mentioned component).map
        Component.mark) = some mark := by
  rw [← lookup_eq_some_iff_mem (nodup_keys_collect components), lookup_collect]

/-! ## The best mark -/

theorem best_eq_none_iff {marks : List Mark} : best better marks = none ↔ marks = [] := by
  cases marks using List.reverseRecOn with
  | nil => simp [best]
  | append_singleton marks mark => simp [best_concat]

theorem exists_split_of_best {rank : Phase → Nat}
    (hrank : ∀ p q, better p q = true ↔ rank p < rank q) {marks : List Mark} {mark : Mark}
    (h : best better marks = some mark) :
    ∃ before after, marks = before ++ mark :: after ∧
      (∀ other ∈ before, rank mark.phase < rank other.phase) ∧
      ∀ other ∈ after, rank mark.phase ≤ rank other.phase := by
  -- From the right: a last mark that is better than the best one so far is better than all before.
  induction marks using List.reverseRecOn generalizing mark with
  | nil => simp [best] at h
  | append_singleton marks last ih =>
    rw [best_concat, Option.some.injEq] at h
    cases hbest : best better marks with
    | none =>
      rw [hbest] at h
      rw [best_eq_none_iff.mp hbest]
      exact ⟨[], [], by simpa [improve] using h, by simp, by simp⟩
    | some old =>
      obtain ⟨before, after, rfl, hbefore, hafter⟩ := ih hbest
      rw [hbest] at h
      by_cases hlt : rank last.phase < rank old.phase
      · have hlast : last = mark := by simpa [improve, (hrank _ _).mpr hlt] using h
        subst hlast
        refine ⟨before ++ old :: after, [], by simp, fun other hother => ?_, by simp⟩
        rcases List.mem_append.mp hother with hmem | hmem
        · have := hbefore other hmem
          omega
        · rcases List.mem_cons.mp hmem with rfl | hmem
          · exact hlt
          · have := hafter other hmem
            omega
      · have hold : old = mark := by simpa [improve, hrank, hlt] using h
        subst hold
        refine ⟨before, after ++ [last], by simp, hbefore, fun other hother => ?_⟩
        rcases List.mem_append.mp hother with hmem | hmem
        · exact hafter other hmem
        · rw [List.mem_singleton.mp hmem]
          omega

theorem rank_le_of_best {rank : Phase → Nat}
    (hrank : ∀ p q, better p q = true ↔ rank p < rank q) {marks : List Mark} {mark : Mark}
    (h : best better marks = some mark) {other : Mark} (hmem : other ∈ marks) :
    rank mark.phase ≤ rank other.phase := by
  obtain ⟨before, after, rfl, hbefore, hafter⟩ := exists_split_of_best hrank h
  rcases List.mem_append.mp hmem with hmem | hmem
  · exact Nat.le_of_lt (hbefore other hmem)
  · rcases List.mem_cons.mp hmem with rfl | hmem
    · exact Nat.le_refl _
    · exact hafter other hmem

theorem mem_of_best {rank : Phase → Nat}
    (hrank : ∀ p q, better p q = true ↔ rank p < rank q) {marks : List Mark} {mark : Mark}
    (h : best better marks = some mark) : mark ∈ marks := by
  obtain ⟨before, after, rfl, -, -⟩ := exists_split_of_best hrank h
  simp

/-! ## The components behind the marks -/

theorem exists_of_mem_collect {rank : Phase → Nat}
    (hrank : ∀ p q, better p q = true ↔ rank p < rank q) {components : List Component}
    {capability : Capability} {mark : Mark}
    (h : (capability, mark) ∈ collect better mentioned components) :
    ∃ component ∈ components, capability ∈ mentioned component ∧ component.mark = mark := by
  obtain ⟨component, hmem, hmark⟩ :=
    List.mem_map.mp (mem_of_best hrank (mem_collect_iff.mp h))
  obtain ⟨hcomponent, hmentioned⟩ := List.mem_filter.mp hmem
  exact ⟨component, hcomponent, of_decide_eq_true hmentioned, hmark⟩

/-- A capability that a component mentions has a mark, and no component has a better one. -/
theorem exists_mem_collect {rank : Phase → Nat}
    (hrank : ∀ p q, better p q = true ↔ rank p < rank q) {components : List Component}
    {component : Component} (hmem : component ∈ components) {capability : Capability}
    (h : capability ∈ mentioned component) :
    ∃ mark, (capability, mark) ∈ collect better mentioned components ∧
      rank mark.phase ≤ rank component.phase := by
  have hmarked : component.mark ∈ (components.filter fun component =>
      capability ∈ mentioned component).map Component.mark :=
    List.mem_map_of_mem (List.mem_filter.mpr ⟨hmem, decide_eq_true h⟩)
  cases hbest : best better ((components.filter fun component =>
      capability ∈ mentioned component).map Component.mark) with
  | none =>
    rw [best_eq_none_iff.mp hbest] at hmarked
    exact absurd hmarked List.not_mem_nil
  | some mark => exact ⟨mark, mem_collect_iff.mpr hbest, rank_le_of_best hrank hbest hmarked⟩

end BootTable.Marks
