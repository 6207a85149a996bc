import BootTable.DistinctList
import Mathlib.Data.List.Forall2

/-!
# BootTable — related lists

Two lists are compared place by place, with `List.Forall₂`; up to items that one of them leaves out;
or by their members, where neither the order nor repetitions count.

* **`exists_rel_of_mem`**, **`forall_mem_iff_of_forall₂`**: what lists that are related place by
  place say about their members.
* **`Omits.flatMap`**: to leave items out of each part is to leave them out of the whole.
* **`SameMembers.mapM`**: a function that may fail, applied to all items of a list, fails for lists
  with the same members alike.
-/

namespace BootTable

variable {α β : Type}

/-! ## Place by place -/

section

variable {R : α → β → Prop} {as : List α} {bs : List β}

theorem exists_rel_of_mem (h : List.Forall₂ R as bs) {a : α} (hmem : a ∈ as) :
    ∃ b ∈ bs, R a b := by
  induction h with
  | nil => cases hmem
  | cons hrel _ ih =>
    rcases List.mem_cons.mp hmem with rfl | hin
    · exact ⟨_, List.mem_cons_self, hrel⟩
    · obtain ⟨b, hb, hfound⟩ := ih hin
      exact ⟨b, List.mem_cons_of_mem _ hb, hfound⟩

theorem forall_mem_iff_of_forall₂ {p : α → Prop} {q : β → Prop}
    (himp : ∀ a b, R a b → (p a ↔ q b)) (h : List.Forall₂ R as bs) :
    (∀ a ∈ as, p a) ↔ ∀ b ∈ bs, q b := by
  induction h with
  | nil => exact iff_of_true (fun _ hmem => nomatch hmem) fun _ hmem => nomatch hmem
  | cons hrel _ ih => rw [List.forall_mem_cons, List.forall_mem_cons, himp _ _ hrel, ih]

theorem forall₂_flatMap {γ δ : Type} {S : γ → δ → Prop} {f : α → List γ} {g : β → List δ}
    (himp : ∀ a b, R a b → List.Forall₂ S (f a) (g b)) (h : List.Forall₂ R as bs) :
    List.Forall₂ S (as.flatMap f) (bs.flatMap g) :=
  List.rel_flatMap h fun a b => himp a b

theorem map_eq_map_of_forall₂ {γ : Type} {f : α → γ} {g : β → γ}
    (himp : ∀ a b, R a b → f a = g b) (h : List.Forall₂ R as bs) : as.map f = bs.map g := by
  induction h with
  | nil => rfl
  | cons hrel _ ih => rw [List.map_cons, List.map_cons, himp _ _ hrel, ih]

end

theorem map_eq_map_of_rel {γ : Type} {R : α → β → Prop} {f : α → γ} {g : β → γ}
    (himp : ∀ a b, R a b → f a = g b) {a? : Option α} {b? : Option β} (h : Option.Rel R a? b?) :
    a?.map f = b?.map g := by
  cases h with
  | none => rfl
  | some hrel => rw [Option.map_some, Option.map_some, himp _ _ hrel]

theorem eq_of_rel {R : α → α → Prop} (himp : ∀ a b, R a b → a = b) {a? b? : Option α}
    (h : Option.Rel R a? b?) : a? = b? := by
  cases h with
  | none => rfl
  | some hrel => rw [himp _ _ hrel]

/-! ## Up to items that are left out -/

/-- The second list is the first one without some of the items that satisfy the predicate. -/
inductive Omits (p : α → Prop) : List α → List α → Prop
  | nil : Omits p [] []
  | keep (a : α) {as bs : List α} (h : Omits p as bs) : Omits p (a :: as) (a :: bs)
  | drop {a : α} {as bs : List α} (ha : p a) (h : Omits p as bs) : Omits p (a :: as) bs

namespace Omits

variable {p : α → Prop} {as bs : List α}

protected theorem append {cs ds : List α} (h : Omits p as bs) (h' : Omits p cs ds) :
    Omits p (as ++ cs) (bs ++ ds) := by
  induction h with
  | nil => exact h'
  | keep a _ ih => exact .keep a ih
  | drop ha _ ih => exact .drop ha ih

protected theorem map {q : β → Prop} {f : α → β} (himp : ∀ a, p a → q (f a)) (h : Omits p as bs) :
    Omits q (as.map f) (bs.map f) := by
  induction h with
  | nil => exact .nil
  | keep a _ ih => exact .keep (f a) ih
  | drop ha _ ih => exact .drop (himp _ ha) ih

protected theorem flatMap {γ : Type} {q : γ → Prop} {f : α → List γ} {g : β → List γ}
    {R : α → β → Prop} {bs : List β} (himp : ∀ a b, R a b → Omits q (f a) (g b))
    (h : List.Forall₂ R as bs) : Omits q (as.flatMap f) (bs.flatMap g) := by
  induction h with
  | nil => exact .nil
  | cons hrel _ ih => exact (himp _ _ hrel).append ih

end Omits

/-! ## By their members -/

/-- The same items, in whatever order and however often. -/
def SameMembers (as bs : List α) : Prop :=
  ∀ a, a ∈ as ↔ a ∈ bs

theorem SameMembers.refl (as : List α) : SameMembers as as := fun _ => Iff.rfl

theorem SameMembers.symm {as bs : List α} (h : SameMembers as bs) : SameMembers bs as :=
  fun a => (h a).symm

theorem sameMembers_of_subset {as bs : List α} (h : ∀ a ∈ as, a ∈ bs) (h' : ∀ b ∈ bs, b ∈ as) :
    SameMembers as bs :=
  fun a => ⟨h a, h' a⟩

theorem SameMembers.map {as bs : List α} (h : SameMembers as bs) (f : α → β) :
    SameMembers (as.map f) (bs.map f) := by
  intro b
  rw [List.mem_map, List.mem_map]
  exact exists_congr fun a => and_congr_left fun _ => h a

theorem SameMembers.mem_ofList_map_iff [DecidableEq β] {as bs : List α} (h : SameMembers as bs)
    {f : α → β} (b : β) :
    b ∈ DistinctList.ofList (as.map f) ↔ b ∈ DistinctList.ofList (bs.map f) := by
  rw [DistinctList.mem_ofList, DistinctList.mem_ofList]
  exact h.map f b

theorem rel_sameMembers_refl (as? : Option (List α)) : Option.Rel SameMembers as? as? := by
  cases as? with
  | none => exact .none
  | some as => exact .some (.refl as)

theorem sameMembers_getD {as? bs? : Option (List α)} (h : Option.Rel SameMembers as? bs?) :
    SameMembers (as?.getD []) (bs?.getD []) := by
  cases h with
  | none => exact .refl []
  | some hsame => exact hsame

theorem exists_mapM_iff {f : α → Option β} {as : List α} :
    (∃ bs, as.mapM f = some bs) ↔ ∀ a ∈ as, ∃ b, f a = some b := by
  induction as with
  | nil => exact iff_of_true ⟨[], rfl⟩ fun _ hmem => nomatch hmem
  | cons a others ih =>
    rw [List.forall_mem_cons, ← ih, List.mapM_cons]
    constructor
    · rintro ⟨bs, hbs⟩
      obtain ⟨b, hb, hrest⟩ := Option.bind_eq_some_iff.mp hbs
      obtain ⟨rest, hothers, -⟩ := Option.bind_eq_some_iff.mp hrest
      exact ⟨⟨b, hb⟩, rest, hothers⟩
    · rintro ⟨⟨b, hb⟩, rest, hothers⟩
      exact ⟨b :: rest, by rw [hb, hothers]; rfl⟩

theorem mem_iff_of_mapM {f : α → Option β} {as : List α} {bs : List β} (h : as.mapM f = some bs)
    {b : β} : b ∈ bs ↔ ∃ a ∈ as, f a = some b := by
  induction as generalizing bs with
  | nil =>
    cases h
    simp
  | cons a others ih =>
    rw [List.mapM_cons] at h
    obtain ⟨first, hfirst, hrest⟩ := Option.bind_eq_some_iff.mp h
    obtain ⟨rest, hothers, hbs⟩ := Option.bind_eq_some_iff.mp hrest
    cases hbs
    rw [List.mem_cons, ih hothers, List.exists_mem_cons_iff, hfirst, Option.some_inj, eq_comm]

theorem SameMembers.mapM {as bs : List α} (h : SameMembers as bs) (f : α → Option β) :
    Option.Rel SameMembers (as.mapM f) (bs.mapM f) := by
  have hboth : (∃ cs, as.mapM f = some cs) ↔ ∃ ds, bs.mapM f = some ds := by
    rw [exists_mapM_iff, exists_mapM_iff]
    exact forall_congr' fun a => imp_congr_left (h a)
  cases hcs : as.mapM f with
  | some cs =>
    obtain ⟨ds, hds⟩ := hboth.mp ⟨cs, hcs⟩
    rw [hds]
    refine .some fun c => ?_
    rw [mem_iff_of_mapM hcs, mem_iff_of_mapM hds]
    exact exists_congr fun a => and_congr_left fun _ => h a
  | none =>
    cases hds : bs.mapM f with
    | none => exact .none
    | some ds =>
      obtain ⟨cs, hsome⟩ := hboth.mpr ⟨ds, hds⟩
      rw [hcs] at hsome
      cases hsome

end BootTable
