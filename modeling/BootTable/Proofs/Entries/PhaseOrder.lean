import BootTable.Proofs.Entries
import BootTable.Proofs.Plan.Order
import BootTable.Proofs.RelatedLists

/-!
# BootTable — entries phase after phase

Every entry of a table belongs to a phase: a marker to the one that it opens, another entry to that
of its component. The entries of a plan stand phase after phase, so that entries of different phases
stand in the order of these, however the components of each are ordered.

* **`pairwise_phase?_flatten`**: no entry is of an earlier phase than one before it.
* **`before_of_phase_lt`**: entries of different phases, kind by kind.
* **`exists_isMarkerOf`**, **`exists_standsFor`**: every phase has its marker, and every component
  its entry.
-/

namespace BootTable

/-! ## Phases of entries -/

/-- What the entry of a component stands for. -/
def Component.kind (component : Component) : EntryKind :=
  .component component.id component.execution.bootstrap component.execution.ap

/-- The phase that an entry of this kind belongs to, if the registry knows its component. -/
def EntryKind.phase? (registry : Registry) : EntryKind → Option Phase
  | .marker phase => some phase
  | .component id _ _ => (registry.find? id).map Component.phase

/-- The phase that an entry at this place belongs to. -/
def Slot.phase? (registry : Registry) : Slot → Option Phase
  | .marker phase => some phase
  | .component id => (registry.find? id).map Component.phase

/-- Every entry of the one kind stands before every entry of the other. -/
def Before (entries : List Entry) (first second : EntryKind) : Prop :=
  ∀ (i j : Nat) (a b : Entry), entries[i]? = some a → entries[j]? = some b →
    a.kind = first → b.kind = second → i < j

section

variable {registry : Registry}

theorem phase?_kind {component : Component} (h : component ∈ registry.components) :
    component.kind.phase? registry = some component.phase := by
  show (registry.find? component.id).map Component.phase = some component.phase
  rw [Registry.find?_eq_some_iff.mpr ⟨h, rfl⟩, Option.map_some]

theorem Entry.Fills.phase?_eq {slot : Slot} {entry : Entry} (h : entry.Fills registry slot) :
    slot.phase? registry = entry.kind.phase? registry := by
  cases slot with
  | marker phase =>
    rw [IsMarkerOf.kind_eq h]
    rfl
  | component id =>
    obtain ⟨component, -, rfl, hstands⟩ := h
    rw [hstands.kind_eq]
    rfl

theorem map_phase?_flatten (plan : Plan) (registry : Registry) :
    (flatten plan registry).map (fun entry => entry.kind.phase? registry) =
      (plan.slots registry).map (Slot.phase? registry) := by
  have hsame (slot : Slot) (entry : Entry) (h : entry.Fills registry slot) :
      slot.phase? registry = entry.kind.phase? registry := h.phase?_eq
  exact (map_eq_map_of_forall₂ hsame (flatten_fills_slots plan registry).1).symm

/-! ## The order of the phases -/

theorem phase?_of_mem_slots (h : registry.Schedulable) {phase : Phase} {slot : Slot}
    (hslot : slot ∈ (PhaseOrder.mk phase (registry.graphOf phase).finalSorting.placed).slots
      registry) : slot.phase? registry = some phase := by
  rcases List.mem_cons.mp hslot with rfl | hcomponent
  · rfl
  · obtain ⟨id, hid, rfl⟩ := List.mem_map.mp hcomponent
    have hplaced := (List.mem_filter.mp hid).1
    obtain ⟨component, hmem, rfl⟩ := (Registry.mem_placed_graphOf_iff h).mp hplaced
    obtain ⟨hknown, hphase⟩ := Registry.mem_inPhase.mp hmem
    rw [← hphase]
    exact phase?_kind hknown

/-- No place belongs to an earlier phase than one before it. -/
theorem pairwise_phase?_slots (h : registry.Schedulable) :
    ((registry.planOf.slots registry).map (Slot.phase? registry)).Pairwise fun a b =>
      ∀ p q, a = some p → b = some q → p ≤ q := by
  have hphases : Phase.all.Pairwise (· < ·) := by decide
  unfold Registry.planOf Plan.slots
  rw [List.flatMap_map, List.pairwise_map, List.pairwise_flatMap]
  constructor
  · intro phase _
    refine List.pairwise_of_forall_mem_list fun a ha b hb p q hp hq => ?_
    rw [phase?_of_mem_slots h ha, Option.some_inj] at hp
    rw [phase?_of_mem_slots h hb, Option.some_inj] at hq
    rw [← hp, ← hq, Phase.le_iff_rank_le]
  · refine hphases.imp fun hlt a ha b hb p q hp hq => ?_
    rw [phase?_of_mem_slots h ha, Option.some_inj] at hp
    rw [phase?_of_mem_slots h hb, Option.some_inj] at hq
    rw [Phase.lt_iff_rank_lt, hp, hq] at hlt
    rw [Phase.le_iff_rank_le]
    omega

theorem pairwise_phase?_flatten (h : registry.Schedulable) :
    (flatten registry.planOf registry).Pairwise fun a b =>
      ∀ p q, a.kind.phase? registry = some p → b.kind.phase? registry = some q → p ≤ q := by
  have hslots := pairwise_phase?_slots h
  rw [← map_phase?_flatten, List.pairwise_map] at hslots
  exact hslots

theorem before_of_phase_lt (h : registry.Schedulable) {first second : EntryKind} {p q : Phase}
    (hfirst : first.phase? registry = some p) (hsecond : second.phase? registry = some q)
    (hlt : p < q) : Before (flatten registry.planOf registry) first second := by
  intro i j a b ha hb hkinda hkindb
  rw [← hkinda] at hfirst
  rw [← hkindb] at hsecond
  rw [Phase.lt_iff_rank_lt] at hlt
  rcases Nat.lt_trichotomy i j with hij | rfl | hji
  · exact hij
  · -- One entry would belong to both phases.
    rw [ha, Option.some_inj] at hb
    rw [hb, hsecond, Option.some_inj] at hfirst
    rw [hfirst] at hlt
    exact absurd hlt (Nat.lt_irrefl _)
  · obtain ⟨hi, rfl⟩ := List.getElem?_eq_some_iff.mp ha
    obtain ⟨hj, rfl⟩ := List.getElem?_eq_some_iff.mp hb
    have hle := List.pairwise_iff_getElem.mp (pairwise_phase?_flatten h) j i hj hi hji q p hsecond
      hfirst
    rw [Phase.le_iff_rank_le] at hle
    omega

/-! ## What has an entry -/

/-- An entry is a marker or that of a component. -/
theorem isMarkerOf_or_standsFor {plan : Plan} {entry : Entry} (h : entry ∈ flatten plan registry) :
    (∃ phase, entry.IsMarkerOf phase) ∨
      ∃ component ∈ registry.components, entry.StandsFor component := by
  have hfills := (flatten_fills_slots plan registry).1.flip
  obtain ⟨slot, -, hslot⟩ := exists_rel_of_mem hfills h
  cases slot with
  | marker phase => exact .inl ⟨phase, hslot⟩
  | component id =>
    obtain ⟨component, hmem, -, hstands⟩ := hslot
    exact .inr ⟨component, hmem, hstands⟩

theorem exists_component_of_mem_flatten {plan : Plan} {entry : Entry}
    (h : entry ∈ flatten plan registry) (hmarker : entry.isMarker = false) :
    ∃ component ∈ registry.components, entry.StandsFor component := by
  refine (isMarkerOf_or_standsFor h).resolve_left ?_
  rintro ⟨phase, hphase⟩
  unfold Entry.isMarker at hmarker
  rw [hphase.kind_eq] at hmarker
  cases hmarker

theorem mem_slots_planOf_iff {slot : Slot} :
    slot ∈ registry.planOf.slots registry ↔ ∃ phase,
      slot ∈ (PhaseOrder.mk phase (registry.graphOf phase).finalSorting.placed).slots registry := by
  unfold Registry.planOf Plan.slots
  rw [List.flatMap_map, List.mem_flatMap]
  simp only [Phase.mem_all, true_and]

theorem exists_isMarkerOf (registry : Registry) (phase : Phase) :
    ∃ entry ∈ flatten registry.planOf registry, entry.IsMarkerOf phase := by
  have hslot : Slot.marker phase ∈ registry.planOf.slots registry :=
    mem_slots_planOf_iff.mpr ⟨phase, List.mem_cons_self⟩
  exact exists_rel_of_mem (flatten_fills_slots _ registry).1 hslot

theorem exists_standsFor (h : registry.Schedulable) {component : Component}
    (hmem : component ∈ registry.components) :
    ∃ entry ∈ flatten registry.planOf registry, entry.StandsFor component := by
  have hplaced := (Registry.mem_placed_graphOf_iff_phase h hmem).mpr rfl
  have hknown : component.id ∈ registry.ids := Registry.mem_ids_iff.mpr ⟨component, hmem, rfl⟩
  have hslot : Slot.component component.id ∈ registry.planOf.slots registry := by
    refine mem_slots_planOf_iff.mpr ⟨component.phase, List.mem_cons_of_mem _ ?_⟩
    exact List.mem_map_of_mem (List.mem_filter.mpr ⟨hplaced, decide_eq_true hknown⟩)
  obtain ⟨entry, hentry, other, hother, hid, hstands⟩ :=
    exists_rel_of_mem (flatten_fills_slots _ registry).1 hslot
  rw [Registry.eq_of_id_eq hother hmem hid] at hstands
  exact ⟨entry, hentry, hstands⟩

end

end BootTable
