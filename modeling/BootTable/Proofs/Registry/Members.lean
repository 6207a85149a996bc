import BootTable.Registry
import Mathlib.Data.List.Nodup

/-!
# BootTable — the members of a registry

What the lookups of a registry answer, in terms of its components. Ids are unique, so an id stands
for at most one component, and a component is a member of exactly one phase.

* **`find?_eq_some_iff`**: a lookup finds exactly the component with the id.
* **`origin?_eq_some_iff`**, **`position?_eq_some_iff`**: so do those of origins and positions.
* **`pairwise_seenBefore_ids`**: the ids stand in first-seen order.
* **`mem_ids_inPhase_iff`**: among the components, the ids of a phase are those of its members.
* **`find?_eq_of_inPhase_eq`**: registries that agree phase by phase answer every lookup alike.
-/

namespace BootTable.Registry

variable {registry : Registry}

/-! ## Ids -/

theorem nodup_map_id_components (registry : Registry) :
    (registry.components.map Component.id).Nodup := by
  rw [← ids_eq_map_components]
  exact registry.nodup_ids'

/-- An id stands for at most one component. -/
theorem eq_of_id_eq {c d : Component} (hc : c ∈ registry.components)
    (hd : d ∈ registry.components) (h : c.id = d.id) : c = d :=
  List.inj_on_of_nodup_map registry.nodup_map_id_components hc hd h

theorem mem_ids_iff {id : ComponentId} :
    id ∈ registry.ids ↔ ∃ component ∈ registry.components, component.id = id := by
  rw [ids_eq_map_components, List.mem_map]

theorem find?_eq_find?_components (registry : Registry) (id : ComponentId) :
    registry.find? id = registry.components.find? fun component => component.id = id := by
  unfold find? entry? components
  rw [List.find?_map]
  rfl

theorem find?_eq_some_iff {id : ComponentId} {component : Component} :
    registry.find? id = some component ↔
      component ∈ registry.components ∧ component.id = id := by
  rw [find?_eq_find?_components]
  constructor
  · intro h
    exact ⟨List.mem_of_find?_eq_some h, by simpa using List.find?_some h⟩
  · rintro ⟨hmem, rfl⟩
    cases hfound : registry.components.find? fun other => other.id = component.id with
    | none => simpa using List.find?_eq_none.mp hfound component hmem
    | some other =>
      have hid : other.id = component.id := by simpa using List.find?_some hfound
      rw [eq_of_id_eq (List.mem_of_find?_eq_some hfound) hmem hid]

theorem find?_eq_none_iff {id : ComponentId} :
    registry.find? id = none ↔ ∀ component ∈ registry.components, component.id ≠ id := by
  rw [find?_eq_find?_components]
  simp

/-! ## Origins and positions -/

theorem entry?_eq_some_iff {id : ComponentId} {entry : Registered} :
    registry.entry? id = some entry ↔ entry ∈ registry.entries ∧ entry.id = id := by
  unfold entry?
  constructor
  · intro h
    exact ⟨List.mem_of_find?_eq_some h, by simpa using List.find?_some h⟩
  · rintro ⟨hmem, rfl⟩
    cases hfound : registry.entries.find? fun other => other.id = entry.id with
    | none => simpa using List.find?_eq_none.mp hfound entry hmem
    | some other =>
      have hid : other.id = entry.id := by simpa using List.find?_some hfound
      rw [List.inj_on_of_nodup_map registry.nodup_ids (List.mem_of_find?_eq_some hfound) hmem hid]

theorem origin?_eq_some_iff {id : ComponentId} {origin : String} :
    registry.origin? id = some origin ↔
      ∃ entry ∈ registry.entries, entry.id = id ∧ entry.origin = origin := by
  simp only [origin?, Option.map_eq_some_iff, entry?_eq_some_iff, and_assoc]

/-- The position of an id is the one place at which it stands. -/
theorem position?_eq_some_iff {id : ComponentId} {place : Nat} :
    registry.position? id = some place ↔ registry.ids[place]? = some id := by
  unfold position?
  rw [List.findIdx?_eq_some_iff_getElem, List.getElem?_eq_some_iff]
  constructor
  · rintro ⟨hlt, hid, -⟩
    exact ⟨hlt, of_decide_eq_true hid⟩
  · rintro ⟨hlt, hid⟩
    refine ⟨hlt, decide_eq_true hid, fun earlier hearlier hsame => ?_⟩
    -- The id stands at no other place.
    have heq := registry.nodup_ids'.getElem_inj_iff.mp ((of_decide_eq_true hsame).trans hid.symm)
    omega

/-- One id was seen before another one. -/
def SeenBefore (registry : Registry) (a b : ComponentId) : Prop :=
  ∃ i j, registry.position? a = some i ∧ registry.position? b = some j ∧ i < j

theorem pairwise_seenBefore_ids (registry : Registry) :
    registry.ids.Pairwise registry.SeenBefore := by
  rw [List.pairwise_iff_getElem]
  intro i j hi hj hlt
  exact ⟨i, j, position?_eq_some_iff.mpr (List.getElem?_eq_getElem hi),
    position?_eq_some_iff.mpr (List.getElem?_eq_getElem hj), hlt⟩

/-! ## Phases -/

@[simp] theorem mem_inPhase {component : Component} {phase : Phase} :
    component ∈ registry.inPhase phase ↔
      component ∈ registry.components ∧ component.phase = phase := by
  simp [inPhase]

theorem mem_components_iff {component : Component} :
    component ∈ registry.components ↔ component ∈ registry.inPhase component.phase := by
  simp

theorem nodup_map_id_inPhase (registry : Registry) (phase : Phase) :
    ((registry.inPhase phase).map Component.id).Nodup :=
  registry.nodup_map_id_components.sublist (List.filter_sublist.map _)

theorem mem_ids_inPhase_iff {component : Component} {phase : Phase}
    (h : component ∈ registry.components) :
    component.id ∈ (registry.inPhase phase).map Component.id ↔ component.phase = phase := by
  rw [List.mem_map]
  constructor
  · rintro ⟨other, hother, hid⟩
    obtain ⟨hmem, hphase⟩ := mem_inPhase.mp hother
    rw [← eq_of_id_eq hmem h hid]
    exact hphase
  · intro hphase
    exact ⟨component, mem_inPhase.mpr ⟨h, hphase⟩, rfl⟩

/-! ## Registries that agree phase by phase -/

theorem mem_components_congr {other : Registry}
    (h : ∀ phase, registry.inPhase phase = other.inPhase phase) (component : Component) :
    component ∈ registry.components ↔ component ∈ other.components := by
  rw [mem_components_iff, h, ← mem_components_iff]

theorem find?_eq_of_inPhase_eq {other : Registry}
    (h : ∀ phase, registry.inPhase phase = other.inPhase phase) :
    registry.find? = other.find? := by
  funext id
  apply Option.ext
  intro component
  rw [find?_eq_some_iff, find?_eq_some_iff, mem_components_congr h]

end BootTable.Registry
