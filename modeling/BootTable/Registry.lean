import BootTable.Component

/-!
# BootTable — the registry

The merged components of all definition sources, in the order in which they were first seen, each
with the source that it came from. No two of them share an id. Two maps, one of components and one
of origins, hold the same if they are filled together: see `Registry.Maps`.
-/

namespace BootTable

/-- A component and the source that it came from. -/
structure Registered where
  component : Component
  origin : String
deriving DecidableEq

def Registered.id (entry : Registered) : ComponentId := entry.component.id

/-- The merged components in first-seen order. -/
structure Registry where
  entries : List Registered
  nodup_ids : (entries.map Registered.id).Nodup
deriving DecidableEq

namespace Registry

def empty : Registry := ⟨[], List.nodup_nil⟩

def components (registry : Registry) : List Component :=
  registry.entries.map Registered.component

/-- The ids of the components, in first-seen order. -/
def ids (registry : Registry) : List ComponentId :=
  registry.entries.map Registered.id

/-- Adds a component at the end, unless its id is taken. -/
def insert (registry : Registry) (component : Component) (origin : String) : Registry :=
  if h : component.id ∈ registry.ids then registry
  else {
    entries := registry.entries ++ [⟨component, origin⟩]
    nodup_ids := by
      rw [List.map_append, List.nodup_append]
      refine ⟨registry.nodup_ids, by simp, ?_⟩
      intro a ha b hb hab
      have hb : b = component.id := List.mem_singleton.mp hb
      subst hb
      subst hab
      exact h ha }

def entry? (registry : Registry) (id : ComponentId) : Option Registered :=
  registry.entries.find? fun entry => entry.id = id

def find? (registry : Registry) (id : ComponentId) : Option Component :=
  (registry.entry? id).map Registered.component

def origin? (registry : Registry) (id : ComponentId) : Option String :=
  (registry.entry? id).map Registered.origin

def contains (registry : Registry) (id : ComponentId) : Bool :=
  id ∈ registry.ids

/-- The first-seen position of an id, counted from zero. -/
def position? (registry : Registry) (id : ComponentId) : Option Nat :=
  registry.ids.findIdx? fun other => other = id

/-- The components of a phase, in first-seen order. -/
def inPhase (registry : Registry) (phase : Phase) : List Component :=
  registry.components.filter fun component => component.phase = phase

/-- The components of a phase with their positions in the whole registry. -/
def positionsInPhase (registry : Registry) (phase : Phase) : List (Nat × Component) :=
  (registry.components.zipIdx.filter fun entry => entry.1.phase = phase).map fun entry =>
    (entry.2, entry.1)

def size (registry : Registry) : Nat :=
  registry.entries.length

theorem nodup_ids' (registry : Registry) : registry.ids.Nodup :=
  registry.nodup_ids

theorem ids_eq_map_components (registry : Registry) :
    registry.ids = registry.components.map Component.id := by
  simp [ids, components, Registered.id, Function.comp_def]

theorem entries_insert {registry : Registry} {component : Component} {origin : String}
    (h : component.id ∉ registry.ids) :
    (registry.insert component origin).entries = registry.entries ++ [⟨component, origin⟩] := by
  simp [insert, h]

end Registry

end BootTable
