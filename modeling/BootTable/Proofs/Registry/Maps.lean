import BootTable.Proofs.PairList
import BootTable.Proofs.Registry.Load

/-!
# BootTable — a registry kept as two maps

The components of a registry and their origins can be kept apart, in two maps under the ids of the
components. Nothing ties the maps together but the way in which they are filled: an id that has an
origin is refused, and what is loaded puts something under its id in either map. So the keys of the
maps stay in step, and what stands at the same places of both is the one list of entries that a
`Registry` is.

* **`Maps.inStep_iff_exists_maps`**: the maps that are in step are those of the registries.
* **`answersAs_maps`**: every lookup of the maps answers what that of the registry does.
* **`take_filling`**, **`takeAll_filling`**: one definition, and a list of them, do to the maps what
  they do to the registry.
* **`inStep_of_takeAll`**: so the maps stay in step.
* **`Maps.load_eq_map_load`**: for all sources, the maps are those of the registry, with the same
  events and the same failures.
-/

namespace BootTable

namespace Registry

/-- The components and the origins, each of them in a map under the ids of the components. -/
structure Maps where
  components : List (ComponentId × Component)
  origins : List (ComponentId × String)

/-- The entries of a registry, taken apart. -/
def maps (registry : Registry) : Maps :=
  { components := registry.entries.map fun entry => (entry.id, entry.component)
    origins := registry.entries.map fun entry => (entry.id, entry.origin) }

namespace Maps

def empty : Maps := { components := [], origins := [] }

/-- Puts a component and its origin under the id of the component. -/
def insert (maps : Maps) (component : Component) (origin : String) : Maps :=
  { components := upsert component.id (fun _ => component) maps.components
    origins := upsert component.id (fun _ => origin) maps.origins }

def find? (maps : Maps) (id : ComponentId) : Option Component :=
  maps.components.lookup id

def origin? (maps : Maps) (id : ComponentId) : Option String :=
  maps.origins.lookup id

def contains (maps : Maps) (id : ComponentId) : Bool :=
  (maps.find? id).isSome

/-- The first-seen position of an id, counted from zero. -/
def position? (maps : Maps) (id : ComponentId) : Option Nat :=
  maps.components.findIdx? fun pair => pair.1 = id

/-- The components, in first-seen order. -/
def values (maps : Maps) : List Component :=
  maps.components.map Prod.snd

/-- The components of a phase with their positions in the whole map. -/
def positionsInPhase (maps : Maps) (phase : Phase) : List (Nat × Component) :=
  (maps.values.zipIdx.filter fun entry => entry.1.phase = phase).map fun entry =>
    (entry.2, entry.1)

def size (maps : Maps) : Nat :=
  maps.components.length

/-! ## Maps in step -/

/-- The maps have the same keys in the same order, and each component stands under its own id. -/
structure InStep (maps : Maps) : Prop where
  keys_eq : maps.components.map Prod.fst = maps.origins.map Prod.fst
  nodup_keys : (maps.components.map Prod.fst).Nodup
  own_id : ∀ pair ∈ maps.components, pair.2.id = pair.1

/-- What stands at the same places of both maps, as entries. -/
def paired (maps : Maps) : List Registered :=
  List.zipWith (fun component origin => ⟨component.2, origin.2⟩) maps.components maps.origins

/-- The lookups of the maps answer what those of the registry do. -/
structure AnswersAs (maps : Maps) (registry : Registry) : Prop where
  find? : maps.find? = registry.find?
  origin? : maps.origin? = registry.origin?
  contains : maps.contains = registry.contains
  position? : maps.position? = registry.position?
  values : maps.values = registry.components
  positionsInPhase : maps.positionsInPhase = registry.positionsInPhase
  size : maps.size = registry.size

end Maps

variable {registry : Registry}

theorem paired_maps (registry : Registry) : registry.maps.paired = registry.entries := by
  unfold maps Maps.paired
  simp [List.zipWith_map]

theorem inStep_maps (registry : Registry) : registry.maps.InStep where
  keys_eq := by simp [maps, Function.comp_def]
  nodup_keys := by
    unfold maps
    rw [List.map_map]
    exact registry.nodup_ids
  own_id := by
    intro pair hmem
    obtain ⟨entry, -, rfl⟩ := List.mem_map.mp hmem
    rfl

/-- Maps in step are those of the registry of what stands at the same places. -/
theorem Maps.InStep.exists_maps_eq {maps : Maps} (h : maps.InStep) :
    ∃ registry : Registry, registry.maps = maps ∧ registry.entries = maps.paired := by
  have hlength : maps.components.length = maps.origins.length := by
    simpa using congrArg List.length h.keys_eq
  -- Taken apart again, the pairs are those of either map, place by place.
  have hcomponents : maps.paired.map (fun entry => (entry.id, entry.component)) =
      maps.components := by
    apply List.ext_getElem
    · simp [paired, hlength]
    · intro place _ hlt
      simp [paired, Registered.id, h.own_id _ (List.getElem_mem hlt)]
  have horigins : maps.paired.map (fun entry => (entry.id, entry.origin)) = maps.origins := by
    apply List.ext_getElem
    · simp [paired, hlength]
    · intro place _ hlt
      have hlt' : place < maps.components.length := hlength ▸ hlt
      have hkey : maps.components[place].1 = maps.origins[place].1 := by
        simpa [hlt, hlt'] using congrArg (fun keys => keys[place]?) h.keys_eq
      simp [paired, Registered.id, h.own_id _ (List.getElem_mem hlt'), hkey]
  have hids : maps.paired.map Registered.id = maps.components.map Prod.fst := by
    rw [← hcomponents, List.map_map]
    rfl
  refine ⟨⟨maps.paired, hids ▸ h.nodup_keys⟩, ?_, rfl⟩
  rw [Registry.maps, hcomponents, horigins]

theorem Maps.inStep_iff_exists_maps {maps : Maps} :
    maps.InStep ↔ ∃ registry : Registry, registry.maps = maps := by
  constructor
  · intro h
    obtain ⟨registry, hmaps, -⟩ := h.exists_maps_eq
    exact ⟨registry, hmaps⟩
  · rintro ⟨registry, rfl⟩
    exact registry.inStep_maps

theorem values_maps (registry : Registry) : registry.maps.values = registry.components := by
  simp [maps, Maps.values, components, Function.comp_def]

theorem find?_maps (registry : Registry) : registry.maps.find? = registry.find? :=
  funext fun id => lookup_map_pair Registered.id Registered.component registry.entries id

theorem origin?_maps (registry : Registry) : registry.maps.origin? = registry.origin? :=
  funext fun id => lookup_map_pair Registered.id Registered.origin registry.entries id

/-- The maps of a registry answer every lookup as it does. -/
theorem answersAs_maps (registry : Registry) : registry.maps.AnswersAs registry where
  find? := registry.find?_maps
  origin? := registry.origin?_maps
  contains := by
    funext id
    rw [Maps.contains, find?_maps, Bool.eq_iff_iff, Option.isSome_iff_exists]
    simp [find?_eq_some_iff, contains, mem_ids_iff]
  position? := by
    funext id
    simp [Maps.position?, maps, position?, ids, List.findIdx?_map, Function.comp_def]
  values := registry.values_maps
  positionsInPhase := by
    funext phase
    rw [Maps.positionsInPhase, values_maps, positionsInPhase]
  size := by simp [Maps.size, maps, size]

/-- A component with a new id comes to stand at the end of either map. -/
theorem maps_insert {component : Component} (h : component.id ∉ registry.ids) (origin : String) :
    (registry.insert component origin).maps = registry.maps.insert component origin := by
  have hcomponents : component.id ∉ registry.maps.components.map Prod.fst := by
    simpa [maps, ids, Function.comp_def] using h
  have horigins : component.id ∉ registry.maps.origins.map Prod.fst := by
    rwa [← registry.inStep_maps.keys_eq]
  rw [Maps.insert, upsert_of_notMem hcomponents, upsert_of_notMem horigins]
  simp [maps, entries_insert h, Registered.id]

/-! ## Filling the maps -/

/-- The maps filled so far and the number of records passed over. -/
structure Filling where
  maps : Maps
  disabled : Nat

namespace Filling

def start : Filling := { maps := .empty, disabled := 0 }

def takeEnabled (filling : Filling) (definition : Definition) (table : Toml.Table) :
    Logged RegistryError Filling :=
  match filling.maps.origin? definition.id with
  | some first => .fail (.duplicateComponent definition.id definition.origin first)
  | none =>
    match componentOf definition.id table with
    | .error fault => .fail (Loading.malformed definition fault)
    | .ok component => do
      .report (.componentLoaded definition.id component.phase component.isPerCpu)
      return { filling with maps := filling.maps.insert component definition.origin }

def take (filling : Filling) (definition : Definition) : Logged RegistryError Filling :=
  match definition.enabledTable? with
  | .error fault => .fail (Loading.malformed definition fault)
  | .ok none => do
    .report (.componentSkipped definition.id definition.origin)
    return { filling with disabled := filling.disabled + 1 }
  | .ok (some table) => filling.takeEnabled definition table

def takeAll (filling : Filling) : List Definition → Logged RegistryError Filling
  | [] => pure filling
  | definition :: others => do
    let next ← filling.take definition
    next.takeAll others

end Filling

/-- Merges the definitions of sources into two maps. -/
def Maps.load (sources : List Source) : Logged RegistryError Maps := do
  let final ← Filling.start.takeAll (definitionsOf sources)
  .report (.registryLoaded final.maps.size final.disabled)
  return final.maps

end Registry

namespace Loading

/-- A registry that is being loaded, with its entries taken apart. -/
def filling (loading : Loading) : Registry.Filling :=
  { maps := loading.registry.maps
    disabled := loading.disabled }

theorem takeEnabled_filling (loading : Loading) (definition : Definition) (table : Toml.Table) :
    loading.filling.takeEnabled definition table =
      (loading.takeEnabled definition table).map filling := by
  have horigin : loading.filling.maps.origin? definition.id =
      loading.registry.origin? definition.id :=
    congrFun loading.registry.origin?_maps definition.id
  unfold Registry.Filling.takeEnabled takeEnabled
  rw [horigin]
  cases hfirst : loading.registry.origin? definition.id with
  | some first => rfl
  | none =>
    simp only
    cases hcomponent : componentOf definition.id table with
    | error fault => rfl
    | ok component =>
      -- An id without an origin has no component either.
      have hnew : component.id ∉ loading.registry.ids := by
        rw [id_of_componentOf hcomponent]
        exact Registry.origin?_eq_none_iff.mp hfirst
      simp only [Logged.map_bind, filling, ← Registry.maps_insert hnew]
      rfl

theorem take_filling (loading : Loading) (definition : Definition) :
    loading.filling.take definition = (loading.take definition).map filling := by
  unfold Registry.Filling.take take
  cases definition.enabledTable? with
  | error fault => rfl
  | ok table? =>
    cases table? with
    | none => rfl
    | some table => exact takeEnabled_filling loading definition table

theorem takeAll_filling (loading : Loading) (definitions : List Definition) :
    loading.filling.takeAll definitions = (loading.takeAll definitions).map filling := by
  -- The first definition leaves a registry with its maps again, from which the others go on.
  induction definitions generalizing loading with
  | nil => rfl
  | cons definition others ih =>
    unfold Registry.Filling.takeAll takeAll
    rw [take_filling, Logged.bind_map_left, Logged.map_bind]
    exact congrArg _ (funext ih)

end Loading

namespace Registry

namespace Filling

variable {current next : Filling}

/-- Maps in step are those of a registry, and one more definition leaves them so. -/
theorem inStep_of_take {definition : Definition} (h : current.maps.InStep)
    (htake : (current.take definition).result = .ok next) : next.maps.InStep := by
  obtain ⟨registry, hmaps, -⟩ := h.exists_maps_eq
  have hcurrent : current = Loading.filling ⟨registry, current.disabled⟩ := by
    rw [Loading.filling, hmaps]
  rw [hcurrent, Loading.take_filling] at htake
  obtain ⟨loading, -, rfl⟩ := map_eq_ok_iff.mp htake
  exact loading.registry.inStep_maps

theorem inStep_of_takeAll {definitions : List Definition} (h : current.maps.InStep)
    (htake : (current.takeAll definitions).result = .ok next) : next.maps.InStep := by
  induction definitions generalizing current with
  | nil =>
    cases htake
    exact h
  | cons definition others ih =>
    obtain ⟨after, hfirst, hothers⟩ := Logged.result_bind_eq_ok_iff.mp htake
    exact ih (inStep_of_take h hfirst) hothers

end Filling

/-! ## Loading -/

/-- Sources fill the maps of their registry, with the same events, or fail with the same cause. -/
theorem Maps.load_eq_map_load (sources : List Source) :
    Maps.load sources = (Registry.load sources).map maps := by
  have hsize (loading : Loading) : loading.filling.maps.size = loading.registry.size :=
    loading.registry.answersAs_maps.size
  unfold Maps.load Registry.load
  rw [show Filling.start = Loading.start.filling from rfl, Loading.takeAll_filling,
    Logged.bind_map_left, Logged.map_bind]
  simp only [hsize]
  rfl

/-- Maps that sources fill are in step, and what stands at the same places of them are the entries
of the registry of the sources, which answers every lookup as they do. -/
theorem exists_registry_of_load_maps {sources : List Source} {maps : Maps}
    (h : (Maps.load sources).result = .ok maps) :
    maps.InStep ∧ ∃ registry : Registry, (Registry.load sources).result = .ok registry ∧
      registry.entries = maps.paired ∧ maps.AnswersAs registry := by
  rw [Maps.load_eq_map_load] at h
  obtain ⟨registry, hload, rfl⟩ := map_eq_ok_iff.mp h
  exact ⟨registry.inStep_maps, registry, hload, registry.paired_maps.symm, registry.answersAs_maps⟩

end Registry

end BootTable
