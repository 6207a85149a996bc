import BootTable.Proofs.Registry.Members
import BootTable.Registry.Load

/-!
# BootTable — what loading answers

Definitions are taken one after the other, each against the ones before it. What one adds does not
depend on these: `Definition.component?` reads a definition alone, and sources are loaded exactly
if every definition can be read and no id is added twice.

* **`take_eq_ok_iff`**: what one definition adds.
* **`exists_takeAll_iff`**: what a list of them adds, by induction on the list.
* **`load_eq_ok_iff`**: the entries of a registry are those that its definitions add, in order. It
  need not say that no id is added twice: no registry has such entries.
-/

namespace BootTable

/-- The component that a definition describes; a disabled one describes none. -/
def Definition.component? (definition : Definition) : Except Fault (Option Component) := do
  match ← definition.enabledTable? with
  | none => return none
  | some table => return some (← componentOf definition.id table)

/-- The entry that a definition adds to a registry, if it adds one. -/
def Definition.registered (definition : Definition) : List Registered :=
  match definition.component? with
  | .ok (some component) => [⟨component, definition.origin⟩]
  | _ => []

namespace Registry

@[ext] theorem ext {registry other : Registry} (h : registry.entries = other.entries) :
    registry = other := by
  cases registry
  cases other
  simpa using h

theorem origin?_eq_none_iff {registry : Registry} {id : ComponentId} :
    registry.origin? id = none ↔ id ∉ registry.ids := by
  simp [origin?, entry?, ids]

end Registry

/-! ## What a definition describes -/

theorem componentOf_eq_ok_iff {id : ComponentId} {table : Toml.Table} {component : Component} :
    componentOf id table = .ok component ↔
      ∃ record, Record.ofTable table = .ok record ∧ record.normalize id = .ok component := by
  unfold componentOf
  cases Record.ofTable table with
  | error fault => simp
  | ok record => simp

/-- Normalizing keeps the id that it is given. -/
theorem id_of_componentOf {id : ComponentId} {table : Toml.Table} {component : Component}
    (h : componentOf id table = .ok component) : component.id = id := by
  obtain ⟨record, -, hnormal⟩ := componentOf_eq_ok_iff.mp h
  unfold Record.normalize at hnormal
  simp only [bind_eq_ok_iff] at hnormal
  obtain ⟨⟨bootstrap, ap⟩, -, phase, -, importance, -, hrest⟩ := hnormal
  split at hrest
  · cases hrest
  · obtain ⟨execution, -, hcomponent⟩ := bind_eq_ok_iff.mp hrest
    cases hcomponent
    rfl

namespace Definition

variable {definition : Definition}

theorem component?_eq_ok_none_iff :
    definition.component? = .ok none ↔ definition.enabledTable? = .ok none := by
  unfold component?
  rw [bind_eq_ok_iff]
  constructor
  · rintro ⟨table?, htable, hnone⟩
    cases table? with
    | none => exact htable
    | some table =>
      obtain ⟨component, -, hsome⟩ := bind_eq_ok_iff.mp hnone
      cases hsome
  · intro htable
    exact ⟨none, htable, rfl⟩

theorem component?_eq_ok_some_iff {component : Component} :
    definition.component? = .ok (some component) ↔
      ∃ table, definition.enabledTable? = .ok (some table) ∧
        componentOf definition.id table = .ok component := by
  unfold component?
  rw [bind_eq_ok_iff]
  constructor
  · rintro ⟨table?, htable, hsome⟩
    cases table? with
    | none => cases hsome
    | some table =>
      obtain ⟨found, hfound, hsame⟩ := bind_eq_ok_iff.mp hsome
      cases hsame
      exact ⟨table, htable, hfound⟩
  · rintro ⟨table, htable, hfound⟩
    exact ⟨some table, htable, bind_eq_ok_iff.mpr ⟨component, hfound, rfl⟩⟩

theorem id_of_component? {component : Component}
    (h : definition.component? = .ok (some component)) : component.id = definition.id := by
  obtain ⟨table, -, hfound⟩ := component?_eq_ok_some_iff.mp h
  exact id_of_componentOf hfound

end Definition

/-! ## One definition -/

namespace Loading

variable {loading next : Loading} {definition : Definition}

theorem takeEnabled_eq_ok_iff {table : Toml.Table} :
    (loading.takeEnabled definition table).result = .ok next ↔
      definition.id ∉ loading.registry.ids ∧
        ∃ component, componentOf definition.id table = .ok component ∧
          next =
            { loading with registry := loading.registry.insert component definition.origin } := by
  rw [← Registry.origin?_eq_none_iff]
  unfold takeEnabled
  cases loading.registry.origin? definition.id with
  | some first => simp
  | none =>
    cases componentOf definition.id table with
    | error fault => simp
    | ok component =>
      simp only [Logged.result_bind_eq_ok_iff]
      constructor
      · rintro ⟨⟨⟩, -, hnext⟩
        cases hnext
        exact ⟨trivial, component, rfl, rfl⟩
      · rintro ⟨-, found, hfound, rfl⟩
        cases hfound
        exact ⟨(), rfl, rfl⟩

/-- A definition is passed over, or its component is new and joins the others. -/
theorem take_eq_ok_iff :
    (loading.take definition).result = .ok next ↔
      (definition.component? = .ok none ∧
        next = { loading with disabled := loading.disabled + 1 }) ∨
      ∃ component, definition.component? = .ok (some component) ∧
        definition.id ∉ loading.registry.ids ∧
        next =
          { loading with registry := loading.registry.insert component definition.origin } := by
  simp only [Definition.component?_eq_ok_none_iff, Definition.component?_eq_ok_some_iff]
  unfold take
  cases definition.enabledTable? with
  | error fault => simp
  | ok table? =>
    cases table? with
    | none =>
      simp only [Logged.result_bind_eq_ok_iff]
      constructor
      · rintro ⟨⟨⟩, -, hnext⟩
        cases hnext
        exact .inl ⟨trivial, rfl⟩
      · rintro (⟨-, rfl⟩ | ⟨component, ⟨table, hnone, -⟩, -⟩)
        · exact ⟨(), rfl, rfl⟩
        · cases hnone
    | some table =>
      simp only [takeEnabled_eq_ok_iff]
      constructor
      · rintro ⟨hnew, component, hfound, rfl⟩
        exact .inr ⟨component, ⟨table, rfl, hfound⟩, hnew, rfl⟩
      · rintro (⟨hsome, -⟩ | ⟨component, ⟨found, htable, hfound⟩, hnew, rfl⟩)
        · cases hsome
        · cases htable
          exact ⟨hnew, component, hfound, rfl⟩

theorem entries_of_take (h : (loading.take definition).result = .ok next) :
    next.registry.entries = loading.registry.entries ++ definition.registered := by
  unfold Definition.registered
  rcases take_eq_ok_iff.mp h with ⟨hnone, rfl⟩ | ⟨component, hsome, hnew, rfl⟩
  · simp [hnone]
  · rw [← Definition.id_of_component? hsome] at hnew
    simp [hsome, Registry.entries_insert hnew]

/-- A definition is taken if it can be read and some registry has its entry after the others. -/
theorem exists_take (hsound : ∃ found, definition.component? = .ok found) {registry : Registry}
    {rest : List Registered}
    (h : registry.entries = loading.registry.entries ++ (definition.registered ++ rest)) :
    ∃ next, (loading.take definition).result = .ok next := by
  obtain ⟨found, hfound⟩ := hsound
  cases found with
  | none => exact ⟨_, take_eq_ok_iff.mpr (.inl ⟨hfound, rfl⟩)⟩
  | some component =>
    -- Otherwise the registry would have the id twice.
    have hnew : definition.id ∉ loading.registry.ids := by
      have hnodup := registry.nodup_ids
      have hadded : definition.registered = [⟨component, definition.origin⟩] := by
        simp [Definition.registered, hfound]
      rw [h, hadded, List.map_append, List.nodup_append] at hnodup
      intro hmem
      exact hnodup.2.2 _ hmem component.id List.mem_cons_self
        (Definition.id_of_component? hfound).symm
    exact ⟨_, take_eq_ok_iff.mpr (.inr ⟨component, hfound, hnew, rfl⟩)⟩

/-! ## All definitions -/

theorem exists_takeAll_iff {definitions : List Definition} {registry : Registry} :
    (∃ disabled, (loading.takeAll definitions).result = .ok ⟨registry, disabled⟩) ↔
      (∀ definition ∈ definitions, ∃ found, definition.component? = .ok found) ∧
        registry.entries =
          loading.registry.entries ++ definitions.flatMap Definition.registered := by
  -- The registry is the last one: what is taken first has to fit before all that is added later.
  induction definitions generalizing loading with
  | nil =>
    unfold takeAll
    constructor
    · rintro ⟨disabled, hfinal⟩
      cases hfinal
      simp
    · rintro ⟨-, hentries⟩
      have hsame : loading.registry = registry := Registry.ext (by simpa using hentries.symm)
      exact ⟨loading.disabled, by rw [← hsame]; rfl⟩
  | cons definition others ih =>
    unfold takeAll
    simp only [Logged.result_bind_eq_ok_iff, List.forall_mem_cons, List.flatMap_cons]
    constructor
    · rintro ⟨disabled, next, htake, hothers⟩
      obtain ⟨hsound, hentries⟩ := ih.mp ⟨disabled, hothers⟩
      rw [entries_of_take htake, List.append_assoc] at hentries
      refine ⟨⟨?_, hsound⟩, hentries⟩
      rcases take_eq_ok_iff.mp htake with ⟨hnone, -⟩ | ⟨component, hsome, -⟩
      · exact ⟨_, hnone⟩
      · exact ⟨_, hsome⟩
    · rintro ⟨⟨hown, hsound⟩, hentries⟩
      obtain ⟨next, htake⟩ := exists_take hown hentries
      obtain ⟨disabled, hothers⟩ := ih.mpr
        ⟨hsound, by rw [hentries, entries_of_take htake, List.append_assoc]⟩
      exact ⟨disabled, next, htake, hothers⟩

end Loading

theorem result_load (sources : List Source) :
    (Registry.load sources).result =
      (Loading.start.takeAll (definitionsOf sources)).result.map Loading.registry := by
  unfold Registry.load
  rw [Logged.result_bind]
  cases (Loading.start.takeAll (definitionsOf sources)).result <;> rfl

theorem load_eq_ok_iff {sources : List Source} {registry : Registry} :
    (Registry.load sources).result = .ok registry ↔
      (∀ definition ∈ definitionsOf sources, ∃ found, definition.component? = .ok found) ∧
        registry.entries = (definitionsOf sources).flatMap Definition.registered := by
  have hall : (∃ disabled, (Loading.start.takeAll (definitionsOf sources)).result =
      .ok ⟨registry, disabled⟩) ↔ _ := Loading.exists_takeAll_iff
  rw [show Loading.start.registry.entries = [] from rfl, List.nil_append] at hall
  rw [← hall]
  unfold Registry.load
  simp only [Logged.result_bind_eq_ok_iff]
  constructor
  · rintro ⟨final, hfinal, ⟨⟩, -, hregistry⟩
    cases hregistry
    exact ⟨final.disabled, hfinal⟩
  · rintro ⟨disabled, hfinal⟩
    exact ⟨_, hfinal, (), rfl, rfl⟩

/-! ## Sources one by one -/

/-- The components that the definitions of a source describe, in document order. -/
def Source.components (source : Source) : List Component :=
  (source.definitions.flatMap Definition.registered).map Registered.component

theorem components_of_load {sources : List Source} {registry : Registry}
    (h : (Registry.load sources).result = .ok registry) :
    registry.components = sources.flatMap Source.components := by
  unfold Registry.components
  rw [(load_eq_ok_iff.mp h).2, definitionsOf, List.flatMap_assoc, List.map_flatMap]
  rfl

/-- Whether sources load does not depend on their order. -/
theorem exists_load_of_perm {sources others : List Source} (hperm : sources.Perm others)
    {registry : Registry} (h : (Registry.load sources).result = .ok registry) :
    ∃ other, (Registry.load others).result = .ok other := by
  obtain ⟨hsound, hentries⟩ := load_eq_ok_iff.mp h
  have hdefinitions : (definitionsOf sources).Perm (definitionsOf others) :=
    hperm.flatMap_right Source.definitions
  have hsame := hdefinitions.flatMap_right Definition.registered
  rw [← hentries] at hsame
  have hnodup := (hsame.map Registered.id).nodup_iff.mp registry.nodup_ids
  refine ⟨⟨_, hnodup⟩, load_eq_ok_iff.mpr ⟨fun definition hmem => ?_, rfl⟩⟩
  exact hsound definition (hdefinitions.mem_iff.mpr hmem)

end BootTable
