import BootTable.Proofs.RelatedLists
import BootTable.Proofs.Registry.Load

/-!
# BootTable — which sources make a registry

Loading looks at a definition in several ways, some of them against the components taken before it.
Here the outcome is put in terms of the definitions alone: which of them are enabled, what the
enabled ones describe, and which two of them share an id.

* **`component?_eq_ok_none_iff_isDisabled`**, **`component?_eq_ok_some_iff_describes`**: what a
  definition alone is read as.
* **`holds_iff_entries_eq`**: entries that are added one after the other are the enabled records,
  in their order, and lookups find them there.
* **`takeAll_eq_error_iff`**: a list of definitions fails at one of them, after all before it have
  been taken.
* **`exists_registry_iff_loadable`**: when sources load, what their registry holds, and which
  failure is reported otherwise.
-/

namespace BootTable

/-! ## Definitions -/

/-- The table of a record with a marker that says that the record is disabled. -/
def Toml.Value.IsDisabledRecord (value : Toml.Value) : Prop :=
  ∃ table, value = .table table ∧ Toml.Table.get? table "disabled" = some (.boolean true)

namespace Definition

variable {definition : Definition} {table : Toml.Table}

/-- The value is a table, and its marker, if it has one, says that the record is enabled. -/
def Enables (definition : Definition) (table : Toml.Table) : Prop :=
  definition.value = .table table ∧
    (Toml.Table.get? table "disabled" = none ∨
      Toml.Table.get? table "disabled" = some (.boolean false))

def IsDisabled (definition : Definition) : Prop :=
  definition.value.IsDisabledRecord

/-- The value is a table, and its marker, if it has one, is true or false. -/
def IsMarked (definition : Definition) : Prop :=
  ∃ table, definition.value = .table table ∧
    (Toml.Table.get? table "disabled" = none ∨
      ∃ truth, Toml.Table.get? table "disabled" = some (.boolean truth))

def isEnabled (definition : Definition) : Bool :=
  match definition.value with
  | .table table =>
    match Toml.Table.get? table "disabled" with
    | none | some (.boolean false) => true
    | _ => false
  | _ => false

/-- The record is enabled, and reading and normalizing it makes this component. -/
def Describes (definition : Definition) (component : Component) : Prop :=
  ∃ table record, definition.Enables table ∧ Record.ofTable table = .ok record ∧
    record.normalize definition.id = .ok component

/-! ### What the marker says -/

theorem enabledTable?_eq_ok_none_iff (h : definition.value = .table table) :
    definition.enabledTable? = .ok none ↔
      Toml.Table.get? table "disabled" = some (.boolean true) := by
  unfold enabledTable?
  rw [h]
  simp only
  generalize Toml.Table.get? table "disabled" = marker
  rcases marker with _ | _ | _ | _ | (_ | _) | _ | _ | _ <;> simp

theorem enabledTable?_eq_ok_some_iff (h : definition.value = .table table)
    {enabled : Toml.Table} :
    definition.enabledTable? = .ok (some enabled) ↔ enabled = table ∧
      (Toml.Table.get? table "disabled" = none ∨
        Toml.Table.get? table "disabled" = some (.boolean false)) := by
  unfold enabledTable?
  rw [h]
  simp only
  generalize Toml.Table.get? table "disabled" = marker
  rcases marker with _ | _ | _ | _ | (_ | _) | _ | _ | _ <;> simp [eq_comm]

theorem enabledTable?_eq_error_iff (h : definition.value = .table table) {fault : Fault} :
    definition.enabledTable? = .error fault ↔
      ∃ marker, Toml.Table.get? table "disabled" = some marker ∧
        (∀ truth, marker ≠ .boolean truth) ∧
        fault = .invalidField ("`disabled` must be a boolean, found " ++ marker.kind) := by
  unfold enabledTable?
  rw [h]
  simp only
  generalize Toml.Table.get? table "disabled" = marker
  rcases marker with _ | _ | _ | _ | (_ | _) | _ | _ | _ <;> simp [eq_comm]

theorem enabledTable?_of_ne_table (h : ∀ table, definition.value ≠ .table table) :
    definition.enabledTable? = .error .notATable := by
  unfold enabledTable?
  cases hvalue : definition.value with
  | table table => exact absurd hvalue (h table)
  | _ => rfl

theorem enabledTable?_eq_ok_none_iff_isDisabled :
    definition.enabledTable? = .ok none ↔ definition.IsDisabled := by
  by_cases h : ∃ table, definition.value = .table table
  · obtain ⟨table, hvalue⟩ := h
    rw [enabledTable?_eq_ok_none_iff hvalue, IsDisabled, Toml.Value.IsDisabledRecord]
    simp [hvalue]
  · rw [enabledTable?_of_ne_table (not_exists.mp h)]
    refine iff_of_false nofun ?_
    rintro ⟨table, hvalue, -⟩
    exact h ⟨table, hvalue⟩

theorem enabledTable?_eq_ok_some_iff_enables :
    definition.enabledTable? = .ok (some table) ↔ definition.Enables table := by
  by_cases h : ∃ own, definition.value = .table own
  · obtain ⟨own, hvalue⟩ := h
    rw [enabledTable?_eq_ok_some_iff hvalue, Enables, hvalue, Toml.Value.table.injEq, eq_comm]
    exact and_congr_right fun hown => by rw [hown]
  · rw [enabledTable?_of_ne_table (not_exists.mp h)]
    exact iff_of_false nofun fun henables => h ⟨table, henables.1⟩

theorem isEnabled_iff : definition.isEnabled = true ↔ ∃ table, definition.Enables table := by
  unfold isEnabled Enables
  cases definition.value with
  | table table =>
    simp only [Toml.Value.table.injEq, exists_eq_left']
    generalize Toml.Table.get? table "disabled" = marker
    rcases marker with _ | _ | _ | _ | (_ | _) | _ | _ | _ <;> simp
  | _ => simp

theorem isMarked_iff :
    definition.IsMarked ↔ definition.isEnabled = true ∨ definition.IsDisabled := by
  rw [isEnabled_iff]
  unfold IsMarked Enables IsDisabled Toml.Value.IsDisabledRecord
  constructor
  · rintro ⟨table, hvalue, hnone | ⟨_ | _, hmarker⟩⟩
    · exact .inl ⟨table, hvalue, .inl hnone⟩
    · exact .inl ⟨table, hvalue, .inr hmarker⟩
    · exact .inr ⟨table, hvalue, hmarker⟩
  · rintro (⟨table, hvalue, hnone | hmarker⟩ | ⟨table, hvalue, hmarker⟩)
    · exact ⟨table, hvalue, .inl hnone⟩
    · exact ⟨table, hvalue, .inr ⟨false, hmarker⟩⟩
    · exact ⟨table, hvalue, .inr ⟨true, hmarker⟩⟩

theorem isEnabled_eq_false_of_isDisabled (h : definition.IsDisabled) :
    definition.isEnabled = false := by
  obtain ⟨table, hvalue, hmarker⟩ := h
  unfold isEnabled
  rw [hvalue]
  simp only [hmarker]

/-! ### What a definition alone is read as -/

theorem component?_eq_ok_none_iff_isDisabled :
    definition.component? = .ok none ↔ definition.IsDisabled := by
  rw [component?_eq_ok_none_iff, enabledTable?_eq_ok_none_iff_isDisabled]

theorem component?_eq_ok_some_iff_describes {component : Component} :
    definition.component? = .ok (some component) ↔ definition.Describes component := by
  simp only [component?_eq_ok_some_iff, enabledTable?_eq_ok_some_iff_enables, componentOf_eq_ok_iff,
    Describes, exists_and_left]

theorem Describes.isEnabled {component : Component} (h : definition.Describes component) :
    definition.isEnabled = true := by
  obtain ⟨table, -, henables, -⟩ := h
  exact isEnabled_iff.mpr ⟨table, henables⟩

theorem Describes.id_eq {component : Component} (h : definition.Describes component) :
    component.id = definition.id :=
  id_of_component? (component?_eq_ok_some_iff_describes.mpr h)

/-- A definition describes at most one component. -/
theorem Describes.eq {component other : Component} (h : definition.Describes component)
    (h' : definition.Describes other) : component = other := by
  rw [← component?_eq_ok_some_iff_describes] at h h'
  cases h.symm.trans h'
  rfl

end Definition

/-! ## Definitions that load -/

/-- The conditions under which definitions make a registry. -/
structure Loadable (definitions : List Definition) : Prop where
  /-- Every entry is a table whose marker, if it has one, is true or false. -/
  marked : ∀ definition ∈ definitions, definition.IsMarked
  /-- Every enabled record can be read and normalized. -/
  described : ∀ definition ∈ definitions, ∀ table, definition.Enables table →
    ∃ record component, Record.ofTable table = .ok record ∧
      record.normalize definition.id = .ok component
  /-- No id has two enabled records. -/
  distinct : (definitions.filter Definition.isEnabled).Pairwise fun a b => a.id ≠ b.id

/-- The entry is the component that the definition describes, with the origin of the definition. -/
def Registered.IsOf (definition : Definition) (entry : Registered) : Prop :=
  definition.Describes entry.component ∧ entry.origin = definition.origin

/-- The registry holds what the definitions describe, in their order and nothing else. -/
structure Registry.Holds (registry : Registry) (definitions : List Definition) : Prop where
  entries : List.Forall₂ Registered.IsOf definitions registry.entries
  find? : ∀ id component, registry.find? id = some component ↔
    ∃ definition ∈ definitions, definition.id = id ∧ definition.Describes component
  position? : ∀ id place, registry.position? id = some place ↔
    ∃ definition, definitions[place]? = some definition ∧ definition.id = id
  origin? : ∀ id origin, registry.origin? id = some origin ↔
    ∃ definition ∈ definitions, definition.id = id ∧ definition.origin = origin

/-- The cause for which a definition fails after those before it, by what is looked at first: its
value, its marker, its id, its fields. -/
inductive Definition.FailsAfter (earlier : List Definition) (definition : Definition) :
    RegistryError → Prop
  | notATable (hvalue : ∀ table, definition.value ≠ .table table) :
      FailsAfter earlier definition
        (.malformedComponent definition.id definition.origin .notATable)
  | unmarked {table : Toml.Table} {marker : Toml.Value} (hvalue : definition.value = .table table)
      (hmarker : Toml.Table.get? table "disabled" = some marker)
      (hkind : ∀ truth, marker ≠ .boolean truth) :
      FailsAfter earlier definition
        (.malformedComponent definition.id definition.origin
          (.invalidField ("`disabled` must be a boolean, found " ++ marker.kind)))
  /-- The id is that of an enabled record before it. -/
  | duplicate {first : Definition} (henabled : definition.isEnabled = true)
      (hfirst : first ∈ earlier) (hfirst' : first.isEnabled = true)
      (hid : first.id = definition.id) :
      FailsAfter earlier definition
        (.duplicateComponent definition.id definition.origin first.origin)
  | unreadable {table : Toml.Table} {fault : Fault} (henabled : definition.Enables table)
      (hnew : ∀ first ∈ earlier, first.isEnabled = true → first.id ≠ definition.id)
      (hfault : Record.ofTable table = .error fault) :
      FailsAfter earlier definition (.malformedComponent definition.id definition.origin fault)
  | abnormal {table : Toml.Table} {record : Record} {fault : Fault}
      (henabled : definition.Enables table)
      (hnew : ∀ first ∈ earlier, first.isEnabled = true → first.id ≠ definition.id)
      (hrecord : Record.ofTable table = .ok record)
      (hfault : record.normalize definition.id = .error fault) :
      FailsAfter earlier definition (.malformedComponent definition.id definition.origin fault)

/-- The cause is that of the first definition that fails: those before it load. -/
def FirstFails (definitions : List Definition) (cause : RegistryError) : Prop :=
  ∃ earlier definition later, definitions = earlier ++ definition :: later ∧
    Loadable earlier ∧ definition.FailsAfter earlier cause

/-! ## What a registry holds -/

theorem Registry.holds_of_forall₂ {registry : Registry} {definitions : List Definition}
    (h : List.Forall₂ Registered.IsOf definitions registry.entries) :
    registry.Holds definitions where
  entries := h
  find? := by
    intro id component
    rw [find?_eq_some_iff, components, List.mem_map]
    constructor
    · rintro ⟨⟨entry, hentry, rfl⟩, rfl⟩
      obtain ⟨definition, hmem, hdescribes, -⟩ := exists_rel_of_mem h.flip hentry
      exact ⟨definition, hmem, hdescribes.id_eq.symm, hdescribes⟩
    · rintro ⟨definition, hmem, rfl, hdescribes⟩
      obtain ⟨entry, hentry, hown, -⟩ := exists_rel_of_mem h hmem
      exact ⟨⟨entry, hentry, hown.eq hdescribes⟩, hdescribes.id_eq⟩
  position? := by
    have hids : definitions.map Definition.id = registry.ids :=
      map_eq_map_of_forall₂ (fun _ _ hof => hof.1.id_eq.symm) h
    intro id place
    rw [position?_eq_some_iff, ← hids, List.getElem?_map, Option.map_eq_some_iff]
  origin? := by
    intro id origin
    rw [origin?_eq_some_iff]
    constructor
    · rintro ⟨entry, hentry, rfl, rfl⟩
      obtain ⟨definition, hmem, hdescribes, horigin⟩ := exists_rel_of_mem h.flip hentry
      exact ⟨definition, hmem, hdescribes.id_eq.symm, horigin.symm⟩
    · rintro ⟨definition, hmem, rfl, rfl⟩
      obtain ⟨entry, hentry, hdescribes, horigin⟩ := exists_rel_of_mem h hmem
      exact ⟨entry, hentry, hdescribes.id_eq, horigin⟩

/-- Definitions have at most one list of entries. -/
theorem Registered.eq_of_forall₂_isOf {definitions : List Definition}
    {entries others : List Registered} (h : List.Forall₂ Registered.IsOf definitions entries)
    (h' : List.Forall₂ Registered.IsOf definitions others) : entries = others := by
  refine List.right_unique_forall₂' ?_ h h'
  rintro definition ⟨component, origin⟩ ⟨component', origin'⟩ ⟨hdescribes, horigin⟩
    ⟨hdescribes', horigin'⟩
  cases hdescribes.eq hdescribes'
  cases horigin
  cases horigin'
  rfl

/-! ## What definitions add one after the other -/

namespace Definition

variable {definition : Definition}

theorem exists_component?_iff :
    (∃ found, definition.component? = .ok found) ↔
      definition.IsMarked ∧ ∀ table, definition.Enables table →
        ∃ record component, Record.ofTable table = .ok record ∧
          record.normalize definition.id = .ok component := by
  constructor
  · rintro ⟨_ | component, hfound⟩
    · rw [component?_eq_ok_none_iff_isDisabled] at hfound
      refine ⟨isMarked_iff.mpr (.inr hfound), fun table henables => ?_⟩
      have henabled := isEnabled_iff.mpr ⟨table, henables⟩
      rw [isEnabled_eq_false_of_isDisabled hfound] at henabled
      cases henabled
    · rw [component?_eq_ok_some_iff_describes] at hfound
      refine ⟨isMarked_iff.mpr (.inl hfound.isEnabled), fun table henables => ?_⟩
      obtain ⟨own, record, hown, hrecord, hnormal⟩ := hfound
      cases hown.1.symm.trans henables.1
      exact ⟨record, component, hrecord, hnormal⟩
  · rintro ⟨hmarked, hdescribed⟩
    rcases isMarked_iff.mp hmarked with henabled | hdisabled
    · obtain ⟨table, henables⟩ := isEnabled_iff.mp henabled
      obtain ⟨record, component, hrecord, hnormal⟩ := hdescribed table henables
      exact ⟨_, component?_eq_ok_some_iff_describes.mpr
        ⟨table, record, henables, hrecord, hnormal⟩⟩
    · exact ⟨_, component?_eq_ok_none_iff_isDisabled.mpr hdisabled⟩

theorem forall₂_isOf_registered {definitions : List Definition}
    (hsound : ∀ definition ∈ definitions, ∃ found, definition.component? = .ok found) :
    List.Forall₂ Registered.IsOf (definitions.filter isEnabled)
      (definitions.flatMap registered) := by
  induction definitions with
  | nil => exact .nil
  | cons definition others ih =>
    rw [List.forall_mem_cons] at hsound
    obtain ⟨⟨found, hfound⟩, hothers⟩ := hsound
    rw [List.flatMap_cons, registered, hfound]
    cases found with
    | none =>
      have hdisabled := component?_eq_ok_none_iff_isDisabled.mp hfound
      rw [List.filter_cons_of_neg (by simp [isEnabled_eq_false_of_isDisabled hdisabled])]
      exact ih hothers
    | some component =>
      have hdescribes := component?_eq_ok_some_iff_describes.mp hfound
      rw [List.filter_cons_of_pos hdescribes.isEnabled]
      exact .cons ⟨hdescribes, rfl⟩ (ih hothers)

end Definition

/-- Definitions that can all be read load exactly if some registry has their entries. -/
theorem loadable_iff {definitions : List Definition} :
    Loadable definitions ↔
      (∀ definition ∈ definitions, ∃ found, definition.component? = .ok found) ∧
        ((definitions.flatMap Definition.registered).map Registered.id).Nodup := by
  have hids (hsound : ∀ definition ∈ definitions, ∃ found, definition.component? = .ok found) :
      (definitions.filter Definition.isEnabled).map Definition.id =
        (definitions.flatMap Definition.registered).map Registered.id :=
    map_eq_map_of_forall₂ (fun _ _ hof => hof.1.id_eq.symm)
      (Definition.forall₂_isOf_registered hsound)
  constructor
  · rintro ⟨hmarked, hdescribed, hdistinct⟩
    have hsound : ∀ definition ∈ definitions, ∃ found, definition.component? = .ok found :=
      fun definition hmem => Definition.exists_component?_iff.mpr
        ⟨hmarked definition hmem, hdescribed definition hmem⟩
    rw [← hids hsound]
    exact ⟨hsound, List.pairwise_map.mpr hdistinct⟩
  · rintro ⟨hsound, hnodup⟩
    rw [← hids hsound] at hnodup
    exact {
      marked := fun definition hmem =>
        (Definition.exists_component?_iff.mp (hsound definition hmem)).1
      described := fun definition hmem =>
        (Definition.exists_component?_iff.mp (hsound definition hmem)).2
      distinct := List.pairwise_map.mp hnodup }

theorem holds_iff_entries_eq {definitions : List Definition} {registry : Registry}
    (hsound : ∀ definition ∈ definitions, ∃ found, definition.component? = .ok found) :
    registry.Holds (definitions.filter Definition.isEnabled) ↔
      registry.entries = definitions.flatMap Definition.registered := by
  have hentries := Definition.forall₂_isOf_registered hsound
  constructor
  · intro hholds
    exact Registered.eq_of_forall₂_isOf hholds.entries hentries
  · intro heq
    rw [← heq] at hentries
    exact Registry.holds_of_forall₂ hentries

theorem exists_holds {definitions : List Definition} (h : Loadable definitions) :
    ∃ registry : Registry, registry.Holds (definitions.filter Definition.isEnabled) := by
  obtain ⟨hsound, hnodup⟩ := loadable_iff.mp h
  exact ⟨⟨_, hnodup⟩, (holds_iff_entries_eq hsound).mpr rfl⟩

namespace Loading

/-- From the start, definitions are taken exactly if they load, and the registry holds them. -/
theorem exists_takeAll_start_iff {definitions : List Definition} {registry : Registry} :
    (∃ disabled, (start.takeAll definitions).result = .ok ⟨registry, disabled⟩) ↔
      Loadable definitions ∧ registry.Holds (definitions.filter Definition.isEnabled) := by
  rw [exists_takeAll_iff, loadable_iff, show start.registry.entries = [] from rfl, List.nil_append]
  constructor
  · rintro ⟨hsound, hentries⟩
    have hnodup := registry.nodup_ids
    rw [hentries] at hnodup
    exact ⟨⟨hsound, hnodup⟩, (holds_iff_entries_eq hsound).mpr hentries⟩
  · rintro ⟨⟨hsound, -⟩, hholds⟩
    exact ⟨hsound, (holds_iff_entries_eq hsound).mp hholds⟩

/-! ## Where definitions fail -/

theorem componentOf_eq_error_iff {id : ComponentId} {table : Toml.Table} {fault : Fault} :
    componentOf id table = .error fault ↔ Record.ofTable table = .error fault ∨
      ∃ record, Record.ofTable table = .ok record ∧ record.normalize id = .error fault := by
  unfold componentOf
  cases Record.ofTable table with
  | error own => simp
  | ok record => simp

section

variable {loading : Loading} {definition : Definition} {cause : RegistryError}

theorem takeEnabled_eq_error_iff {table : Toml.Table} :
    (loading.takeEnabled definition table).result = .error cause ↔
      (∃ first, loading.registry.origin? definition.id = some first ∧
        cause = .duplicateComponent definition.id definition.origin first) ∨
      loading.registry.origin? definition.id = none ∧
        ∃ fault, componentOf definition.id table = .error fault ∧
          cause = malformed definition fault := by
  unfold takeEnabled
  cases loading.registry.origin? definition.id with
  | some first => simp [eq_comm]
  | none =>
    cases componentOf definition.id table with
    | error fault => simp [eq_comm]
    | ok component => simp [bind_eq_error_iff]

theorem take_eq_error_iff :
    (loading.take definition).result = .error cause ↔
      (∃ fault, definition.enabledTable? = .error fault ∧ cause = malformed definition fault) ∨
      ∃ table, definition.enabledTable? = .ok (some table) ∧
        (loading.takeEnabled definition table).result = .error cause := by
  unfold take
  cases definition.enabledTable? with
  | error fault => simp [eq_comm]
  | ok table? =>
    cases table? with
    | none => simp [bind_eq_error_iff]
    | some table => simp

/-- Where the registry holds the enabled records of the definitions before it, a definition fails
as it does after these. -/
theorem take_eq_error_iff_failsAfter {earlier : List Definition}
    (hholds : loading.registry.Holds (earlier.filter Definition.isEnabled)) :
    (loading.take definition).result = .error cause ↔ definition.FailsAfter earlier cause := by
  have horigin (first : String) : loading.registry.origin? definition.id = some first ↔
      ∃ other ∈ earlier, other.isEnabled = true ∧ other.id = definition.id ∧
        other.origin = first := by
    rw [hholds.origin?]
    simp only [List.mem_filter, and_assoc]
  have hnew : loading.registry.origin? definition.id = none ↔
      ∀ other ∈ earlier, other.isEnabled = true → other.id ≠ definition.id := by
    rw [Option.eq_none_iff_forall_ne_some]
    constructor
    · intro h other hmem henabled hid
      exact h other.origin ((horigin _).mpr ⟨other, hmem, henabled, hid, rfl⟩)
    · intro h first hfirst
      obtain ⟨other, hmem, henabled, hid, -⟩ := (horigin first).mp hfirst
      exact h other hmem henabled hid
  rw [take_eq_error_iff]
  simp only [takeEnabled_eq_error_iff, Definition.enabledTable?_eq_ok_some_iff_enables, horigin,
    hnew, componentOf_eq_error_iff]
  -- One case for each of the causes, in both directions.
  constructor
  · rintro (⟨fault, hmarker, rfl⟩ | ⟨table, henables, ⟨-, ⟨other, hmem, henabled, hid, rfl⟩, rfl⟩ |
      ⟨hfresh, fault, hunread | ⟨record, hrecord, hnormal⟩, rfl⟩⟩)
    · by_cases hvalue : ∃ table, definition.value = .table table
      · obtain ⟨table, hvalue⟩ := hvalue
        obtain ⟨marker, hget, hkind, rfl⟩ :=
          (Definition.enabledTable?_eq_error_iff hvalue).mp hmarker
        exact .unmarked hvalue hget hkind
      · rw [Definition.enabledTable?_of_ne_table (not_exists.mp hvalue)] at hmarker
        cases hmarker
        exact .notATable (not_exists.mp hvalue)
    · exact .duplicate (Definition.isEnabled_iff.mpr ⟨table, henables⟩) hmem henabled hid
    · exact .unreadable henables hfresh hunread
    · exact .abnormal henables hfresh hrecord hnormal
  · intro hfails
    cases hfails with
    | notATable hvalue =>
      exact .inl ⟨_, Definition.enabledTable?_of_ne_table hvalue, rfl⟩
    | unmarked hvalue hmarker hkind =>
      exact .inl ⟨_, (Definition.enabledTable?_eq_error_iff hvalue).mpr
        ⟨_, hmarker, hkind, rfl⟩, rfl⟩
    | duplicate henabled hmem henabled' hid =>
      obtain ⟨table, henables⟩ := Definition.isEnabled_iff.mp henabled
      exact .inr ⟨table, henables, .inl ⟨_, ⟨_, hmem, henabled', hid, rfl⟩, rfl⟩⟩
    | unreadable henables hfresh hfault =>
      exact .inr ⟨_, henables, .inr ⟨hfresh, _, .inl hfault, rfl⟩⟩
    | abnormal henables hfresh hrecord hfault =>
      exact .inr ⟨_, henables, .inr ⟨hfresh, _, .inr ⟨_, hrecord, hfault⟩, rfl⟩⟩

/-- A list of definitions fails at one of them, after all before it have been taken. -/
theorem takeAll_eq_error_iff {definitions : List Definition} :
    (loading.takeAll definitions).result = .error cause ↔
      ∃ earlier definition later next, definitions = earlier ++ definition :: later ∧
        (loading.takeAll earlier).result = .ok next ∧
        (next.take definition).result = .error cause := by
  induction definitions generalizing loading with
  | nil =>
    constructor
    · intro h
      cases h
    · rintro ⟨earlier, definition, later, next, hsplit, -⟩
      exact absurd hsplit.symm (List.append_ne_nil_of_right_ne_nil _ (List.cons_ne_nil _ _))
  | cons head others ih =>
    unfold takeAll
    rw [Logged.result_bind_eq_error_iff]
    simp only [ih]
    constructor
    · rintro (hhead | ⟨after, hhead, earlier, definition, later, next, rfl, hearlier, hfails⟩)
      · exact ⟨[], head, others, loading, rfl, rfl, hhead⟩
      · exact ⟨head :: earlier, definition, later, next, rfl,
          Logged.result_bind_eq_ok_iff.mpr ⟨after, hhead, hearlier⟩, hfails⟩
    · rintro ⟨_ | ⟨first, earlier⟩, definition, later, next, hsplit, hearlier, hfails⟩
      · cases hsplit
        cases hearlier
        exact .inl hfails
      · cases hsplit
        obtain ⟨after, hhead, hrest⟩ := Logged.result_bind_eq_ok_iff.mp hearlier
        exact .inr ⟨after, hhead, earlier, definition, later, next, rfl, hrest, hfails⟩

theorem takeAll_start_eq_error_iff {definitions : List Definition} :
    (start.takeAll definitions).result = .error cause ↔ FirstFails definitions cause := by
  rw [takeAll_eq_error_iff]
  constructor
  · rintro ⟨earlier, definition, later, next, hsplit, hearlier, hfails⟩
    obtain ⟨hloadable, hholds⟩ := exists_takeAll_start_iff.mp ⟨next.disabled, hearlier⟩
    exact ⟨earlier, definition, later, hsplit, hloadable,
      (take_eq_error_iff_failsAfter hholds).mp hfails⟩
  · rintro ⟨earlier, definition, later, hsplit, hloadable, hfails⟩
    obtain ⟨registry, hholds⟩ := exists_holds hloadable
    obtain ⟨disabled, hearlier⟩ := exists_takeAll_start_iff.mpr ⟨hloadable, hholds⟩
    exact ⟨earlier, definition, later, _, hsplit, hearlier,
      (take_eq_error_iff_failsAfter hholds).mpr hfails⟩

end

end Loading

/-! ## Loading -/

theorem load_eq_ok_iff_holds {sources : List Source} {registry : Registry} :
    (Registry.load sources).result = .ok registry ↔ Loadable (definitionsOf sources) ∧
      registry.Holds ((definitionsOf sources).filter Definition.isEnabled) := by
  rw [← Loading.exists_takeAll_start_iff, load_eq_ok_iff, Loading.exists_takeAll_iff]
  rfl

theorem load_eq_error_iff {sources : List Source} {cause : RegistryError} :
    (Registry.load sources).result = .error cause ↔ FirstFails (definitionsOf sources) cause := by
  rw [← Loading.takeAll_start_eq_error_iff, result_load, map_eq_error_iff]

/-- Sources load exactly if all their definitions are marked and described and no two enabled ones
share an id. The registry then holds what the enabled ones describe, in their order; otherwise the
first definition that fails after those before it decides the cause. -/
theorem exists_registry_iff_loadable (sources : List Source) :
    ((∃ registry, (Registry.load sources).result = .ok registry) ↔
      Loadable (definitionsOf sources)) ∧
    (∀ registry, (Registry.load sources).result = .ok registry ↔
      Loadable (definitionsOf sources) ∧
        registry.Holds ((definitionsOf sources).filter Definition.isEnabled)) ∧
    ∀ cause, (Registry.load sources).result = .error cause ↔
      FirstFails (definitionsOf sources) cause := by
  refine ⟨?_, fun registry => load_eq_ok_iff_holds, fun cause => load_eq_error_iff⟩
  simp only [load_eq_ok_iff_holds]
  constructor
  · rintro ⟨registry, hloadable, -⟩
    exact hloadable
  · intro hloadable
    obtain ⟨registry, hholds⟩ := exists_holds hloadable
    exact ⟨registry, hloadable, hholds⟩

end BootTable
