import BootTable.CapabilityIndex
import BootTable.Log
import BootTable.Proofs.PairList
import BootTable.Proofs.Registry.Members
import Mathlib.Data.List.Induction

/-!
# BootTable — what the capability index lists

The index is built component by component and capability by capability, with the check of unique
capabilities in between. Both loops are one fold over the *provisions*, the pairs of a capability
and a component that provides it, so one induction over the provisions settles when the fold
succeeds and what it lists then.

* **`foldlM_notePair_eq_ok_iff`**: the fold succeeds exactly if no unique capability has a second
  provision, and then answers the index of the provisions.
* **`providersIn_provisions`**: a component provides a capability once, so the providers that the
  provisions list are the components that provide it.
* **`foldlM_notePair_eq_error_iff`**: otherwise it fails where the numbering of processors is
  provided for the second time.
* **`build_eq_ok_iff`**, **`build_eq_error_iff`**, **`providers_of_build`**,
  **`contains_of_build`**: the same of a registry.
-/

namespace BootTable

/-- The components of a list that provide a capability. -/
def providersAmong (components : List Component) (capability : Capability) : List ComponentId :=
  (components.filter fun component => capability ∈ component.provides).map Component.id

theorem mem_providersAmong {components : List Component} {capability : Capability}
    {id : ComponentId} :
    id ∈ providersAmong components capability ↔
      ∃ component ∈ components, capability ∈ component.provides ∧ component.id = id := by
  simp [providersAmong, and_assoc]

namespace CapabilityIndex

/-! ## Entries -/

theorem addTo_eq_upsert (capability : Capability) (provider : ComponentId)
    (entries : List (Capability × List ComponentId)) :
    addTo capability provider entries =
      upsert capability (fun providers? => providers?.getD [] ++ [provider]) entries := by
  induction entries with
  | nil => rfl
  | cons entry others ih =>
    unfold addTo upsert
    rw [ih]
    rfl

theorem lookup_addTo (capability other : Capability) (provider : ComponentId)
    (entries : List (Capability × List ComponentId)) :
    (addTo capability provider entries).lookup other =
      if other = capability then some ((entries.lookup other).getD [] ++ [provider])
      else entries.lookup other := by
  rw [addTo_eq_upsert, lookup_upsert]

/-! ## Provisions -/

/-- The capabilities that components provide, each with the component, in order. -/
def provisions (components : List Component) : List (Capability × ComponentId) :=
  components.flatMap fun component =>
    component.provides.toList.map fun capability => (capability, component.id)

/-- The providers of a capability among provisions. -/
def providersIn (pairs : List (Capability × ComponentId)) (capability : Capability) :
    List ComponentId :=
  (pairs.filter fun pair => pair.1 = capability).map Prod.snd

theorem providersIn_concat (pairs : List (Capability × ComponentId))
    (pair : Capability × ComponentId) (capability : Capability) :
    providersIn (pairs ++ [pair]) capability =
      if capability = pair.1 then providersIn pairs capability ++ [pair.2]
      else providersIn pairs capability := by
  unfold providersIn
  by_cases h : capability = pair.1
  · simp [h]
  · have hne : ¬pair.1 = capability := fun heq => h heq.symm
    simp [h, hne]

theorem providersIn_eq_nil_iff {pairs : List (Capability × ComponentId)} {capability : Capability} :
    providersIn pairs capability = [] ↔ capability ∉ pairs.map Prod.fst := by
  rw [providersIn, List.map_eq_nil_iff, List.filter_eq_nil_iff]
  constructor
  · intro h hmem
    obtain ⟨pair, hpair, hsame⟩ := List.mem_map.mp hmem
    exact h pair hpair (decide_eq_true hsame)
  · intro h pair hpair hsame
    exact h (List.mem_map.mpr ⟨pair, hpair, of_decide_eq_true hsame⟩)

theorem map_fst_provisions (components : List Component) :
    (provisions components).map Prod.fst =
      components.flatMap fun component => component.provides.toList := by
  simp [provisions, List.map_flatMap, Function.comp_def]

theorem providersIn_provisions (components : List Component) (capability : Capability) :
    providersIn (provisions components) capability = providersAmong components capability := by
  induction components with
  | nil => rfl
  | cons component others ih =>
    -- Nothing is repeated in what one component provides, so it is listed at most once.
    have hown : (component.provides.toList.filter fun other => other = capability) =
        if capability ∈ component.provides then [capability] else [] := by
      by_cases h : capability ∈ component.provides
      · rw [if_pos h]
        have hcount := List.count_eq_one_of_mem component.provides.nodup h
        rw [List.filter_eq, hcount, List.replicate_one]
      · rw [if_neg h, List.filter_eq_nil_iff]
        intro other hother heq
        exact h (by simpa using of_decide_eq_true heq ▸ hother)
    have hsplit : providersIn (provisions (component :: others)) capability =
        ((component.provides.toList.filter fun other => other = capability).map
          fun _ => component.id) ++ providersIn (provisions others) capability := by
      simp [providersIn, provisions, List.filter_map, Function.comp_def]
    rw [hsplit, hown, ih, providersAmong, providersAmong]
    by_cases h : capability ∈ component.provides
    · simp [h]
    · simp [h]

/-! ## The fold over the provisions -/

/-- Notes one provision. -/
def notePair (index : CapabilityIndex) (pair : Capability × ComponentId) :
    Except RegistryError CapabilityIndex :=
  note pair.2 index pair.1

/-- The index of provisions, without the check of unique capabilities. -/
def ofProvisions (pairs : List (Capability × ComponentId)) : CapabilityIndex :=
  ⟨pairs.foldl (fun entries pair => addTo pair.1 pair.2 entries) []⟩

theorem ofProvisions_concat (pairs : List (Capability × ComponentId))
    (pair : Capability × ComponentId) :
    ofProvisions (pairs ++ [pair]) = ⟨addTo pair.1 pair.2 (ofProvisions pairs).entries⟩ := by
  simp [ofProvisions, List.foldl_append]

theorem lookup_ofProvisions (pairs : List (Capability × ComponentId)) (capability : Capability) :
    (ofProvisions pairs).entries.lookup capability =
      if providersIn pairs capability = [] then none else some (providersIn pairs capability) := by
  induction pairs using List.reverseRecOn with
  | nil => rfl
  | append_singleton pairs pair ih =>
    rw [ofProvisions_concat, lookup_addTo, providersIn_concat, ih]
    by_cases h : capability = pair.1
    · by_cases hnil : providersIn pairs capability = []
      · simp [h] at hnil ⊢
        simp [hnil]
      · simp [h] at hnil ⊢
        simp [hnil]
    · simp [h]

/-- Capabilities are listed in the order in which they are first provided. -/
theorem map_fst_ofProvisions (pairs : List (Capability × ComponentId)) :
    (ofProvisions pairs).entries.map Prod.fst = firstOccurrences (pairs.map Prod.fst) := by
  induction pairs using List.reverseRecOn with
  | nil => rfl
  | append_singleton pairs pair ih =>
    rw [ofProvisions_concat, addTo_eq_upsert, map_fst_upsert, ih, List.map_append,
      List.map_singleton, firstOccurrences_concat]
    simp only [mem_firstOccurrences]

theorem entries_ofProvisions (pairs : List (Capability × ComponentId)) :
    (ofProvisions pairs).entries =
      (firstOccurrences (pairs.map Prod.fst)).map fun capability =>
        (capability, providersIn pairs capability) := by
  have hkeys := map_fst_ofProvisions pairs
  rw [← hkeys]
  refine eq_map_graph_of_lookup (by rw [hkeys]; exact nodup_firstOccurrences _) fun x hx => ?_
  rw [hkeys, mem_firstOccurrences] at hx
  rw [lookup_ofProvisions, if_neg (mt providersIn_eq_nil_iff.mp (not_not.mpr hx))]

theorem providers_ofProvisions (pairs : List (Capability × ComponentId))
    (capability : Capability) :
    (ofProvisions pairs).providers capability = providersIn pairs capability := by
  unfold providers
  rw [lookup_ofProvisions]
  by_cases h : providersIn pairs capability = []
  · simp [h]
  · simp [h]

theorem contains_ofProvisions (pairs : List (Capability × ComponentId))
    (capability : Capability) :
    (ofProvisions pairs).contains capability = true ↔ providersIn pairs capability ≠ [] := by
  unfold contains
  rw [lookup_ofProvisions]
  by_cases h : providersIn pairs capability = []
  · simp [h]
  · simp [h]

theorem note_eq_ok_iff {provider : ComponentId} {index next : CapabilityIndex}
    {capability : Capability} :
    note provider index capability = .ok next ↔
      (capability.isUnique = true → index.providers capability = []) ∧
        next = ⟨addTo capability provider index.entries⟩ := by
  unfold note
  cases hunique : capability.isUnique <;> cases hproviders : index.providers capability
  · simp [eq_comm]
  · simp [eq_comm]
  · simp [eq_comm]
  · simp

theorem note_eq_error_iff {provider : ComponentId} {index : CapabilityIndex}
    {capability : Capability} {cause : RegistryError} :
    note provider index capability = .error cause ↔
      capability.isUnique = true ∧ ∃ first rest, index.providers capability = first :: rest ∧
        cause = .nonUniqueCapability capability first provider := by
  unfold note
  cases hunique : capability.isUnique <;> cases hproviders : index.providers capability
  · simp
  · simp
  · simp
  · simp [eq_comm]

/-- No unique capability has a second provision. -/
def ProvidedOnce (pairs : List (Capability × ComponentId)) : Prop :=
  ∀ capability, capability.isUnique = true → (providersIn pairs capability).length ≤ 1

theorem providedOnce_concat {pairs : List (Capability × ComponentId)}
    {pair : Capability × ComponentId} :
    ProvidedOnce (pairs ++ [pair]) ↔
      ProvidedOnce pairs ∧ (pair.1.isUnique = true → providersIn pairs pair.1 = []) := by
  constructor
  · intro h
    refine ⟨fun capability hunique => ?_, fun hunique => ?_⟩
    · have hle := h capability hunique
      rw [providersIn_concat] at hle
      split at hle
      · rw [List.length_append] at hle
        omega
      · exact hle
    · have hle := h pair.1 hunique
      rw [providersIn_concat, if_pos rfl, List.length_append, List.length_singleton] at hle
      exact List.length_eq_zero_iff.mp (by omega)
  · rintro ⟨hbefore, hlast⟩ capability hunique
    rw [providersIn_concat]
    split
    · rename_i heq
      subst heq
      rw [hlast hunique]
      simp
    · exact hbefore capability hunique

theorem foldlM_notePair_eq_ok_iff {pairs : List (Capability × ComponentId)}
    {index : CapabilityIndex} :
    pairs.foldlM notePair empty = .ok index ↔ ProvidedOnce pairs ∧ index = ofProvisions pairs := by
  -- From the right: a provision is refused if what it provides is unique and already listed.
  induction pairs using List.reverseRecOn generalizing index with
  | nil =>
    constructor
    · intro h
      cases h
      exact ⟨fun _ _ => Nat.zero_le 1, rfl⟩
    · rintro ⟨-, rfl⟩
      rfl
  | append_singleton pairs pair ih =>
    have hstep (before : CapabilityIndex) : [pair].foldlM notePair before = .ok index ↔
        (pair.1.isUnique = true → before.providers pair.1 = []) ∧
          index = ⟨addTo pair.1 pair.2 before.entries⟩ := by
      rw [List.foldlM_cons]
      simp only [List.foldlM_nil, bind_pure]
      exact note_eq_ok_iff
    rw [List.foldlM_append, bind_eq_ok_iff, providedOnce_concat, ofProvisions_concat]
    constructor
    · rintro ⟨before, hbefore, hlast⟩
      obtain ⟨honce, rfl⟩ := ih.mp hbefore
      obtain ⟨hfirst, rfl⟩ := (hstep _).mp hlast
      rw [providers_ofProvisions] at hfirst
      exact ⟨⟨honce, hfirst⟩, rfl⟩
    · rintro ⟨⟨honce, hfirst⟩, rfl⟩
      refine ⟨_, ih.mpr ⟨honce, rfl⟩, (hstep _).mpr ⟨?_, rfl⟩⟩
      rw [providers_ofProvisions]
      exact hfirst

/-- The first two providers among some provisions are so among the earlier ones, or the second one
is that of the last provision. -/
theorem exists_providersIn_concat_iff {pairs : List (Capability × ComponentId)}
    {pair : Capability × ComponentId} {capability : Capability} {first second : ComponentId} :
    (∃ rest, providersIn (pairs ++ [pair]) capability = first :: second :: rest) ↔
      (∃ rest, providersIn pairs capability = first :: second :: rest) ∨
        capability = pair.1 ∧ providersIn pairs capability = [first] ∧ second = pair.2 := by
  rw [providersIn_concat]
  by_cases hlast : capability = pair.1
  · rw [if_pos hlast]
    cases providersIn pairs capability with
    | nil => simp
    | cons one others =>
      cases others with
      | nil => simp [hlast, eq_comm]
      | cons two more => simp
  · rw [if_neg hlast]
    simp [hlast]

/-- Where no unique capability has a second provision, a provision is refused if it is the second
one of the numbering of processors. -/
theorem notePair_ofProvisions_eq_error_iff {pairs : List (Capability × ComponentId)}
    {pair : Capability × ComponentId} {cause : RegistryError} (honce : ProvidedOnce pairs) :
    notePair (ofProvisions pairs) pair = .error cause ↔
      .logicalCpuId = pair.1 ∧ ∃ first, providersIn pairs .logicalCpuId = [first] ∧
        cause = .nonUniqueCapability .logicalCpuId first pair.2 := by
  unfold notePair
  rw [note_eq_error_iff, Capability.isUnique_iff, providers_ofProvisions]
  constructor
  · rintro ⟨hunique, first, rest, hproviders, rfl⟩
    have hle := honce pair.1 (Capability.isUnique_iff.mpr hunique)
    rw [hproviders, List.length_cons] at hle
    have hrest : rest = [] := List.length_eq_zero_iff.mp (by omega)
    rw [hunique, hrest] at hproviders
    rw [hunique]
    exact ⟨rfl, first, hproviders, rfl⟩
  · rintro ⟨hunique, first, hproviders, rfl⟩
    rw [← hunique]
    exact ⟨rfl, first, [], hproviders, rfl⟩

/-- The fold fails where the numbering of processors is provided for the second time. -/
theorem foldlM_notePair_eq_error_iff {pairs : List (Capability × ComponentId)}
    {cause : RegistryError} :
    pairs.foldlM notePair empty = .error cause ↔
      ∃ first second, (∃ rest, providersIn pairs .logicalCpuId = first :: second :: rest) ∧
        cause = .nonUniqueCapability .logicalCpuId first second := by
  -- From the right: whatever is provided later stands after the first two provisions.
  induction pairs using List.reverseRecOn with
  | nil =>
    constructor
    · intro h
      cases h
    · rintro ⟨first, second, ⟨rest, h⟩, -⟩
      cases h
  | append_singleton pairs pair ih =>
    have hstep (before : CapabilityIndex) :
        [pair].foldlM notePair before = notePair before pair := by
      rw [List.foldlM_cons]
      simp only [List.foldlM_nil, bind_pure]
    rw [List.foldlM_append, bind_eq_error_iff, ih]
    simp only [hstep, exists_providersIn_concat_iff]
    constructor
    · rintro (⟨first, second, hearlier, rfl⟩ | ⟨before, hbefore, hlast⟩)
      · exact ⟨first, second, .inl hearlier, rfl⟩
      · obtain ⟨honce, rfl⟩ := foldlM_notePair_eq_ok_iff.mp hbefore
        obtain ⟨hunique, first, hproviders, rfl⟩ :=
          (notePair_ofProvisions_eq_error_iff honce).mp hlast
        exact ⟨first, pair.2, .inr ⟨hunique, hproviders, rfl⟩, rfl⟩
    · rintro ⟨first, second, hearlier | ⟨hunique, hproviders, rfl⟩, rfl⟩
      · exact .inl ⟨first, second, hearlier, rfl⟩
      · have honce : ProvidedOnce pairs := by
          intro capability hcapability
          rw [Capability.isUnique_iff.mp hcapability, hproviders]
          exact Nat.le_refl 1
        exact .inr ⟨_, foldlM_notePair_eq_ok_iff.mpr ⟨honce, rfl⟩,
          (notePair_ofProvisions_eq_error_iff honce).mpr ⟨hunique, first, hproviders, rfl⟩⟩

theorem build_eq_foldlM (registry : Registry) :
    build registry = (provisions registry.components).foldlM notePair empty := by
  unfold build
  -- The loop over the components is the same from any index on.
  generalize empty = index
  induction registry.components generalizing index with
  | nil => rfl
  | cons component others ih =>
    have hown : noteComponent index component =
        (component.provides.toList.map fun capability => (capability, component.id)).foldlM
          notePair index := by
      rw [List.foldlM_map]
      rfl
    have hsplit : provisions (component :: others) =
        (component.provides.toList.map fun capability => (capability, component.id)) ++
          provisions others := rfl
    rw [hsplit, List.foldlM_append, List.foldlM_cons, hown]
    exact bind_congr fun next => ih next

/-! ## The index of a registry -/

/-- At most one component provides the numbering of processors. -/
def Unambiguous (components : List Component) : Prop :=
  ∀ p ∈ components, ∀ q ∈ components, Capability.logicalCpuId ∈ p.provides →
    Capability.logicalCpuId ∈ q.provides → p = q

theorem providedOnce_provisions_iff (registry : Registry) :
    ProvidedOnce (provisions registry.components) ↔ Unambiguous registry.components := by
  have hnodup : (registry.components.filter fun component =>
      Capability.logicalCpuId ∈ component.provides).Nodup :=
    (List.Nodup.of_map _ registry.nodup_map_id_components).sublist List.filter_sublist
  have honce : ProvidedOnce (provisions registry.components) ↔
      (registry.components.filter fun component =>
        Capability.logicalCpuId ∈ component.provides).length ≤ 1 := by
    simp only [ProvidedOnce, Capability.isUnique_iff, forall_eq, providersIn_provisions,
      providersAmong, List.length_map]
  rw [honce, length_le_one_iff_of_nodup hnodup]
  simp only [List.mem_filter, decide_eq_true_eq]
  constructor
  · intro h p hp q hq hpx hqx
    exact h p ⟨hp, hpx⟩ q ⟨hq, hqx⟩
  · intro h p hp q hq
    exact h p hp.1 q hq.1 hp.2 hq.2

theorem build_eq_ok_iff {registry : Registry} {index : CapabilityIndex} :
    build registry = .ok index ↔
      Unambiguous registry.components ∧ index = ofProvisions (provisions registry.components) := by
  rw [build_eq_foldlM, foldlM_notePair_eq_ok_iff, providedOnce_provisions_iff]

/-- Building fails on the first two components that provide the numbering of processors. -/
theorem build_eq_error_iff {registry : Registry} {cause : RegistryError} :
    build registry = .error cause ↔
      ∃ first second,
        (∃ rest, providersAmong registry.components .logicalCpuId = first :: second :: rest) ∧
          cause = .nonUniqueCapability .logicalCpuId first second := by
  rw [build_eq_foldlM, foldlM_notePair_eq_error_iff, providersIn_provisions]

/-- The index lists the components that provide a capability, in first-seen order. -/
theorem providers_of_build {registry : Registry} {index : CapabilityIndex}
    (h : build registry = .ok index) (capability : Capability) :
    index.providers capability = providersAmong registry.components capability := by
  obtain ⟨-, rfl⟩ := build_eq_ok_iff.mp h
  rw [providers_ofProvisions, providersIn_provisions]

theorem contains_of_build {registry : Registry} {index : CapabilityIndex}
    (h : build registry = .ok index) (capability : Capability) :
    index.contains capability = true ↔
      ∃ component ∈ registry.components, capability ∈ component.provides := by
  obtain ⟨-, rfl⟩ := build_eq_ok_iff.mp h
  rw [contains_ofProvisions, providersIn_provisions]
  simp [providersAmong, List.filter_eq_nil_iff]

end CapabilityIndex

end BootTable
