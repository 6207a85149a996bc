import BootTable.Entry
import BootTable.Proofs.Registry.Members
import Mathlib.Data.List.Forall2

/-!
# BootTable — what the entries of a table say

A plan and a registry fix which places a table has: for every phase one for its marker and one for
each of its components that the registry knows. The entries fill these places in order. Whether
processors are numbered is decided in one pass over them, with a latch: at every place it says
whether an earlier entry is that of a component that numbers processors.

* **`getElem?_latch`**: the pass in closed form, by induction over the entries with the latch
  generalized.
* **`forall₂_fills_phaseEntries`**, **`forall₂_fills_latch`**: the entries of a phase fill its
  places, and the pass changes nothing else about them.
* **`exists_numbering_iff`**: the entries that trip the latch are those of components that number
  processors, so that skipped ids and markers do not.
* **`flatten_fills_slots`**: what `flatten` answers.
-/

namespace BootTable

/-! ## Places and what fills them -/

/-- A place of the table. -/
inductive Slot where
  | marker (phase : Phase)
  | component (id : ComponentId)
deriving DecidableEq

/-- The places of a phase: its marker, then those of its components that the registry knows. -/
def PhaseOrder.slots (order : PhaseOrder) (registry : Registry) : List Slot :=
  .marker order.phase :: (order.components.filter fun id => id ∈ registry.ids).map .component

/-- The places of a table, phase after phase. -/
def Plan.slots (plan : Plan) (registry : Registry) : List Slot :=
  plan.phases.flatMap fun order => order.slots registry

namespace Entry

/-- An entry is the marker of a phase. Whether processors are numbered there is left open. -/
structure IsMarkerOf (entry : Entry) (phase : Phase) : Prop where
  name_eq : entry.name = phase.displayName
  kind_eq : entry.kind = .marker phase
  importance_eq : entry.importance = .important
  marker : entry.flags.contains .phaseMarker = true
  required : entry.flags.contains .required = false
  perCpu : entry.flags.contains .perCpu = false

/-- An entry is that of a component. Whether processors are numbered there is left open. -/
structure StandsFor (entry : Entry) (component : Component) : Prop where
  name_eq : entry.name = component.displayName
  kind_eq : entry.kind =
    .component component.id component.execution.bootstrap component.execution.ap
  importance_eq : entry.importance = component.importance
  marker : entry.flags.contains .phaseMarker = false
  required : entry.flags.contains .required = component.required
  perCpu : entry.flags.contains .perCpu = component.isPerCpu

/-- What an entry has to say at a place. -/
def Fills (registry : Registry) : Slot → Entry → Prop
  | .marker phase, entry => entry.IsMarkerOf phase
  | .component id, entry =>
    ∃ component ∈ registry.components, component.id = id ∧ entry.StandsFor component

theorem isMarkerOf_ofPhase (phase : Phase) : (ofPhase phase).IsMarkerOf phase where
  name_eq := rfl
  kind_eq := rfl
  importance_eq := rfl
  marker := show EntryFlags.phaseMarker.contains .phaseMarker = true by decide
  required := show EntryFlags.phaseMarker.contains .required = false by decide
  perCpu := show EntryFlags.phaseMarker.contains .perCpu = false by decide

theorem standsFor_ofComponent (component : Component) :
    (ofComponent component).StandsFor component where
  name_eq := rfl
  kind_eq := rfl
  importance_eq := rfl
  marker := by
    unfold ofComponent
    rw [EntryFlags.contains_set_of_disjoint rfl, EntryFlags.contains_set_of_disjoint rfl]
    decide
  required := by
    unfold ofComponent
    rw [EntryFlags.contains_set_of_disjoint rfl, EntryFlags.contains_set_self (by decide)]
  perCpu := EntryFlags.contains_set_self (by decide) _ _

/-- The entry, with the flag that processors are numbered. -/
def numbered (entry : Entry) : Entry :=
  { entry with flags := entry.flags.union .apIdAvailable }

theorem contains_numbered {flag : EntryFlags}
    (h : EntryFlags.apIdAvailable.bits &&& flag.bits = 0#8) (entry : Entry) :
    entry.numbered.flags.contains flag = entry.flags.contains flag :=
  EntryFlags.contains_union_of_disjoint h entry.flags

theorem IsMarkerOf.numbered {entry : Entry} {phase : Phase} (h : entry.IsMarkerOf phase) :
    entry.numbered.IsMarkerOf phase where
  name_eq := h.name_eq
  kind_eq := h.kind_eq
  importance_eq := h.importance_eq
  marker := (contains_numbered rfl entry).trans h.marker
  required := (contains_numbered rfl entry).trans h.required
  perCpu := (contains_numbered rfl entry).trans h.perCpu

theorem StandsFor.numbered {entry : Entry} {component : Component}
    (h : entry.StandsFor component) : entry.numbered.StandsFor component where
  name_eq := h.name_eq
  kind_eq := h.kind_eq
  importance_eq := h.importance_eq
  marker := (contains_numbered rfl entry).trans h.marker
  required := (contains_numbered rfl entry).trans h.required
  perCpu := (contains_numbered rfl entry).trans h.perCpu

theorem Fills.numbered {registry : Registry} {slot : Slot} {entry : Entry}
    (h : entry.Fills registry slot) : entry.numbered.Fills registry slot := by
  cases slot with
  | marker phase => exact IsMarkerOf.numbered h
  | component id =>
    obtain ⟨component, hmem, hid, hstands⟩ := h
    exact ⟨component, hmem, hid, hstands.numbered⟩

end Entry

/-! ## The pass over the entries -/

theorem latch_cons (available : Bool) (pair : Entry × Bool) (others : List (Entry × Bool)) :
    latch available (pair :: others) =
      (if available then pair.1.numbered else pair.1) :: latch (available || pair.2) others :=
  rfl

/-- What the pass makes of an entry depends on the earlier entries alone. -/
theorem getElem?_latch (available : Bool) (pairs : List (Entry × Bool)) (k : Nat) :
    (latch available pairs)[k]? = pairs[k]?.map fun pair =>
      if available || (pairs.take k).any Prod.snd then pair.1.numbered else pair.1 := by
  -- The head goes over into the latch, so the latch is generalized.
  induction pairs generalizing available k with
  | nil => simp [latch]
  | cons pair others ih =>
    rw [latch_cons]
    cases k with
    | zero => simp
    | succ k =>
      rw [List.getElem?_cons_succ, List.getElem?_cons_succ, ih, List.take_succ_cons,
        List.any_cons, Bool.or_assoc]

theorem any_take_snd_iff {pairs : List (Entry × Bool)} {k : Nat} :
    (pairs.take k).any Prod.snd = true ↔ ∃ j < k, ∃ pair, pairs[j]? = some pair ∧ pair.2 = true := by
  rw [List.any_eq_true]
  simp only [List.mem_iff_getElem?, List.getElem?_take]
  constructor
  · rintro ⟨pair, ⟨j, hpair⟩, htrips⟩
    split at hpair
    · rename_i hj
      exact ⟨j, hj, pair, hpair, htrips⟩
    · cases hpair
  · rintro ⟨j, hj, pair, hpair, htrips⟩
    exact ⟨pair, ⟨j, by rw [if_pos hj, hpair]⟩, htrips⟩

theorem forall₂_fills_latch {registry : Registry} {slots : List Slot}
    {pairs : List (Entry × Bool)}
    (h : List.Forall₂ (fun slot pair => pair.1.Fills registry slot) slots pairs)
    (available : Bool) :
    List.Forall₂ (fun slot entry => entry.Fills registry slot) slots (latch available pairs) := by
  induction h generalizing available with
  | nil => exact .nil
  | cons hfills _ ih =>
    rw [latch_cons]
    refine .cons ?_ (ih _)
    cases available with
    | true => exact hfills.numbered
    | false => exact hfills

/-! ## The entries of the phases -/

theorem forall₂_fills_components (registry : Registry) (ids : List ComponentId) :
    List.Forall₂ (fun slot pair => pair.1.Fills registry slot)
      ((ids.filter fun id => id ∈ registry.ids).map Slot.component)
      ((ids.filterMap registry.find?).map fun component =>
        (Entry.ofComponent component, component.providesLogicalCpuId)) := by
  induction ids with
  | nil => exact .nil
  | cons id others ih =>
    cases hfound : registry.find? id with
    -- An id that the registry does not know has neither a place nor an entry.
    | none =>
      have hunknown : id ∉ registry.ids := by
        rw [Registry.mem_ids_iff]
        rintro ⟨component, hmem, hid⟩
        exact Registry.find?_eq_none_iff.mp hfound component hmem hid
      rw [List.filter_cons_of_neg (by simpa using hunknown), List.filterMap_cons_none hfound]
      exact ih
    | some component =>
      obtain ⟨hmem, hid⟩ := Registry.find?_eq_some_iff.mp hfound
      have hknown : id ∈ registry.ids := Registry.mem_ids_iff.mpr ⟨component, hmem, hid⟩
      rw [List.filter_cons_of_pos (by simpa using hknown), List.filterMap_cons_some hfound]
      exact .cons ⟨component, hmem, hid, Entry.standsFor_ofComponent component⟩ ih

theorem forall₂_fills_phaseEntries (registry : Registry) (order : PhaseOrder) :
    List.Forall₂ (fun slot pair => pair.1.Fills registry slot) (order.slots registry)
      (phaseEntries registry order) :=
  .cons (Entry.isMarkerOf_ofPhase order.phase) (forall₂_fills_components registry order.components)

/-- The entries of a plan before the pass, each with whether processors are numbered once it
completes. -/
def Plan.unlatched (plan : Plan) (registry : Registry) : List (Entry × Bool) :=
  plan.phases.flatMap (phaseEntries registry)

theorem flatten_eq_latch (plan : Plan) (registry : Registry) :
    flatten plan registry = latch false (plan.unlatched registry) :=
  rfl

theorem forall₂_fills_unlatched (plan : Plan) (registry : Registry) :
    List.Forall₂ (fun slot pair => pair.1.Fills registry slot) (plan.slots registry)
      (plan.unlatched registry) := by
  unfold Plan.slots Plan.unlatched
  induction plan.phases with
  | nil => exact .nil
  | cons order others ih => exact List.rel_append (forall₂_fills_phaseEntries registry order) ih

/-- Before the pass, an entry is that of a marker, which numbers nothing, or of a component. -/
theorem Plan.eq_of_mem_unlatched {plan : Plan} {registry : Registry} {pair : Entry × Bool}
    (h : pair ∈ plan.unlatched registry) :
    (∃ phase, pair = (Entry.ofPhase phase, false)) ∨
      ∃ component ∈ registry.components,
        pair = (Entry.ofComponent component, component.providesLogicalCpuId) := by
  obtain ⟨order, -, hpair⟩ := List.mem_flatMap.mp h
  rcases List.mem_cons.mp hpair with heq | hmem
  · exact .inl ⟨order.phase, heq⟩
  · obtain ⟨component, hfound, heq⟩ := List.mem_map.mp hmem
    obtain ⟨id, -, hid⟩ := List.mem_filterMap.mp hfound
    exact .inr ⟨component, (Registry.find?_eq_some_iff.mp hid).1, heq.symm⟩

/-! ## Numbering -/

section

variable {plan : Plan} {registry : Registry}

theorem contains_apIdAvailable_of_mem_unlatched {pair : Entry × Bool}
    (h : pair ∈ plan.unlatched registry) : pair.1.flags.contains .apIdAvailable = false := by
  rcases Plan.eq_of_mem_unlatched h with ⟨phase, rfl⟩ | ⟨component, -, rfl⟩
  · show EntryFlags.phaseMarker.contains .apIdAvailable = false
    decide
  · show (Entry.ofComponent component).flags.contains .apIdAvailable = false
    unfold Entry.ofComponent
    rw [EntryFlags.contains_set_of_disjoint rfl, EntryFlags.contains_set_of_disjoint rfl]
    decide

theorem exists_unlatched_of_getElem?_flatten {k : Nat} {entry : Entry}
    (h : (flatten plan registry)[k]? = some entry) :
    ∃ pair, (plan.unlatched registry)[k]? = some pair ∧
      entry = if ((plan.unlatched registry).take k).any Prod.snd then pair.1.numbered
        else pair.1 := by
  rw [flatten_eq_latch, getElem?_latch] at h
  obtain ⟨pair, hpair, hentry⟩ := Option.map_eq_some_iff.mp h
  exact ⟨pair, hpair, hentry.symm⟩

theorem contains_apIdAvailable_iff {k : Nat} {entry : Entry}
    (h : (flatten plan registry)[k]? = some entry) :
    entry.flags.contains .apIdAvailable = true ↔
      ((plan.unlatched registry).take k).any Prod.snd = true := by
  obtain ⟨pair, hpair, hentry⟩ := exists_unlatched_of_getElem?_flatten h
  by_cases hany : ((plan.unlatched registry).take k).any Prod.snd = true
  · have hflag : pair.1.numbered.flags.contains .apIdAvailable = true :=
      EntryFlags.contains_union_self pair.1.flags .apIdAvailable
    rw [hentry, if_pos hany]
    exact iff_of_true hflag hany
  · have hflag := contains_apIdAvailable_of_mem_unlatched (List.mem_of_getElem? hpair)
    rw [hentry, if_neg hany, hflag]
    exact iff_of_false Bool.false_ne_true hany

theorem exists_numbering_iff {j : Nat} :
    (∃ pair, (plan.unlatched registry)[j]? = some pair ∧ pair.2 = true) ↔
      ∃ entry : Entry, (flatten plan registry)[j]? = some entry ∧
        ∃ component ∈ registry.components, entry.StandsFor component ∧
          Capability.logicalCpuId ∈ component.provides := by
  constructor
  · rintro ⟨pair, hpair, htrips⟩
    obtain ⟨entry, hentry⟩ : ∃ entry, (flatten plan registry)[j]? = some entry := by
      rw [flatten_eq_latch, getElem?_latch, hpair]
      exact ⟨_, rfl⟩
    obtain ⟨pair', hpair', rfl⟩ := exists_unlatched_of_getElem?_flatten hentry
    obtain rfl : pair = pair' := Option.some.inj (hpair.symm.trans hpair')
    refine ⟨_, hentry, ?_⟩
    rcases Plan.eq_of_mem_unlatched (List.mem_of_getElem? hpair) with
      ⟨phase, rfl⟩ | ⟨component, hmem, rfl⟩
    -- A marker trips nothing.
    · exact absurd htrips Bool.false_ne_true
    · refine ⟨component, hmem, ?_, of_decide_eq_true htrips⟩
      split
      · exact (Entry.standsFor_ofComponent component).numbered
      · exact Entry.standsFor_ofComponent component
  · rintro ⟨entry, hentry, component, hmem, hstands, hprovides⟩
    obtain ⟨pair, hpair, heq⟩ := exists_unlatched_of_getElem?_flatten hentry
    refine ⟨pair, hpair, ?_⟩
    have hkind : pair.1.kind = entry.kind := by
      rw [heq]
      split <;> rfl
    rw [hstands.kind_eq] at hkind
    rcases Plan.eq_of_mem_unlatched (List.mem_of_getElem? hpair) with
      ⟨phase, rfl⟩ | ⟨other, hother, rfl⟩
    · cases hkind
    -- The pair is that of the component with the same id, which is the same component.
    · have hid : other.id = component.id := by
        injection hkind
      rw [Registry.eq_of_id_eq hother hmem hid]
      exact decide_eq_true hprovides

end

/-- The entries fill the places of the table in order, and an entry says that processors are
numbered exactly if an earlier one is that of a component that numbers them. -/
theorem flatten_fills_slots (plan : Plan) (registry : Registry) :
    List.Forall₂ (fun slot entry => entry.Fills registry slot) (plan.slots registry)
        (flatten plan registry) ∧
      ∀ (k : Nat) (entry : Entry), (flatten plan registry)[k]? = some entry →
        (entry.flags.contains .apIdAvailable = true ↔
          ∃ j < k, ∃ earlier : Entry, (flatten plan registry)[j]? = some earlier ∧
            ∃ component ∈ registry.components, earlier.StandsFor component ∧
              Capability.logicalCpuId ∈ component.provides) := by
  refine ⟨forall₂_fills_latch (forall₂_fills_unlatched plan registry) false,
    fun k entry hentry => ?_⟩
  rw [contains_apIdAvailable_iff hentry, any_take_snd_iff]
  simp only [exists_numbering_iff]

end BootTable
