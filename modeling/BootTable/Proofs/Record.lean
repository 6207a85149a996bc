import BootTable.Log
import BootTable.Proofs.Routine
import BootTable.Record

/-!
# BootTable — what reading and normalizing a record answer

Both take several steps, each of which may fail. Here each way is put as one statement about the
record or the component that it answers, and the lists of a component are described by their
members.

* **`decode_eq_ok_iff`**: the fields of a record, by the values of its table.
* **`ofTable_eq_error_iff`**: the three ways in which a table is no record.
* **`routineReferences_eq_ok_iff`**, **`routineReferences_eq_error_iff`**: the rules of routines.
* **`normalize_eq_ok_iff`**: the steps of normalizing one after the other.
* **`mem_apNeeds_of_normalize`**: what application processors need is what the record lists for
  them; a record of a component that runs once lists nothing.
-/

namespace BootTable

theorem mem_ofList_map_mk_iff {names : List String} {capability : Capability} :
    capability ∈ DistinctList.ofList (names.map Capability.mk) ↔ capability.name ∈ names := by
  rw [DistinctList.mem_ofList, List.mem_map]
  constructor
  · rintro ⟨name, hname, rfl⟩
    exact hname
  · intro hname
    exact ⟨capability.name, hname, rfl⟩

namespace Record

variable {record : Record} {id : ComponentId} {component : Component}

/-! ## Reading -/

theorem demand_eq_ok_iff {α : Type} {key : String} {a? : Option α} {a : α} :
    Toml.Table.demand key a? = .ok a ↔ a? = some a := by
  cases a? with
  | none => simp [Toml.Table.demand]
  | some b => simp [Toml.Table.demand]

theorem decode_eq_ok_iff {table : Toml.Table} :
    decode table = .ok record ↔
      (table.fieldFault? fun key => (Field.ofKey? key).map Field.shape) = none ∧
      table.text? "name" = some record.name ∧ table.flag? "required" = some record.required ∧
      table.flag? "per_cpu" = some record.perCpu ∧ table.text? "phase" = some record.phase ∧
      record.routine = table.text? "routine" ∧
      record.bootstrapRoutine = table.text? "bootstrap_routine" ∧
      record.apRoutine = table.text? "ap_routine" ∧
      record.provides = (table.texts? "provides_capabilities").getD [] ∧
      record.dependsOn = (table.texts? "depends_on").getD [] ∧
      record.needs = (table.texts? "depends_on_capabilities").getD [] ∧
      record.apNeeds = table.texts? "ap_depends_on_capabilities" ∧
      record.importance = table.text? "logging_importance" ∧
      record.disabled = (table.flag? "disabled").getD false := by
  unfold decode
  cases table.fieldFault? fun key => (Field.ofKey? key).map Field.shape with
  | some fault => simp
  | none =>
    simp only [bind_eq_ok_iff, demand_eq_ok_iff, true_and]
    constructor
    · rintro ⟨name, hname, required, hrequired, perCpu, hperCpu, phase, hphase, hrecord⟩
      cases hrecord
      exact ⟨hname, hrequired, hperCpu, hphase, rfl, rfl, rfl, rfl, rfl, rfl, rfl, rfl, rfl⟩
    · rintro ⟨hname, hrequired, hperCpu, hphase, hrest⟩
      refine ⟨_, hname, _, hrequired, _, hperCpu, _, hphase, ?_⟩
      obtain ⟨hroutine, hbootstrap, hap, hprovides, hdependsOn, hneeds, hapNeeds, himportance,
        hdisabled⟩ := hrest
      rw [← hroutine, ← hbootstrap, ← hap, ← hprovides, ← hdependsOn, ← hneeds, ← hapNeeds,
        ← himportance, ← hdisabled]
      rfl

theorem ofTable_eq_ok_iff {table : Toml.Table} :
    ofTable table = .ok record ↔
      missingKeys table = [] ∧ unknownKeys table = [] ∧ decode table = .ok record := by
  unfold ofTable
  by_cases hmissing : missingKeys table = []
  · by_cases hunknown : unknownKeys table = []
    · simp [hmissing, hunknown, mapError_eq_ok_iff]
    · simp [hmissing, hunknown]
  · simp [hmissing]

theorem ofTable_eq_error_iff {table : Toml.Table} {fault : Fault} :
    ofTable table = .error fault ↔
      (missingKeys table ≠ [] ∧ .missingKeys (missingKeys table) = fault) ∨
      (missingKeys table = [] ∧ unknownKeys table ≠ [] ∧
        .unknownKeys (unknownKeys table) = fault) ∨
      (missingKeys table = [] ∧ unknownKeys table = [] ∧
        ∃ own, decode table = .error own ∧ .invalidField (own.message Field.keys) = fault) := by
  unfold ofTable
  by_cases hmissing : missingKeys table = []
  · by_cases hunknown : unknownKeys table = []
    · simp [hmissing, hunknown, mapError_eq_error_iff]
    · simp [hmissing, hunknown]
  · simp [hmissing]

/-! ## Normalizing -/

theorem routineReferences_eq_ok_iff {bootstrap ap : String} :
    record.routineReferences = .ok (bootstrap, ap) ↔
      (record.routine = some bootstrap ∧ record.bootstrapRoutine = none ∧ record.apRoutine = none ∧
        ap = bootstrap) ∨
      (record.routine = none ∧ record.perCpu = true ∧ record.bootstrapRoutine = some bootstrap ∧
        record.apRoutine = some ap) := by
  unfold routineReferences
  cases record.routine with
  | some routine =>
    cases record.bootstrapRoutine with
    | some specific => simp
    | none =>
      cases record.apRoutine with
      | some specific => simp
      | none =>
        simp only [Option.isSome_none, Bool.or_self, Bool.false_eq_true, if_false, Except.ok.injEq,
          Prod.mk.injEq, Option.some.injEq, true_and, reduceCtorEq, false_and, or_false]
        exact and_congr_right fun hroutine => by rw [hroutine, eq_comm]
  | none =>
    cases record.perCpu <;> cases record.bootstrapRoutine <;> cases record.apRoutine <;> simp

theorem routineReferences_eq_error_iff {fault : Fault} :
    record.routineReferences = .error fault ↔
      (record.routine.isSome = true ∧
        (record.bootstrapRoutine.isSome = true ∨ record.apRoutine.isSome = true) ∧
        .ambiguousRoutines = fault) ∨
      (¬record.routine.isSome = true ∧ record.perCpu = false ∧ .globalMissingRoutine = fault) ∨
      (¬record.routine.isSome = true ∧ record.perCpu = true ∧
        ¬(record.bootstrapRoutine.isSome = true ∧ record.apRoutine.isSome = true) ∧
        .perCpuMissingRoutine = fault) := by
  unfold routineReferences
  cases record.routine with
  | some routine => cases record.bootstrapRoutine <;> cases record.apRoutine <;> simp
  | none =>
    cases record.perCpu <;> cases record.bootstrapRoutine <;> cases record.apRoutine <;> simp

theorem normalize_eq_ok_iff :
    record.normalize id = .ok component ↔
      ∃ bootstrap ap phase importance execution,
        record.routineReferences = .ok (bootstrap, ap) ∧ record.phaseOf = .ok phase ∧
        record.importanceOf = .ok importance ∧
        (record.perCpu = false → record.apNeeds = none) ∧
        record.executionOf bootstrap ap = .ok execution ∧
        component = {
          id, phase, importance, execution
          displayName := record.name
          required := record.required
          provides := .ofList (record.provides.map Capability.mk)
          dependsOn := .ofList (record.dependsOn.map ComponentId.mk)
          needs := .ofList (record.needs.map Capability.mk) } := by
  unfold normalize
  simp only [bind_eq_ok_iff]
  constructor
  · rintro ⟨⟨bootstrap, ap⟩, hroutines, phase, hphase, importance, himportance, hrest⟩
    split at hrest
    · cases hrest
    · rename_i hlisted
      obtain ⟨execution, hexecution, hcomponent⟩ := bind_eq_ok_iff.mp hrest
      cases hcomponent
      exact ⟨bootstrap, ap, phase, importance, execution, hroutines, hphase, himportance,
        fun hglobal => by simpa [hglobal] using hlisted, hexecution, rfl⟩
  · rintro ⟨bootstrap, ap, phase, importance, execution, hroutines, hphase, himportance, hlisted,
      hexecution, rfl⟩
    refine ⟨(bootstrap, ap), hroutines, phase, hphase, importance, himportance, ?_⟩
    have hsound : ¬(!record.perCpu && record.apNeeds.isSome) = true := by
      cases hkind : record.perCpu with
      | true => simp
      | false => simp [hlisted hkind]
    rw [if_neg hsound]
    exact bind_eq_ok_iff.mpr ⟨execution, hexecution, rfl⟩

theorem routineOf_eq_ok_iff {reference : String} {routine : Routine} :
    routineOf reference = .ok routine ↔ Routine.ofText? reference = some routine := by
  unfold routineOf
  cases Routine.ofText? reference with
  | none => simp
  | some own => simp

theorem routineOf_eq_error_iff {reference : String} {fault : Fault} :
    routineOf reference = .error fault ↔
      ¬Routine.IsReference reference ∧ .invalidRoutine reference = fault := by
  rw [← Routine.ofText?_eq_none_iff]
  unfold routineOf
  cases Routine.ofText? reference with
  | none => simp
  | some routine => simp

theorem isReference_of_routineOf {reference : String} {routine : Routine}
    (h : routineOf reference = .ok routine) : Routine.IsReference reference := by
  by_contra hnot
  cases h.symm.trans (routineOf_eq_error_iff.mpr ⟨hnot, rfl⟩)

theorem executionOf_eq_ok_iff {bootstrap ap : String} {execution : Execution} :
    record.executionOf bootstrap ap = .ok execution ↔
      ∃ routine, routineOf bootstrap = .ok routine ∧
        ((record.perCpu = true ∧ ∃ apRoutine, routineOf ap = .ok apRoutine ∧
          execution = .perCpu routine apRoutine
            (.ofList ((record.apNeeds.getD []).map Capability.mk))) ∨
          record.perCpu = false ∧ execution = .global routine) := by
  unfold executionOf
  rw [bind_eq_ok_iff]
  refine exists_congr fun routine => and_congr_right fun _ => ?_
  cases record.perCpu with
  | true =>
    constructor
    · intro h
      obtain ⟨apRoutine, hap, hok⟩ := bind_eq_ok_iff.mp h
      cases hok
      exact .inl ⟨rfl, apRoutine, hap, rfl⟩
    · rintro (⟨-, apRoutine, hap, rfl⟩ | ⟨hglobal, -⟩)
      · exact bind_eq_ok_iff.mpr ⟨apRoutine, hap, rfl⟩
      · cases hglobal
  | false =>
    constructor
    · intro h
      cases h
      exact .inr ⟨rfl, rfl⟩
    · rintro (⟨hperCpu, -⟩ | ⟨-, rfl⟩)
      · cases hperCpu
      · rfl

theorem executionOf_eq_error_iff {bootstrap ap : String} {fault : Fault} :
    record.executionOf bootstrap ap = .error fault ↔
      routineOf bootstrap = .error fault ∨ ∃ routine, routineOf bootstrap = .ok routine ∧
        record.perCpu = true ∧ routineOf ap = .error fault := by
  unfold executionOf
  rw [bind_eq_error_iff]
  refine or_congr Iff.rfl (exists_congr fun routine => and_congr_right fun _ => ?_)
  cases record.perCpu with
  | true =>
    rw [if_pos rfl, bind_eq_error_iff]
    constructor
    · rintro (hap | ⟨_, _, ⟨⟩⟩)
      exact ⟨rfl, hap⟩
    · rintro ⟨-, hap⟩
      exact .inl hap
  | false => exact iff_of_false nofun fun h => nomatch h.1

/-- The capabilities that application processors need are those that the record lists for them. -/
theorem mem_apNeeds_of_normalize (h : record.normalize id = .ok component)
    {capability : Capability} :
    capability ∈ component.apNeeds ↔ capability.name ∈ record.apNeeds.getD [] := by
  obtain ⟨bootstrap, ap, phase, importance, execution, -, -, -, hlisted, hexecution, rfl⟩ :=
    normalize_eq_ok_iff.mp h
  show capability ∈ execution.apNeeds ↔ _
  obtain ⟨routine, -, ⟨-, apRoutine, -, rfl⟩ | ⟨hglobal, rfl⟩⟩ :=
    executionOf_eq_ok_iff.mp hexecution
  · exact mem_ofList_map_mk_iff
  · rw [hlisted hglobal]
    exact iff_of_false List.not_mem_nil List.not_mem_nil

end Record

end BootTable
