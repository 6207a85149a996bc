import BootTable.Proofs.Record.Reading
import BootTable.Registry.Load

/-!
# BootTable — which fault of a record is reported

A record can have many faults at once, and three functions look for them one after the other. Here
the faults are described by the table alone: each one as it would be found if it were the only one.

* **`Record.Shows`**: the faults of a table, whatever else is wrong with it.
* **`Record.Shows.unique`**: a table shows at most one fault of each rank.
* **`Record.Decides`**: what a stage of the checks has to answer; **`Record.Decides.bind`** puts
  stages together, and **`Record.Decides.eq_error_iff`** says what all of them report.
* **`componentOf_iff_shows`**: a table makes a component exactly if it shows no fault, and otherwise
  the first one is reported.
-/

namespace BootTable

/-! ## Keys of phases and levels -/

theorem Phase.ofKey?_eq_none_iff {key : String} :
    Phase.ofKey? key = none ↔ ∀ phase : Phase, phase.key ≠ key :=
  find?_eq_none_iff_of_forall_mem Phase.mem_all

theorem Importance.mem_all (importance : Importance) : importance ∈ Importance.all := by
  cases importance <;> simp [Importance.all]

theorem Importance.ofKey?_eq_none_iff {key : String} :
    Importance.ofKey? key = none ↔ ∀ importance : Importance, importance.key ≠ key :=
  find?_eq_none_iff_of_forall_mem Importance.mem_all

/-! ## The faults of a table -/

/-- The place of a fault in the order of the checks. Values that are no tables have no record to be
checked. -/
def Fault.rank : Fault → Nat
  | notATable => 0
  | missingKeys _ => 0
  | unknownKeys _ => 1
  | invalidField _ => 2
  | ambiguousRoutines => 3
  | globalMissingRoutine => 4
  | perCpuMissingRoutine => 5
  | invalidPhase _ => 6
  | invalidImportance _ => 7
  | apNeedsOnGlobal => 8
  | invalidRoutine _ => 9

theorem Fault.rank_lt (fault : Fault) : fault.rank < 10 := by
  cases fault <;> simp [rank]

namespace Record

/-- The references to routines that a table gives, that of the bootstrap processor before that of
application processors. -/
def referencesOf (table : Toml.Table) : List String :=
  ["routine", "bootstrap_routine", "ap_routine"].filterMap table.text?

/-- The table shows the fault, whatever else is wrong with it. -/
inductive Shows (table : Toml.Table) : Fault → Prop
  /-- All of them are named, in the order of the schema. -/
  | missingKeys (h : requiredKeys.filter (· ∉ table.keys) ≠ []) :
    Shows table (.missingKeys (requiredKeys.filter (· ∉ table.keys)))
  /-- All of them are named, in document order. -/
  | unknownKeys (h : table.keys.filter (· ∉ Field.keys) ≠ []) :
    Shows table (.unknownKeys (table.keys.filter (· ∉ Field.keys)))
  | invalidField {found : Toml.Value} {expected : String} (h : FirstMisfit table found expected) :
    Shows table (.invalidField ("invalid type: " ++ found.shown ++ ", expected " ++ expected))
  | ambiguousRoutines (hroutine : "routine" ∈ table.keys)
    (hspecific : "bootstrap_routine" ∈ table.keys ∨ "ap_routine" ∈ table.keys) :
    Shows table .ambiguousRoutines
  | globalMissingRoutine (hglobal : table.flag? "per_cpu" = some false)
    (hroutine : "routine" ∉ table.keys) : Shows table .globalMissingRoutine
  | perCpuMissingRoutine (hperCpu : table.flag? "per_cpu" = some true)
    (hroutine : "routine" ∉ table.keys)
    (hspecific : ¬("bootstrap_routine" ∈ table.keys ∧ "ap_routine" ∈ table.keys)) :
    Shows table .perCpuMissingRoutine
  | invalidPhase {key : String} (hkey : table.text? "phase" = some key)
    (hunknown : ∀ phase : Phase, phase.key ≠ key) : Shows table (.invalidPhase key)
  | invalidImportance {key : String} (hkey : table.text? "logging_importance" = some key)
    (hunknown : ∀ importance : Importance, importance.key ≠ key) :
    Shows table (.invalidImportance key)
  /-- The list may be empty: that there is one is the fault. -/
  | apNeedsOnGlobal (hglobal : table.flag? "per_cpu" = some false)
    (hlisted : "ap_depends_on_capabilities" ∈ table.keys) : Shows table .apNeedsOnGlobal
  | invalidRoutine {reference : String}
    (h : IsFirst (fun reference => ¬Routine.IsReference reference) (referencesOf table) reference) :
    Shows table (.invalidRoutine reference)

variable {table : Toml.Table}

theorem FirstMisfit.unique {found found' : Toml.Value} {expected expected' : String}
    (h : FirstMisfit table found expected) (h' : FirstMisfit table found' expected') :
    found = found' ∧ expected = expected' := by
  obtain ⟨entry, hfirst, field, hfield, hmisfit⟩ := h
  obtain ⟨entry', hfirst', field', hfield', hmisfit'⟩ := h'
  cases hfirst.unique hfirst'
  cases Field.key_injective (hfield.trans hfield'.symm)
  exact hmisfit.unique hmisfit'

/-- The table shows at most one fault of each rank. -/
theorem Shows.unique {fault other : Fault} (h : Shows table fault) (hother : Shows table other)
    (hrank : fault.rank = other.rank) : fault = other := by
  cases h with
  | invalidField h =>
    cases hother with
    | invalidField hother =>
      obtain ⟨rfl, rfl⟩ := h.unique hother
      rfl
    | _ => cases hrank
  | invalidPhase hkey =>
    cases hother with
    | invalidPhase hother => rw [Option.some.inj (hkey.symm.trans hother)]
    | _ => cases hrank
  | invalidImportance hkey =>
    cases hother with
    | invalidImportance hother => rw [Option.some.inj (hkey.symm.trans hother)]
    | _ => cases hrank
  | invalidRoutine h =>
    cases hother with
    | invalidRoutine hother => rw [h.unique hother]
    | _ => cases hrank
  -- The other faults say nothing but what the table has, so their rank determines them.
  | _ => cases hother <;> first | rfl | cases hrank

/-! ## Stages of the checks -/

/-- The table shows no fault of a rank below the given one. -/
def Clear (table : Toml.Table) (rank : Nat) : Prop :=
  ∀ fault, Shows table fault → rank ≤ fault.rank

theorem clear_zero : Clear table 0 :=
  fun _ _ => Nat.zero_le _

theorem Clear.succ {rank : Nat} (h : Clear table rank)
    (hnone : ∀ fault, fault.rank = rank → ¬Shows table fault) : Clear table (rank + 1) := by
  intro fault hshows
  refine Nat.lt_of_le_of_ne (h fault hshows) fun hrank => ?_
  exact hnone fault hrank.symm hshows

/-- What the checks below the given rank answer: the first fault that the table shows, and nothing
else. -/
structure Decides {α : Type} (table : Toml.Table) (rank : Nat) (outcome : Except Fault α) :
    Prop where
  error : ∀ fault, outcome = .error fault → Shows table fault ∧ Clear table fault.rank
  ok : ∀ a, outcome = .ok a → Clear table rank

section

variable {α β : Type} {rank : Nat}

theorem Decides.of_ok {a : α} (h : Clear table rank) : Decides table rank (.ok a) where
  error := nofun
  ok _ _ := h

theorem Decides.of_error {fault : Fault} (hshows : Shows table fault)
    (h : Clear table fault.rank) : Decides table rank (.error fault : Except Fault α) where
  error := by
    rintro _ ⟨⟩
    exact ⟨hshows, h⟩
  ok := nofun

theorem Decides.bind {middle : Nat} {first : Except Fault α} {next : α → Except Fault β}
    (hfirst : Decides table middle first)
    (hnext : ∀ a, first = .ok a → Clear table middle → Decides table rank (next a)) :
    Decides table rank (first >>= next) := by
  cases hresult : first with
  | error fault =>
    obtain ⟨hshows, hclear⟩ := hfirst.error fault hresult
    exact .of_error hshows hclear
  | ok a => exact hnext a hresult (hfirst.ok a hresult)

section

variable {outcome : Except Fault α} (h : Decides table 10 outcome)

include h

theorem Decides.not_shows {a : α} (houtcome : outcome = .ok a) (fault : Fault) :
    ¬Shows table fault :=
  fun hshows => Nat.not_le_of_lt fault.rank_lt (h.ok a houtcome fault hshows)

/-- Checks of all ranks pass exactly if there is no fault. -/
theorem Decides.exists_ok_iff : (∃ a, outcome = .ok a) ↔ ∀ fault, ¬Shows table fault := by
  constructor
  · rintro ⟨a, houtcome⟩
    exact h.not_shows houtcome
  · intro hnone
    cases houtcome : outcome with
    | ok a => exact ⟨a, rfl⟩
    | error fault => exact absurd (h.error fault houtcome).1 (hnone fault)

theorem Decides.eq_error_iff {fault : Fault} : outcome = .error fault ↔
    Shows table fault ∧ ∀ other, Shows table other → fault.rank ≤ other.rank := by
  constructor
  · exact h.error fault
  · rintro ⟨hshows, hleast⟩
    cases houtcome : outcome with
    | ok a => exact absurd hshows (h.not_shows houtcome fault)
    | error own =>
      -- What is reported has the rank of what comes first, so it is the same.
      obtain ⟨hown, hownLeast⟩ := h.error own houtcome
      have hrank := Nat.le_antisymm (hownLeast fault hshows) (hleast own hown)
      rw [hown.unique hshows hrank]

end

end

/-! ## Keys and values -/

theorem missingKeys_eq (table : Toml.Table) :
    missingKeys table = requiredKeys.filter (· ∉ table.keys) := by
  simp [missingKeys, Toml.Table.hasKey]

theorem unknownKeys_eq (table : Toml.Table) :
    unknownKeys table = table.keys.filter (· ∉ Field.keys) := by
  rw [← requiredKeys_append_optionalKeys]
  simp [unknownKeys]

theorem clear_of_missingKeys (h : missingKeys table = []) : Clear table 1 := by
  refine clear_zero.succ fun fault hrank hshows => ?_
  cases hshows with
  | missingKeys hne => exact hne ((missingKeys_eq table).symm.trans h)
  | _ => cases hrank

theorem clear_of_unknownKeys (hclear : Clear table 1) (h : unknownKeys table = []) :
    Clear table 2 := by
  refine hclear.succ fun fault hrank hshows => ?_
  cases hshows with
  | unknownKeys hne => exact hne ((unknownKeys_eq table).symm.trans h)
  | _ => cases hrank

theorem clear_of_fits (hclear : Clear table 2) (hfits : ∀ entry ∈ table, ¬IsMisfit entry) :
    Clear table 3 := by
  refine hclear.succ fun fault hrank hshows => ?_
  cases hshows with
  | invalidField hmisfit =>
    obtain ⟨entry, hfirst, -⟩ := hmisfit
    exact hfits entry hfirst.mem hfirst.holds
  | _ => cases hrank

theorem decides_ofTable (table : Toml.Table) : Decides table 3 (ofTable table) where
  error := by
    intro fault hfault
    rcases ofTable_eq_error_iff.mp hfault with
      ⟨hne, rfl⟩ | ⟨hmissing, hne, rfl⟩ | ⟨hmissing, hunknown, own, hown, rfl⟩
    · rw [missingKeys_eq] at hne ⊢
      exact ⟨.missingKeys hne, clear_zero⟩
    · have hclear := clear_of_missingKeys hmissing
      rw [unknownKeys_eq] at hne ⊢
      exact ⟨.unknownKeys hne, hclear⟩
    · have hclear := clear_of_unknownKeys (clear_of_missingKeys hmissing) hunknown
      obtain ⟨found, expected, hmisfit, rfl⟩ := (decode_eq_error_iff hmissing hunknown).mp hown
      exact ⟨.invalidField hmisfit, hclear⟩
  ok := by
    intro record hrecord
    obtain ⟨hmissing, hunknown, hdecode⟩ := ofTable_eq_ok_iff.mp hrecord
    have hfits := (fieldFault?_eq_none_iff.mp (decode_eq_ok_iff.mp hdecode).1).2
    exact clear_of_fits (clear_of_unknownKeys (clear_of_missingKeys hmissing) hunknown) hfits

/-! ## What a record takes over from its table -/

/-- The record has the values of the table at which normalizing looks. -/
structure ReadFrom (table : Toml.Table) (record : Record) : Prop where
  perCpu : table.flag? "per_cpu" = some record.perCpu
  phase : table.text? "phase" = some record.phase
  importance : table.text? "logging_importance" = record.importance
  routine : table.text? "routine" = record.routine
  bootstrapRoutine : table.text? "bootstrap_routine" = record.bootstrapRoutine
  apRoutine : table.text? "ap_routine" = record.apRoutine
  hasRoutine : "routine" ∈ table.keys ↔ record.routine.isSome = true
  hasBootstrapRoutine : "bootstrap_routine" ∈ table.keys ↔ record.bootstrapRoutine.isSome = true
  hasApRoutine : "ap_routine" ∈ table.keys ↔ record.apRoutine.isSome = true
  listsApNeeds : "ap_depends_on_capabilities" ∈ table.keys ↔ record.apNeeds.isSome = true

theorem readFrom_of_ofTable {record : Record} (h : ofTable table = .ok record) :
    ReadFrom table record := by
  obtain ⟨hfault, -, -, hperCpu, hphase, hroutine, hbootstrap, hap, -, -, -, hapNeeds, himportance,
    -⟩ := decode_eq_ok_iff.mp (ofTable_eq_ok_iff.mp h).2.2
  have hfits := (fieldFault?_eq_none_iff.mp hfault).2
  exact {
    perCpu := hperCpu
    phase := hphase
    importance := himportance.symm
    routine := hroutine.symm
    bootstrapRoutine := hbootstrap.symm
    apRoutine := hap.symm
    hasRoutine := by
      rw [hroutine, Option.isSome_iff_exists]
      exact (exists_text?_iff hfits .routine rfl).symm
    hasBootstrapRoutine := by
      rw [hbootstrap, Option.isSome_iff_exists]
      exact (exists_text?_iff hfits .bootstrapRoutine rfl).symm
    hasApRoutine := by
      rw [hap, Option.isSome_iff_exists]
      exact (exists_text?_iff hfits .apRoutine rfl).symm
    listsApNeeds := by
      rw [hapNeeds, Option.isSome_iff_exists]
      exact (exists_texts?_iff hfits .apNeeds rfl).symm }

/-! ## Routine rules -/

theorem clear_of_not_ambiguous (hclear : Clear table 3) (hnot : "routine" ∈ table.keys →
    "bootstrap_routine" ∉ table.keys ∧ "ap_routine" ∉ table.keys) : Clear table 4 := by
  refine hclear.succ fun fault hrank hshows => ?_
  cases hshows with
  | ambiguousRoutines hroutine hspecific =>
    obtain ⟨hbootstrap, hap⟩ := hnot hroutine
    exact hspecific.elim hbootstrap hap
  | _ => cases hrank

theorem clear_of_not_globalMissing (hclear : Clear table 4)
    (hnot : table.flag? "per_cpu" = some false → "routine" ∈ table.keys) : Clear table 5 := by
  refine hclear.succ fun fault hrank hshows => ?_
  cases hshows with
  | globalMissingRoutine hglobal hroutine => exact hroutine (hnot hglobal)
  | _ => cases hrank

theorem clear_of_not_perCpuMissing (hclear : Clear table 5) (hnot : "routine" ∉ table.keys →
    "bootstrap_routine" ∈ table.keys ∧ "ap_routine" ∈ table.keys) : Clear table 6 := by
  refine hclear.succ fun fault hrank hshows => ?_
  cases hshows with
  | perCpuMissingRoutine _ hroutine hspecific => exact hspecific (hnot hroutine)
  | _ => cases hrank

section

variable {record : Record} (hread : ReadFrom table record)

include hread

theorem decides_routineReferences (hclear : Clear table 3) :
    Decides table 6 record.routineReferences where
  error := by
    intro fault hfault
    rw [routineReferences_eq_error_iff, ← hread.hasRoutine, ← hread.hasBootstrapRoutine,
      ← hread.hasApRoutine] at hfault
    rcases hfault with
      ⟨hhas, hspecific, rfl⟩ | ⟨hlacks, hglobal, rfl⟩ | ⟨hlacks, hperCpu, hspecific, rfl⟩
    · exact ⟨.ambiguousRoutines hhas hspecific, hclear⟩
    · have hclear := clear_of_not_ambiguous hclear fun hhas => absurd hhas hlacks
      exact ⟨.globalMissingRoutine (hglobal ▸ hread.perCpu) hlacks, hclear⟩
    · have hclear := clear_of_not_ambiguous hclear fun hhas => absurd hhas hlacks
      have hflag : table.flag? "per_cpu" = some true := hperCpu ▸ hread.perCpu
      have hclear := clear_of_not_globalMissing hclear fun hglobal =>
        nomatch hflag.symm.trans hglobal
      exact ⟨.perCpuMissingRoutine hflag hlacks hspecific, hclear⟩
  ok := by
    rintro ⟨bootstrap, ap⟩ hreferences
    rcases routineReferences_eq_ok_iff.mp hreferences with
      ⟨hshared, hbootstrap, hap, -⟩ | ⟨hnone, hperCpu, hbootstrap, hap⟩
    -- One reference stands alone, or there is none and both specific ones are there.
    · have hhas : "routine" ∈ table.keys := hread.hasRoutine.mpr (by rw [hshared]; rfl)
      have hclear := clear_of_not_ambiguous hclear fun _ => by
        rw [hread.hasBootstrapRoutine, hread.hasApRoutine, hbootstrap, hap]
        exact ⟨nofun, nofun⟩
      have hclear := clear_of_not_globalMissing hclear fun _ => hhas
      exact clear_of_not_perCpuMissing hclear fun hlacks => absurd hhas hlacks
    · have hlacks : "routine" ∉ table.keys := by
        rw [hread.hasRoutine, hnone]
        exact nofun
      have hclear := clear_of_not_ambiguous hclear fun hhas => absurd hhas hlacks
      have hclear := clear_of_not_globalMissing hclear fun hglobal =>
        nomatch (hperCpu ▸ hread.perCpu).symm.trans hglobal
      refine clear_of_not_perCpuMissing hclear fun _ => ?_
      rw [hread.hasBootstrapRoutine, hread.hasApRoutine, hbootstrap, hap]
      exact ⟨rfl, rfl⟩

theorem decides_phaseOf (hclear : Clear table 6) : Decides table 7 record.phaseOf := by
  unfold phaseOf
  cases hphase : Phase.ofKey? record.phase with
  | none =>
    exact .of_error (.invalidPhase hread.phase (Phase.ofKey?_eq_none_iff.mp hphase)) hclear
  | some phase =>
    refine .of_ok (hclear.succ fun fault hrank hshows => ?_)
    cases hshows with
    | invalidPhase hkey hunknown =>
      cases hread.phase.symm.trans hkey
      cases hphase.symm.trans (Phase.ofKey?_eq_none_iff.mpr hunknown)
    | _ => cases hrank

theorem decides_importanceOf (hclear : Clear table 7) : Decides table 8 record.importanceOf := by
  have hvalue := hread.importance
  unfold importanceOf
  cases hnamed : record.importance with
  | none =>
    refine .of_ok (hclear.succ fun fault hrank hshows => ?_)
    cases hshows with
    | invalidImportance hkey => cases hkey.symm.trans (hvalue.trans hnamed)
    | _ => cases hrank
  | some key =>
    rw [hnamed] at hvalue
    simp only
    cases himportance : Importance.ofKey? key with
    | none =>
      exact .of_error (.invalidImportance hvalue (Importance.ofKey?_eq_none_iff.mp himportance))
        hclear
    | some importance =>
      refine .of_ok (hclear.succ fun fault hrank hshows => ?_)
      cases hshows with
      | invalidImportance hkey hunknown =>
        cases hvalue.symm.trans hkey
        cases himportance.symm.trans (Importance.ofKey?_eq_none_iff.mpr hunknown)
      | _ => cases hrank

end

/-! ## References to routines -/

section

variable {record : Record} (hread : ReadFrom table record) {bootstrap ap : String}
  (hreferences : record.routineReferences = .ok (bootstrap, ap))

include hread hreferences

/-- The table gives one reference for both kinds of processor, or one for each. -/
theorem referencesOf_eq : (referencesOf table = [bootstrap] ∧ ap = bootstrap) ∨
    (referencesOf table = [bootstrap, ap] ∧ record.perCpu = true) := by
  unfold referencesOf
  rcases routineReferences_eq_ok_iff.mp hreferences with
    ⟨hshared, hbootstrap, hap, rfl⟩ | ⟨hnone, hperCpu, hbootstrap, hap⟩
  · simp [hread.routine, hread.bootstrapRoutine, hread.apRoutine, hshared, hbootstrap, hap]
  · simp [hread.routine, hread.bootstrapRoutine, hread.apRoutine, hnone, hbootstrap, hap, hperCpu]

theorem decides_executionOf (hclear : Clear table 9) :
    Decides table 10 (record.executionOf bootstrap ap) where
  error := by
    intro fault hfault
    have hreferencesOf := referencesOf_eq hread hreferences
    rcases executionOf_eq_error_iff.mp hfault with hbootstrap | ⟨routine, hbootstrap, hperCpu, hap⟩
    · obtain ⟨hnot, rfl⟩ := routineOf_eq_error_iff.mp hbootstrap
      refine ⟨.invalidRoutine ?_, hclear⟩
      rcases hreferencesOf with ⟨hlist, -⟩ | ⟨hlist, -⟩
      · rw [hlist]
        exact isFirst_cons_iff.mpr (.inl ⟨rfl, hnot⟩)
      · rw [hlist]
        exact isFirst_cons_iff.mpr (.inl ⟨rfl, hnot⟩)
    · have hgrammatical := isReference_of_routineOf hbootstrap
      obtain ⟨hnot, rfl⟩ := routineOf_eq_error_iff.mp hap
      refine ⟨.invalidRoutine ?_, hclear⟩
      -- The second reading can fail only where it reads another reference than the first one.
      rcases hreferencesOf with ⟨-, rfl⟩ | ⟨hlist, -⟩
      · exact absurd hgrammatical hnot
      · rw [hlist]
        exact isFirst_cons_iff.mpr
          (.inr ⟨not_not.mpr hgrammatical, isFirst_cons_iff.mpr (.inl ⟨rfl, hnot⟩)⟩)
  ok := by
    intro execution hexecution
    obtain ⟨routine, hbootstrap, hkind⟩ := executionOf_eq_ok_iff.mp hexecution
    refine hclear.succ fun fault hrank hshows => ?_
    cases hshows with
    | invalidRoutine hfirst =>
      have hmem := hfirst.mem
      rcases referencesOf_eq hread hreferences with ⟨hlist, -⟩ | ⟨hlist, hperCpu⟩
      · rw [hlist, List.mem_singleton] at hmem
        cases hmem
        exact hfirst.holds (isReference_of_routineOf hbootstrap)
      · rw [hlist] at hmem
        rcases hkind with ⟨-, apRoutine, hap, -⟩ | ⟨hglobal, -⟩
        · rcases List.mem_pair.mp hmem with rfl | rfl
          · exact hfirst.holds (isReference_of_routineOf hbootstrap)
          · exact hfirst.holds (isReference_of_routineOf hap)
        · cases hperCpu.symm.trans hglobal
    | _ => cases hrank

end

/-! ## The first fault -/

theorem decides_normalize {record : Record} (hread : ReadFrom table record) (hclear : Clear table 3)
    (id : ComponentId) : Decides table 10 (record.normalize id) := by
  unfold normalize
  refine (decides_routineReferences hread hclear).bind fun references hreferences hclear => ?_
  refine (decides_phaseOf hread hclear).bind fun phase _ hclear => ?_
  refine (decides_importanceOf hread hclear).bind fun importance _ hclear => ?_
  split
  · rename_i hlisted
    obtain ⟨hglobal, hneeds⟩ := Bool.and_eq_true_iff.mp hlisted
    rw [Bool.not_eq_true'] at hglobal
    exact .of_error
      (.apNeedsOnGlobal (hglobal ▸ hread.perCpu) (hread.listsApNeeds.mpr hneeds)) hclear
  · rename_i hsound
    have hclear : Clear table 9 := hclear.succ fun fault hrank hshows => by
      cases hshows with
      | apNeedsOnGlobal hglobal hlisted =>
        rw [hread.listsApNeeds] at hlisted
        rw [hread.perCpu, Option.some.injEq] at hglobal
        exact hsound (by rw [hglobal, hlisted]; rfl)
      | _ => cases hrank
    exact (decides_executionOf hread hreferences hclear).bind fun _ _ => .of_ok

end Record

open Record

theorem decides_componentOf (id : ComponentId) (table : Toml.Table) :
    Decides table 10 (componentOf id table) := by
  have hbind : componentOf id table = ofTable table >>= fun record => record.normalize id := by
    unfold componentOf
    cases ofTable table <;> rfl
  rw [hbind]
  exact (decides_ofTable table).bind fun record hrecord hclear =>
    decides_normalize (readFrom_of_ofTable hrecord) hclear id

/-- A table makes a component exactly if it shows no fault. Of the faults that it shows, the first one
in the order of the checks is reported, whatever the others are. -/
theorem componentOf_iff_shows (id : ComponentId) (table : Toml.Table) :
    ((∃ component, componentOf id table = .ok component) ↔ ∀ fault, ¬Shows table fault) ∧
      ∀ fault, componentOf id table = .error fault ↔
        Shows table fault ∧ ∀ other, Shows table other → fault.rank ≤ other.rank := by
  have hdecides := decides_componentOf id table
  constructor
  · exact hdecides.exists_ok_iff
  · intro fault
    exact hdecides.eq_error_iff

/-- A component that runs once, of a phase that nobody knows, with a list of needs of application
processors and no routine but a faulty one: that its routine is missing comes first. -/
theorem componentOf_iff_shows_late :
    let timer := (((Draft.global "timer" "late").unset "routine").set "bootstrap_routine"
      (.text "init::")).set "ap_depends_on_capabilities" (.array [])
    componentOf ⟨"timer"⟩ timer.table = .error .globalMissingRoutine ∧
      Shows timer.table (.invalidPhase "late") ∧
      ∀ other, Shows timer.table other → Fault.globalMissingRoutine.rank ≤ other.rank := by
  intro timer
  have hreported : componentOf ⟨"timer"⟩ timer.table = .error .globalMissingRoutine := by
    decide
  obtain ⟨-, hleast⟩ := ((componentOf_iff_shows ⟨"timer"⟩ timer.table).2 _).mp hreported
  exact ⟨hreported, .invalidPhase (by decide) (Phase.ofKey?_eq_none_iff.mp (by decide)), hleast⟩

end BootTable
