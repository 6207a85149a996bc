import BootTable.Proofs.Record
import BootTable.Proofs.Record.Kinds
import BootTable.Record.Draft

/-!
# BootTable — reading a table as a record

A record is read in two steps: its keys are compared with the lists of required and optional keys,
and its values are then read field by field, which compares the keys with those of the fields once
more. The second comparison can find nothing: what is left to be at fault are values.

* **`keys_of_decode`**, **`exists_decode`**: which tables are read field by field.
* **`decode_eq_error_iff`**: with the right keys, the first value that does not fit is at fault.
* **`ofTable_iff_decode`**: to compare the keys first changes the fault that is reported and nothing
  else.
-/

namespace BootTable.Record

variable {table : Toml.Table}

/-! ## Reading field by field -/

/-- What is read has the keys of fields alone, and all that are required. -/
theorem keys_of_decode {record : Record} (h : decode table = .ok record) :
    missingKeys table = [] ∧ unknownKeys table = [] := by
  obtain ⟨hfault, hname, hrequired, hperCpu, hphase, -⟩ := decode_eq_ok_iff.mp h
  have hhas {key : String} {α : Type} {read : Toml.Value → Option α} {a : α}
      (hvalue : (table.get? key).bind read = some a) : key ∈ table.keys := by
    obtain ⟨value, hvalue, -⟩ := Option.bind_eq_some_iff.mp hvalue
    exact Toml.Table.mem_keys_iff_exists_get?.mpr ⟨value, hvalue⟩
  rw [missingKeys_eq_nil_iff, unknownKeys_eq_nil_iff]
  refine ⟨fun key hkey => ?_, (fieldFault?_eq_none_iff.mp hfault).1⟩
  simp only [requiredKeys, List.mem_cons, List.not_mem_nil, or_false] at hkey
  rcases hkey with rfl | rfl | rfl | rfl
  · exact hhas hname
  · exact hhas hrequired
  · exact hhas hperCpu
  · exact hhas hphase

section

variable (hmissing : missingKeys table = []) (hunknown : unknownKeys table = [])

include hmissing hunknown

theorem exists_decode (hfits : ∀ entry ∈ table, ¬IsMisfit entry) :
    ∃ record, decode table = .ok record := by
  have hfault := fieldFault?_eq_none_iff.mpr ⟨unknownKeys_eq_nil_iff.mp hunknown, hfits⟩
  have hhas := missingKeys_eq_nil_iff.mp hmissing
  obtain ⟨name, hname⟩ : ∃ name, table.text? "name" = some name :=
    (exists_text?_iff hfits .name rfl).mpr (hhas _ (by decide))
  obtain ⟨required, hrequired⟩ : ∃ required, table.flag? "required" = some required :=
    (exists_flag?_iff hfits .required rfl).mpr (hhas _ (by decide))
  obtain ⟨perCpu, hperCpu⟩ : ∃ perCpu, table.flag? "per_cpu" = some perCpu :=
    (exists_flag?_iff hfits .perCpu rfl).mpr (hhas _ (by decide))
  obtain ⟨phase, hphase⟩ : ∃ phase, table.text? "phase" = some phase :=
    (exists_text?_iff hfits .phase rfl).mpr (hhas _ (by decide))
  unfold decode
  rw [hfault, hname, hrequired, hperCpu, hphase]
  exact ⟨_, rfl⟩

/-- With the right keys, only a value can be at fault. -/
theorem decode_eq_error_iff {fault : Toml.FieldFault} :
    decode table = .error fault ↔ ∃ found expected, FirstMisfit table found expected ∧
      fault = .wrongKind found.shown expected := by
  have hknown := unknownKeys_eq_nil_iff.mp hunknown
  rw [← fieldFault?_eq_some_iff hknown]
  cases hfault : table.fieldFault? fun key => (Field.ofKey? key).map Field.shape with
  | some own =>
    unfold decode
    rw [hfault]
    simp
  | none =>
    obtain ⟨record, hrecord⟩ :=
      exists_decode hmissing hunknown (fieldFault?_eq_none_iff.mp hfault).2
    rw [hrecord]
    simp

end

/-- To compare the keys first and to read field by field then answers the same record as to read
field by field at once, and fails if that does. Where a value is reported, it does not fit into its
field: that a key is missing or unknown is reported before. -/
theorem ofTable_iff_decode (table : Toml.Table) :
    (∀ record, ofTable table = .ok record ↔ decode table = .ok record) ∧
      (∀ detail, ofTable table = .error (.invalidField detail) → ∃ found expected,
        FirstMisfit table found expected ∧ decode table = .error (.wrongKind found.shown expected) ∧
          detail = "invalid type: " ++ found.shown ++ ", expected " ++ expected) ∧
      (missingKeys table = [] → unknownKeys table = [] → ∀ key,
        decode table ≠ .error (.missingField key) ∧ decode table ≠ .error (.unknownField key)) := by
  refine ⟨fun record => ?_, fun detail hdetail => ?_, fun hmissing hunknown key => ?_⟩
  · rw [ofTable_eq_ok_iff]
    refine ⟨fun h => h.2.2, fun h => ?_⟩
    obtain ⟨hmissing, hunknown⟩ := keys_of_decode h
    exact ⟨hmissing, hunknown, h⟩
  · rcases ofTable_eq_error_iff.mp hdetail with
      ⟨-, ⟨⟩⟩ | ⟨-, -, ⟨⟩⟩ | ⟨hmissing, hunknown, own, hown, hsame⟩
    obtain ⟨found, expected, hfirst, rfl⟩ := (decode_eq_error_iff hmissing hunknown).mp hown
    cases hsame
    exact ⟨found, expected, hfirst, hown, rfl⟩
  · constructor
    all_goals
      intro h
      obtain ⟨_, _, -, hsame⟩ := (decode_eq_error_iff hmissing hunknown).mp h
      cases hsame

/-- A flag that is put as a text is reported as what it is, although an optional field follows it
whose value does not fit either. -/
theorem ofTable_iff_decode_quoted :
    let screen := ((Draft.global "screen" "core_devices").set "required" (.text "yes")).set
      "depends_on" (.text "bus")
    ofTable screen.table = .error (.invalidField
        ("invalid type: string " ++ Text.quoted "yes" ++ ", expected a boolean")) ∧
      ∃ found expected, FirstMisfit screen.table found expected ∧
        decode screen.table = .error (.wrongKind found.shown expected) := by
  intro screen
  have hreported : ofTable screen.table = .error (.invalidField
      ("invalid type: string " ++ Text.quoted "yes" ++ ", expected a boolean")) := by
    decide
  obtain ⟨found, expected, hfirst, hdecoded, -⟩ :=
    (ofTable_iff_decode screen.table).2.1 _ hreported
  exact ⟨hreported, found, expected, hfirst, hdecoded⟩

end BootTable.Record
