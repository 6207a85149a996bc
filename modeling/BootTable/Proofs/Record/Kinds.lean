import BootTable.Proofs.FirstOfKind
import BootTable.Proofs.PairList
import BootTable.Record
import BootTable.Proofs.RelatedLists

/-!
# BootTable — the kinds of values that fields take

Kinds of values are described here by what they are, without the reader: which values fit into a
field, and what of the others is at fault.

* **`shapeFault?_eq_none_iff`**, **`shapeFault?_eq_some_iff`**: what is reported of one value.
* **`FirstMisfit`**: what is reported of a table all of whose keys are those of fields.
* **`exists_text?_iff`** and its like: where all values fit, a field has a value if the table has
  its key.
-/

namespace BootTable

/-! ## Kinds of values -/

namespace Toml.Value

/-- A text, or a date or time, which stands for its text. -/
inductive IsText : Value → Prop
  | text (characters : String) : IsText (.text characters)
  | datetime (moment : Datetime) : IsText (.datetime moment)

/-- The value is of the kind that a field of the shape takes. -/
inductive Fits : Shape → Value → Prop
  | text {value : Value} (h : value.IsText) : Fits .text value
  | flag (truth : Bool) : Fits .flag (.boolean truth)
  | texts {items : List Value} (h : ∀ item ∈ items, item.IsText) : Fits .texts (.array items)

/-- A value does not fit into a field of the shape: what of it does not, and what is expected there.
Of an array it is the first item that is no text. -/
inductive Misfit : Shape → Value → Value → String → Prop
  | text {value : Value} (h : ¬value.IsText) : Misfit .text value value "a string"
  | flag {value : Value} (h : ∀ truth, value ≠ .boolean truth) :
    Misfit .flag value value "a boolean"
  | texts {value : Value} (h : ∀ items, value ≠ .array items) :
    Misfit .texts value value "a sequence"
  | item {items : List Value} {item : Value} (h : IsFirst (fun item => ¬item.IsText) items item) :
    Misfit .texts (.array items) item "a string"

variable {value : Value} {shape : Shape} {fault : FieldFault}

theorem isText_iff : value.IsText ↔ ∃ characters, value.asText? = some characters := by
  constructor
  · rintro (characters | moment)
    · exact ⟨characters, rfl⟩
    · exact ⟨moment.text, rfl⟩
  · rintro ⟨characters, h⟩
    cases value with
    | text own => exact .text own
    | datetime moment => exact .datetime moment
    | _ => cases h

theorem textFault?_eq_none_iff : value.textFault? = none ↔ value.IsText := by
  rw [isText_iff, ← Option.isSome_iff_exists]
  unfold textFault?
  by_cases h : value.asText?.isSome = true
  · simp [h]
  · simp [h]

theorem textFault?_eq_some_iff :
    value.textFault? = some fault ↔ ¬value.IsText ∧ fault = .wrongKind value.shown "a string" := by
  rw [isText_iff, ← Option.isSome_iff_exists]
  unfold textFault?
  by_cases h : value.asText?.isSome = true
  · simp [h]
  · simp [h, wrongKind, Shape.expected, eq_comm]

theorem shapeFault?_eq_none_iff : value.shapeFault? shape = none ↔ value.Fits shape := by
  cases shape with
  | text =>
    refine textFault?_eq_none_iff.trans ⟨.text, ?_⟩
    rintro ⟨htext⟩
    exact htext
  | flag =>
    cases value with
    | boolean truth => exact iff_of_true rfl (.flag truth)
    | _ => exact iff_of_false nofun nofun
  | texts =>
    cases value with
    | array items =>
      show items.findSome? textFault? = none ↔ _
      simp only [List.findSome?_eq_none_iff, textFault?_eq_none_iff]
      refine ⟨.texts, ?_⟩
      rintro (_ | _ | htexts)
      exact htexts
    | _ => exact iff_of_false nofun nofun

theorem shapeFault?_eq_some_iff :
    value.shapeFault? shape = some fault ↔ ∃ found expected,
      value.Misfit shape found expected ∧ fault = .wrongKind found.shown expected := by
  cases shape with
  | text =>
    refine textFault?_eq_some_iff.trans ⟨?_, ?_⟩
    · rintro ⟨hnot, rfl⟩
      exact ⟨_, _, .text hnot, rfl⟩
    · rintro ⟨_, _, ⟨hnot⟩, rfl⟩
      exact ⟨hnot, rfl⟩
  | flag =>
    cases value with
    | boolean truth =>
      refine iff_of_false nofun ?_
      rintro ⟨_, _, _ | hnot, -⟩
      exact hnot truth rfl
    | _ =>
      constructor
      · rintro ⟨⟩
        exact ⟨_, _, .flag nofun, rfl⟩
      · rintro ⟨_, _, ⟨⟩, rfl⟩
        rfl
  | texts =>
    cases value with
    | array items =>
      show items.findSome? textFault? = some fault ↔ _
      constructor
      · intro h
        obtain ⟨item, hfirst, hfault⟩ := exists_isFirst_of_findSome?
          (fun item _ => textFault?_eq_none_iff.trans not_not.symm) h
        exact ⟨item, _, .item hfirst, (textFault?_eq_some_iff.mp hfault).2⟩
      · rintro ⟨found, expected, _ | _ | hnot | hfirst, rfl⟩
        · exact absurd rfl (hnot items)
        · have hsound (item : Value) (_ : item ∈ items) (h : ¬¬item.IsText) :
              item.textFault? = none :=
            textFault?_eq_none_iff.mpr (not_not.mp h)
          exact findSome?_of_isFirst hsound hfirst
            (textFault?_eq_some_iff.mpr ⟨hfirst.holds, rfl⟩)
    | _ =>
      constructor
      · rintro ⟨⟩
        exact ⟨_, _, .texts nofun, rfl⟩
      · rintro ⟨_, _, ⟨⟩, rfl⟩
        rfl

/-- There is one way in which a value does not fit. -/
theorem Misfit.unique {found found' : Value} {expected expected' : String}
    (h : value.Misfit shape found expected) (h' : value.Misfit shape found' expected') :
    found = found' ∧ expected = expected' := by
  cases h with
  | text | flag =>
    cases h'
    exact ⟨rfl, rfl⟩
  | texts hnot =>
    cases h' with
    | texts => exact ⟨rfl, rfl⟩
    | item => exact absurd rfl (hnot _)
  | item hfirst =>
    cases h' with
    | texts hnot => exact absurd rfl (hnot _)
    | item hfirst' => exact ⟨hfirst.unique hfirst', rfl⟩

end Toml.Value

/-! ## Keys -/

namespace Field

theorem mem_all (field : Field) : field ∈ all := by
  cases field <;> decide

theorem ofKey?_eq_some_iff {key : String} {field : Field} :
    ofKey? key = some field ↔ field.key = key := by
  constructor
  · intro h
    have hfound := List.find?_some h
    exact of_decide_eq_true hfound
  · rintro rfl
    exact ofKey?_key field

theorem key_injective {a b : Field} (h : a.key = b.key) : a = b := by
  have hsame := ofKey?_key a
  rw [h, ofKey?_key b] at hsame
  exact (Option.some.inj hsame).symm

theorem mem_keys_iff {key : String} : key ∈ keys ↔ ∃ field : Field, field.key = key := by
  unfold keys
  rw [List.mem_map]
  exact exists_congr fun field => and_iff_right (mem_all field)

theorem ofKey?_eq_none_iff {key : String} : ofKey? key = none ↔ key ∉ keys := by
  rw [mem_keys_iff, not_exists]
  exact find?_eq_none_iff_of_forall_mem mem_all

end Field

namespace Toml.Table

variable {table : Table} {key : String}

theorem mem_of_get? {value : Value} (h : table.get? key = some value) : (key, value) ∈ table := by
  obtain ⟨before, after, rfl, -⟩ := List.lookup_eq_some_iff.mp h
  exact List.mem_append_right _ List.mem_cons_self

theorem mem_keys_iff_exists_get? : key ∈ table.keys ↔ ∃ value, table.get? key = some value := by
  constructor
  · intro h
    obtain ⟨entry, hentry, rfl⟩ := List.mem_map.mp h
    rw [← Option.isSome_iff_exists]
    exact List.lookup_isSome_iff.mpr ⟨entry, hentry, beq_self_eq_true _⟩
  · rintro ⟨value, h⟩
    exact List.mem_map.mpr ⟨_, mem_of_get? h, rfl⟩

end Toml.Table

namespace Record

/-- The entry has the key of a field and a value of another kind than the field takes. -/
def IsMisfit (entry : String × Toml.Value) : Prop :=
  ∃ field : Field, field.key = entry.1 ∧ ¬entry.2.Fits field.shape

theorem isMisfit_iff {entry : String × Toml.Value} {field : Field} (hfield : field.key = entry.1) :
    IsMisfit entry ↔ ¬entry.2.Fits field.shape := by
  constructor
  · rintro ⟨other, hother, hnot⟩
    rw [Field.key_injective (hfield.trans hother.symm)]
    exact hnot
  · intro hnot
    exact ⟨field, hfield, hnot⟩

variable {table : Toml.Table}

theorem missingKeys_eq_nil_iff :
    missingKeys table = [] ↔ ∀ key ∈ requiredKeys, key ∈ table.keys := by
  simp [missingKeys, Toml.Table.hasKey, List.filter_eq_nil_iff]

theorem unknownKeys_eq_nil_iff :
    unknownKeys table = [] ↔ ∀ key ∈ table.keys, key ∈ Field.keys := by
  rw [← requiredKeys_append_optionalKeys]
  simp [unknownKeys, List.filter_eq_nil_iff, or_iff_not_imp_left]

/-! ## Faults of values -/

/-- What is reported of one entry. -/
def entryFault? (entry : String × Toml.Value) : Option Toml.FieldFault :=
  match (Field.ofKey? entry.1).map Field.shape with
  | none => some (.unknownField entry.1)
  | some shape => entry.2.shapeFault? shape

theorem fieldFault?_eq_findSome? (table : Toml.Table) :
    (table.fieldFault? fun key => (Field.ofKey? key).map Field.shape) =
      table.findSome? entryFault? :=
  rfl

theorem entryFault?_of_key {entry : String × Toml.Value} {field : Field}
    (hfield : field.key = entry.1) : entryFault? entry = entry.2.shapeFault? field.shape := by
  unfold entryFault?
  rw [Field.ofKey?_eq_some_iff.mpr hfield]
  rfl

theorem entryFault?_eq_none_iff {entry : String × Toml.Value} :
    entryFault? entry = none ↔ entry.1 ∈ Field.keys ∧ ¬IsMisfit entry := by
  by_cases hknown : entry.1 ∈ Field.keys
  · obtain ⟨field, hfield⟩ := Field.mem_keys_iff.mp hknown
    rw [entryFault?_of_key hfield, Toml.Value.shapeFault?_eq_none_iff, isMisfit_iff hfield, not_not]
    exact (and_iff_right hknown).symm
  · unfold entryFault?
    rw [Field.ofKey?_eq_none_iff.mpr hknown]
    exact iff_of_false nofun fun h => hknown h.1

/-- The first value, in document order, that does not fit into its field: what of it does not, and
what is expected there. -/
def FirstMisfit (table : Toml.Table) (found : Toml.Value) (expected : String) : Prop :=
  ∃ entry, IsFirst IsMisfit table entry ∧
    ∃ field : Field, field.key = entry.1 ∧ entry.2.Misfit field.shape found expected

theorem fieldFault?_eq_none_iff :
    (table.fieldFault? fun key => (Field.ofKey? key).map Field.shape) = none ↔
      (∀ key ∈ table.keys, key ∈ Field.keys) ∧ ∀ entry ∈ table, ¬IsMisfit entry := by
  rw [fieldFault?_eq_findSome?, List.findSome?_eq_none_iff, Toml.Table.keys, List.forall_mem_map,
    ← forall₂_and]
  exact forall₂_congr fun entry _ => entryFault?_eq_none_iff

section

variable (hknown : ∀ key ∈ table.keys, key ∈ Field.keys)

include hknown

theorem entryFault?_eq_none_iff_of_mem {entry : String × Toml.Value} (hmem : entry ∈ table) :
    entryFault? entry = none ↔ ¬IsMisfit entry := by
  rw [entryFault?_eq_none_iff]
  exact and_iff_right (hknown entry.1 (List.mem_map_of_mem hmem))

theorem fieldFault?_eq_some_iff {fault : Toml.FieldFault} :
    (table.fieldFault? fun key => (Field.ofKey? key).map Field.shape) = some fault ↔
      ∃ found expected, FirstMisfit table found expected ∧
        fault = .wrongKind found.shown expected := by
  rw [fieldFault?_eq_findSome?]
  constructor
  · intro h
    obtain ⟨entry, hfirst, hfault⟩ := exists_isFirst_of_findSome?
      (fun entry hmem => entryFault?_eq_none_iff_of_mem hknown hmem) h
    obtain ⟨field, hfield, -⟩ := hfirst.holds
    rw [entryFault?_of_key hfield] at hfault
    obtain ⟨found, expected, hmisfit, rfl⟩ := Toml.Value.shapeFault?_eq_some_iff.mp hfault
    exact ⟨found, expected, ⟨entry, hfirst, field, hfield, hmisfit⟩, rfl⟩
  · rintro ⟨found, expected, ⟨entry, hfirst, field, hfield, hmisfit⟩, rfl⟩
    refine findSome?_of_isFirst
      (fun other hmem => (entryFault?_eq_none_iff_of_mem hknown hmem).mpr) hfirst ?_
    rw [entryFault?_of_key hfield]
    exact Toml.Value.shapeFault?_eq_some_iff.mpr ⟨found, expected, hmisfit, rfl⟩

end

end Record

/-! ## Values of fields -/

theorem Toml.Value.Fits.exists_text {value : Toml.Value} (h : value.Fits .text) :
    ∃ characters, value.asText? = some characters := by
  obtain ⟨htext⟩ := h
  exact Toml.Value.isText_iff.mp htext

theorem Toml.Value.Fits.exists_flag {value : Toml.Value} (h : value.Fits .flag) :
    ∃ truth, value.asFlag? = some truth := by
  obtain _ | truth := h
  exact ⟨truth, rfl⟩

theorem Toml.Value.Fits.exists_texts {value : Toml.Value} (h : value.Fits .texts) :
    ∃ texts, value.asTexts? = some texts := by
  obtain _ | _ | htexts := h
  exact exists_mapM_iff.mpr fun item hitem => Toml.Value.isText_iff.mp (htexts item hitem)

namespace Record

section

variable {table : Toml.Table} (hfits : ∀ entry ∈ table, ¬IsMisfit entry)

include hfits

theorem exists_bind_get?_iff {α : Type} {read : Toml.Value → Option α} {field : Field}
    (hread : ∀ value : Toml.Value, value.Fits field.shape → ∃ a, read value = some a) :
    (∃ a, (table.get? field.key).bind read = some a) ↔ field.key ∈ table.keys := by
  rw [Toml.Table.mem_keys_iff_exists_get?]
  constructor
  · rintro ⟨a, h⟩
    obtain ⟨value, hvalue, -⟩ := Option.bind_eq_some_iff.mp h
    exact ⟨value, hvalue⟩
  · rintro ⟨value, hvalue⟩
    have hfit := hfits _ (Toml.Table.mem_of_get? hvalue)
    rw [isMisfit_iff rfl, not_not] at hfit
    obtain ⟨a, ha⟩ := hread value hfit
    exact ⟨a, Option.bind_eq_some_iff.mpr ⟨value, hvalue, ha⟩⟩

theorem exists_text?_iff (field : Field) (hshape : field.shape = .text) :
    (∃ text, table.text? field.key = some text) ↔ field.key ∈ table.keys :=
  exists_bind_get?_iff hfits fun _ hfit => (hshape ▸ hfit).exists_text

theorem exists_flag?_iff (field : Field) (hshape : field.shape = .flag) :
    (∃ truth, table.flag? field.key = some truth) ↔ field.key ∈ table.keys :=
  exists_bind_get?_iff hfits fun _ hfit => (hshape ▸ hfit).exists_flag

theorem exists_texts?_iff (field : Field) (hshape : field.shape = .texts) :
    (∃ texts, table.texts? field.key = some texts) ↔ field.key ∈ table.keys :=
  exists_bind_get?_iff hfits fun _ hfit => (hshape ▸ hfit).exists_texts

end

end Record

end BootTable
