import BootTable.Proofs.Entries.PhaseOrder
import BootTable.Proofs.Generate
import BootTable.Proofs.Registry.Representation
import BootTable.Proofs.TableText.Contents

/-!
# BootTable — the routines in a table

A row has two references to routines. Those of a marker are null pointers, those of a component are
the references of its record. The grammar of references knows no reserved words, so a record may
name the null pointer itself; then, and only then, do rows of components have it too.

* **`references_of_normalize`**: a component has the references of its record.
* **`nullOnlyInMarkers_iff`**: the null pointer tells markers from components exactly if no enabled
  record names it.
* **`rows_of_generate`**: what every row of a text refers to, and what is declared above the table.
-/

namespace BootTable

/-! ## Records -/

/-- A reference of the record is the null pointer. -/
def Record.NamesNull (record : Record) : Prop :=
  ∃ bootstrap ap, record.routineReferences = .ok (bootstrap, ap) ∧
    (bootstrap = "nullptr" ∨ ap = "nullptr")

namespace Record

variable {record : Record} {id : ComponentId} {component : Component}

/-- What runs once has one reference. -/
theorem eq_of_routineReferences_global {bootstrap ap : String}
    (h : record.routineReferences = .ok (bootstrap, ap)) (hglobal : record.perCpu = false) :
    bootstrap = ap := by
  rcases routineReferences_eq_ok_iff.mp h with ⟨-, -, -, hsame⟩ | ⟨-, hperCpu, -⟩
  · exact hsame.symm
  · cases hglobal.symm.trans hperCpu

theorem references_of_normalize (h : record.normalize id = .ok component) :
    record.routineReferences =
      .ok (component.execution.bootstrap.text, component.execution.ap.text) := by
  have hrepresents := represents_of_normalize h
  obtain ⟨bootstrap, ap, hreferences, hbootstrap, hap⟩ := hrepresents.routines
  rw [hreferences, Routine.ofText?_eq_some_iff.mp hbootstrap]
  cases hperCpu : record.perCpu with
  | true => rw [Routine.ofText?_eq_some_iff.mp (hap hperCpu)]
  | false =>
    rw [← (hrepresents.global hperCpu).2, Routine.ofText?_eq_some_iff.mp hbootstrap,
      eq_of_routineReferences_global hreferences hperCpu]

theorem displayName_of_normalize (h : record.normalize id = .ok component) :
    component.displayName = record.name := by
  obtain ⟨_, _, _, _, _, -, -, -, -, -, rfl⟩ := normalize_eq_ok_iff.mp h
  rfl

end Record

/-! ## Rows -/

theorem EntryFlags.contains_known {flag : EntryFlags} (h : all.bits &&& flag.bits = flag.bits)
    (flags : EntryFlags) : flags.known.contains flag = flags.contains flag := by
  unfold contains known
  rw [BitVec.and_assoc, h]

namespace TableText

/-- The row is that of a marker. -/
structure Row.IsMarker (row : Row) : Prop where
  marker : row.flags.contains .phaseMarker = true
  bootstrap_eq : row.bootstrap = "nullptr"
  ap_eq : row.ap = "nullptr"

/-- The row is that of the component of a record. -/
structure Row.IsOf (row : Row) (record : Record) : Prop where
  marker : row.flags.contains .phaseMarker = false
  name_eq : row.name = record.name
  references : record.routineReferences = .ok (row.bootstrap, row.ap)

theorem isMarker_ofEntry {entry : Entry} {phase : Phase} (h : entry.IsMarkerOf phase) :
    (Row.ofEntry entry).IsMarker := by
  have hnone : references entry = ("nullptr", "nullptr") := by
    unfold references Entry.routines?
    rw [h.kind_eq]
  exact {
    marker := (EntryFlags.contains_known rfl _).trans h.marker
    bootstrap_eq := congrArg Prod.fst hnone
    ap_eq := congrArg Prod.snd hnone }

theorem isOf_ofEntry {entry : Entry} {component : Component} (h : entry.StandsFor component)
    {record : Record} {id : ComponentId} (hnormal : record.normalize id = .ok component) :
    (Row.ofEntry entry).IsOf record := by
  have htexts : references entry =
      (component.execution.bootstrap.text, component.execution.ap.text) := by
    unfold references Entry.routines?
    rw [h.kind_eq]
  exact {
    marker := (EntryFlags.contains_known rfl _).trans h.marker
    name_eq := h.name_eq.trans (Record.displayName_of_normalize hnormal)
    references := by
      rw [Record.references_of_normalize hnormal, ← htexts]
      rfl }

theorem Row.IsOf.null_iff {row : Row} {record : Record} (h : row.IsOf record) :
    row.bootstrap = "nullptr" ∨ row.ap = "nullptr" ↔ record.NamesNull := by
  unfold Record.NamesNull
  rw [h.references]
  simp

/-- The null pointer stands in the rows of markers and in no others. -/
def NullOnlyInMarkers (rows : List Row) : Prop :=
  ∀ row ∈ rows,
    (row.bootstrap = "nullptr" ∨ row.ap = "nullptr") ↔ row.flags.contains .phaseMarker = true

end TableText

open TableText

/-- The entries of the table of a registry. -/
def Registry.entriesOf (registry : Registry) : List Entry :=
  flatten registry.planOf registry

section

variable {sources : List Source} {registry : Registry}
  (hload : (Registry.load sources).result = .ok registry)

include hload

/-- An entry has the row of a marker, or that of the component of a record, whose routines are
among those that the entries refer to. -/
theorem isMarker_or_isOf {entry : Entry} (h : entry ∈ registry.entriesOf) :
    (Row.ofEntry entry).IsMarker ∨ ∃ definition ∈ definitionsOf sources, ∃ record,
      definition.HasRecord record ∧ (Row.ofEntry entry).IsOf record ∧
        ∀ reference ∈ [(Row.ofEntry entry).bootstrap, (Row.ofEntry entry).ap],
          ∃ routine : Routine, routine.text = reference ∧
            Referenced registry.entriesOf routine := by
  rcases isMarkerOf_or_standsFor h with ⟨phase, hphase⟩ | ⟨component, hmem, hstands⟩
  · exact .inl (isMarker_ofEntry hphase)
  · obtain ⟨definition, hdefinition, record, hrecord, hnormal⟩ :=
      Registry.exists_hasRecord_of_load hload hmem
    have hroutines : entry.routines? =
        some (component.execution.bootstrap, component.execution.ap) := by
      unfold Entry.routines?
      rw [hstands.kind_eq]
    have htexts : references entry =
        (component.execution.bootstrap.text, component.execution.ap.text) := by
      unfold references
      rw [hroutines]
    refine .inr ⟨definition, hdefinition, record, hrecord, isOf_ofEntry hstands hnormal, ?_⟩
    intro reference hreference
    rw [List.mem_pair] at hreference
    rcases hreference with rfl | rfl
    · exact ⟨_, (congrArg Prod.fst htexts).symm, entry, h, _, _, hroutines, .inl rfl⟩
    · exact ⟨_, (congrArg Prod.snd htexts).symm, entry, h, _, _, hroutines, .inr rfl⟩

theorem nullOnlyInMarkers_iff (hsound : registry.Schedulable) :
    NullOnlyInMarkers (registry.entriesOf.map Row.ofEntry) ↔
      ∀ definition ∈ definitionsOf sources, ∀ record, definition.HasRecord record →
        ¬record.NamesNull := by
  constructor
  -- A record that names the null pointer has a row, and it is not that of a marker.
  · intro hnull definition hdefinition record hrecord hnames
    obtain ⟨component, hmem, hnormal⟩ :=
      Registry.exists_component_of_hasRecord hload hdefinition hrecord
    obtain ⟨entry, hentry, hstands⟩ := exists_standsFor hsound hmem
    have hrow := isOf_ofEntry hstands hnormal
    have hmarker := (hnull _ (List.mem_map_of_mem hentry)).mp (hrow.null_iff.mpr hnames)
    rw [hrow.marker] at hmarker
    cases hmarker
  · intro hnames row hrow
    obtain ⟨entry, hentry, rfl⟩ := List.mem_map.mp hrow
    rcases isMarker_or_isOf hload hentry with hmarker |
      ⟨definition, hdefinition, record, hrecord, hof, -⟩
    · exact iff_of_true (.inl hmarker.bootstrap_eq) hmarker.marker
    · rw [hof.null_iff, hof.marker]
      exact iff_of_false (hnames definition hdefinition record hrecord) Bool.false_ne_true

end

/-- A row refers to null pointers if it is that of a marker, and to what a record names if it is
that of a component. What a record names is declared above the table. So null pointers tell markers
from components exactly if no enabled record names the null pointer as a routine. -/
theorem rows_of_generate {sources : List Source} {config : TableConfig} {text : String}
    (hconfig : config.OneLine) (h : (generate sources config).result = .ok text) :
    ∃ contents block declarations below entries,
      contents? text = some contents ∧
      text = "#include <" ++ config.header ++ ">\n" ++ block ++ below ∧
      Declarations.ofBlock? block = some declarations ∧
      below = Text.unlines (tableLines entries config) ∧
      contents.rows = entries.map Row.ofEntry ∧
      (∀ row ∈ contents.rows, row.IsMarker ∨ ∃ definition ∈ definitionsOf sources, ∃ record,
        definition.HasRecord record ∧ row.IsOf record ∧
          ∀ reference ∈ [row.bootstrap, row.ap], ∃ routine : Routine,
            routine.text = reference ∧ routine.declaration ∈ declarations.declared) ∧
      (NullOnlyInMarkers contents.rows ↔
        ∀ definition ∈ definitionsOf sources, ∀ record, definition.HasRecord record →
          ¬record.NamesNull) := by
  obtain ⟨registry, hload, hsound, hrender⟩ := generate_eq_ok_iff.mp h
  change text = render registry.entriesOf config at hrender
  obtain ⟨block, declarations, hblock, htext, -, hdeclared, -⟩ :=
    exists_block_of_render registry.entriesOf
  rw [hrender]
  refine ⟨_, block, declarations, _, registry.entriesOf,
    contents?_render hconfig registry.entriesOf,
    htext registry.entriesOf (fun _ => Iff.rfl) config, hblock, rfl, rfl, ?_,
    nullOnlyInMarkers_iff hload hsound⟩
  intro row hrow
  obtain ⟨entry, hentry, rfl⟩ := List.mem_map.mp hrow
  rcases isMarker_or_isOf hload hentry with hmarker |
    ⟨definition, hdefinition, record, hrecord, hof, hreferenced⟩
  · exact .inl hmarker
  · refine .inr ⟨definition, hdefinition, record, hrecord, hof, fun reference hreference => ?_⟩
    obtain ⟨routine, heq, hmem⟩ := hreferenced reference hreference
    exact ⟨routine, heq, (hdeclared routine).mpr hmem⟩

/-- A split component of which only the application processors have nothing to run. -/
theorem rows_of_generate_split : ∃ text contents,
    let sources : List Source := [.ofDrafts "boot.toml" [
      (Draft.perCpu "parked" "core_devices").splitRoutines "cpu::park" "nullptr",
      Draft.global "pages" "memory_management"]]
    TableConfig.default.OneLine ∧ (generate sources .default).result = .ok text ∧
      contents? text = some contents ∧ ¬NullOnlyInMarkers contents.rows ∧
      ∀ row ∈ contents.rows, row.IsMarker ∨
        ∃ definition ∈ definitionsOf sources, ∃ record,
          definition.HasRecord record ∧ row.IsOf record := by
  let parked := (Draft.perCpu "parked" "core_devices").splitRoutines "cpu::park" "nullptr"
  let sources : List Source := [.ofDrafts "boot.toml" [
    parked, Draft.global "pages" "memory_management"]]
  have hconfig : TableConfig.default.OneLine := by decide
  obtain ⟨text, htext⟩ : ∃ text, (generate sources .default).result = .ok text :=
    isOk_iff.mp (by decide +kernel)
  obtain ⟨contents, _, _, _, _, hcontents, -, -, -, -, hrows, hnull⟩ :=
    rows_of_generate hconfig htext
  refine ⟨text, contents, hconfig, htext, hcontents, fun hclaim => ?_, fun row hrow => ?_⟩
  · let definition : Definition := ⟨⟨"parked"⟩, "boot.toml", .table parked.table⟩
    let record : Record := {
      name := "parked", required := false, perCpu := true, phase := "core_devices"
      routine := none, bootstrapRoutine := some "cpu::park", apRoutine := some "nullptr"
      provides := [], dependsOn := [], needs := [], apNeeds := none
      importance := none, disabled := false }
    have hrecord : definition.HasRecord record :=
      ⟨parked.table, ⟨rfl, .inl rfl⟩, by decide +kernel⟩
    exact hnull.mp hclaim definition List.mem_cons_self record hrecord
      ⟨"cpu::park", "nullptr", rfl, .inr rfl⟩
  · exact (hrows row hrow).imp_right fun ⟨definition, hmem, record, hrecord, hof, _⟩ =>
      ⟨definition, hmem, record, hrecord, hof⟩

/-- The null pointer can be the routine of a component. -/
theorem not_nullOnlyInMarkers_of_generate :
    ¬∀ (sources : List Source) (config : TableConfig) (text : String),
      config.OneLine → (generate sources config).result = .ok text →
        ∀ contents, contents? text = some contents → NullOnlyInMarkers contents.rows := by
  intro hclaim
  let timer := (Draft.global "timer" "core_devices").routine "nullptr"
  let sources : List Source := [.ofDrafts "devices.toml" [timer]]
  have hconfig : TableConfig.default.OneLine := by decide
  obtain ⟨text, htext⟩ : ∃ text, (generate sources .default).result = .ok text :=
    isOk_iff.mp (by decide +kernel)
  obtain ⟨registry, hload, hsound, hrender⟩ := generate_eq_ok_iff.mp htext
  change text = render registry.entriesOf .default at hrender
  have hnull := hclaim sources .default text hconfig htext _
    (hrender ▸ contents?_render hconfig registry.entriesOf)
  let record : Record := {
    name := "timer", required := false, perCpu := false, phase := "core_devices"
    routine := some "nullptr", bootstrapRoutine := none, apRoutine := none
    provides := [], dependsOn := [], needs := [], apNeeds := none
    importance := none, disabled := false }
  have hrecord : Definition.HasRecord ⟨⟨"timer"⟩, "devices.toml", .table timer.table⟩ record :=
    ⟨timer.table, ⟨rfl, .inl rfl⟩, by decide +kernel⟩
  exact (nullOnlyInMarkers_iff hload hsound).mp hnull _ List.mem_cons_self record hrecord
    ⟨"nullptr", "nullptr", rfl, .inl rfl⟩

end BootTable
