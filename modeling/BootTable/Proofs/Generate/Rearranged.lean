import BootTable.Proofs.Record.Rearranged
import BootTable.Proofs.Registry.Loadable
import BootTable.Record.Draft

/-!
# BootTable — sources with rearranged lists

The items of the lists in records may be rearranged and repeated, in any number of records at once:
the text stays the same. What is loaded differs, but registries that are alike have the same plans
and the same text.

* **`exists_component?_of_rearranges`**: one definition.
* **`exists_load_of_rearranges`**: all definitions; the ids are the same, so none is taken twice.
* **`generate_of_rearranges`**: the whole way.
-/

namespace BootTable

open Toml

/-- The values of two definitions: the same, or the tables of records whose lists are rearranged. -/
def Toml.Value.RearrangesRecord (value other : Value) : Prop :=
  value = other ∨ ∃ table counterpart, value = .table table ∧ other = .table counterpart ∧
    Table.Rearranges table counterpart

/-- Sources that differ in the arrangement of lists in their records alone. -/
structure Source.Rearranges (source other : Source) : Prop where
  origin_eq : source.origin = other.origin
  records : List.Forall₂ (fun a b => a.1 = b.1 ∧ Value.RearrangesRecord a.2 b.2)
    source.table other.table

theorem Toml.Table.Rearranges.setTexts {draft other : Draft}
    (h : Table.Rearranges draft.table other.table) {key : String} (hkey : key ∈ listKeys)
    {texts others : List String} (hsame : SameMembers texts others) :
    Table.Rearranges (draft.setTexts key texts).table (other.setTexts key others).table :=
  h.set (.inr ⟨hkey, _, _, rfl, rfl, hsame.map Value.text⟩)

/-- Definitions that differ in the arrangement of lists alone. -/
structure Definition.Rearranges (definition other : Definition) : Prop where
  id_eq : definition.id = other.id
  origin_eq : definition.origin = other.origin
  value : Value.RearrangesRecord definition.value other.value

theorem Toml.Value.RearrangesRecord.symm {value other : Value}
    (h : Value.RearrangesRecord value other) : Value.RearrangesRecord other value := by
  rcases h with rfl | ⟨table, counterpart, hvalue, hother, htables⟩
  · exact .inl rfl
  · exact .inr ⟨counterpart, table, hother, hvalue, htables.symm⟩

theorem Source.Rearranges.symm {source other : Source} (h : source.Rearranges other) :
    other.Rearranges source where
  origin_eq := h.origin_eq.symm
  records := (h.records.imp fun _ _ hab => ⟨hab.1.symm, hab.2.symm⟩).flip

theorem Definition.Rearranges.symm {definition other : Definition}
    (h : definition.Rearranges other) : other.Rearranges definition where
  id_eq := h.id_eq.symm
  origin_eq := h.origin_eq.symm
  value := h.value.symm

theorem forall₂_definitionsOf {sources others : List Source}
    (h : List.Forall₂ Source.Rearranges sources others) :
    List.Forall₂ Definition.Rearranges (definitionsOf sources) (definitionsOf others) := by
  refine forall₂_flatMap (fun source other hsource => ?_) h
  unfold Source.definitions
  rw [List.forall₂_map_left_iff, List.forall₂_map_right_iff]
  exact hsource.records.imp fun a b hab =>
    ⟨congrArg ComponentId.mk hab.1, hsource.origin_eq, hab.2⟩

/-! ## One definition -/

namespace Definition

variable {definition other : Definition}

theorem exists_component?_of_rearranges (h : definition.Rearranges other)
    {found : Option Component} (hfound : definition.component? = .ok found) :
    ∃ counterpart, other.component? = .ok counterpart ∧
      Option.Rel Component.Alike found counterpart := by
  obtain ⟨hid, horigin, hsame | ⟨table, counterpart, hvalue, hother, htables⟩⟩ := h
  · have hequal : definition = other := by
      cases definition
      cases other
      cases hid
      cases horigin
      cases hsame
      rfl
    rw [← hequal]
    refine ⟨found, hfound, ?_⟩
    cases found with
    | none => exact .none
    | some component => exact .some (.refl component)
  · have hmarker : Table.get? table "disabled" = Table.get? counterpart "disabled" :=
      get?_eq_of_rearranges htables (by decide)
    cases found with
    | none =>
      rw [component?_eq_ok_none_iff, enabledTable?_eq_ok_none_iff hvalue, hmarker,
        ← enabledTable?_eq_ok_none_iff hother, ← component?_eq_ok_none_iff] at hfound
      exact ⟨none, hfound, .none⟩
    | some component =>
      obtain ⟨enabled, henabled, hcomponent⟩ := component?_eq_ok_some_iff.mp hfound
      obtain ⟨rfl, hkept⟩ := (enabledTable?_eq_ok_some_iff hvalue).mp henabled
      obtain ⟨record, hrecord, hnormal⟩ := componentOf_eq_ok_iff.mp hcomponent
      obtain ⟨record', hrecord', halike⟩ := Record.exists_ofTable_of_rearranges htables hrecord
      obtain ⟨component', hnormal', hcomponents⟩ := halike.exists_normalize hnormal
      rw [hmarker] at hkept
      rw [hid] at hnormal'
      refine ⟨some component', component?_eq_ok_some_iff.mpr ⟨counterpart,
        (enabledTable?_eq_ok_some_iff hother).mpr ⟨rfl, hkept⟩,
        componentOf_eq_ok_iff.mpr ⟨record', hrecord', hnormal'⟩⟩, .some hcomponents⟩

theorem forall₂_registered (h : definition.Rearranges other) :
    List.Forall₂ (fun a b => a.component.Alike b.component) definition.registered
      other.registered := by
  unfold registered
  cases hfound : definition.component? with
  | ok found =>
    obtain ⟨counterpart, hcounterpart, hrel⟩ := exists_component?_of_rearranges h hfound
    rw [hcounterpart]
    cases hrel with
    | none => exact .nil
    | some halike => exact .cons halike .nil
  | error fault =>
    cases hcounterpart : other.component? with
    | error fault' => exact .nil
    | ok counterpart =>
      obtain ⟨found, hfound', -⟩ := exists_component?_of_rearranges h.symm hcounterpart
      rw [hfound] at hfound'
      cases hfound'

end Definition

/-! ## All definitions -/

theorem exists_load_of_rearranges {sources others : List Source}
    (h : List.Forall₂ Source.Rearranges sources others) {registry : Registry}
    (hload : (Registry.load sources).result = .ok registry) :
    ∃ other, (Registry.load others).result = .ok other ∧ registry.Alike other := by
  obtain ⟨hsound, hentries⟩ := load_eq_ok_iff.mp hload
  have hdefinitions := forall₂_definitionsOf h
  have hregistered :=
    forall₂_flatMap (fun _ _ hab => Definition.forall₂_registered hab) hdefinitions
  rw [← hentries] at hregistered
  -- The ids are the same, so those of the other sources are distinct too.
  have hids : registry.entries.map Registered.id =
      ((definitionsOf others).flatMap Definition.registered).map Registered.id :=
    map_eq_map_of_forall₂ (fun _ _ hab => hab.id_eq) hregistered
  have hnodup := registry.nodup_ids
  rw [hids] at hnodup
  refine ⟨⟨_, hnodup⟩, load_eq_ok_iff.mpr ⟨fun definition hmem => ?_, rfl⟩, ?_⟩
  · obtain ⟨original, horiginal, hrearranges⟩ := exists_rel_of_mem hdefinitions.flip hmem
    obtain ⟨found, hfound⟩ := hsound original horiginal
    obtain ⟨counterpart, hcounterpart, -⟩ :=
      Definition.exists_component?_of_rearranges hrearranges hfound
    exact ⟨counterpart, hcounterpart⟩
  · unfold Registry.Alike Registry.components
    rw [List.forall₂_map_left_iff, List.forall₂_map_right_iff]
    exact hregistered

theorem generate_eq_ok_of_rearranges {sources others : List Source}
    (h : List.Forall₂ Source.Rearranges sources others) {config : TableConfig} {text : String}
    (htext : (generate sources config).result = .ok text) :
    (generate others config).result = .ok text := by
  obtain ⟨registry, hload, hsound, hrendered⟩ := generate_eq_ok_iff.mp htext
  obtain ⟨other, hother, halike⟩ := exists_load_of_rearranges h hload
  rw [Registry.textOf_eq_of_alike halike] at hrendered
  exact generate_eq_ok_iff.mpr ⟨other, hother, hsound.of_alike halike, hrendered⟩

/-- Lists in records are read for their members alone: sources that differ in the arrangement of
such lists have the same text, or none. -/
theorem generate_of_rearranges {sources others : List Source}
    (h : List.Forall₂ Source.Rearranges sources others) (config : TableConfig) (text : String) :
    (generate sources config).result = .ok text ↔ (generate others config).result = .ok text := by
  have hswapped : List.Forall₂ Source.Rearranges others sources :=
    (h.imp fun _ _ hsource => hsource.symm).flip
  exact ⟨generate_eq_ok_of_rearranges h, generate_eq_ok_of_rearranges hswapped⟩

theorem generate_of_rearranges_devices :
    let pages := Draft.global "pages" "memory_management"
    let bus := Draft.global "bus" "core_devices"
    let timer := Draft.perCpu "timer" "core_devices"
    let source : Source := ⟨"boot.toml", [
      ("timer", .table (((timer.dependsOn ["bus"]).needs ["heap", "irq"]).apNeeds ["heap"]).table),
      ("bus", .table ((bus.provides ["irq", "dma"]).needs ["heap"]).table),
      ("pages", .table (pages.provides ["heap", "stacks"]).table)]⟩
    let other : Source := ⟨"boot.toml", [
      ("timer", .table (((timer.dependsOn ["bus", "bus"]).needs ["irq", "heap", "irq"]).apNeeds
        ["heap", "heap"]).table),
      ("bus", .table ((bus.provides ["dma", "irq"]).needs ["heap"]).table),
      ("pages", .table (pages.provides ["stacks", "stacks", "heap"]).table)]⟩
    List.Forall₂ Source.Rearranges [source] [other] ∧
      ∃ text, (generate [source] .default).result = .ok text ∧
        (generate [other] .default).result = .ok text := by
  intro pages bus timer source other
  have hrearranges : List.Forall₂ Source.Rearranges [source] [other] := by
    refine .cons ⟨rfl, .cons ⟨rfl, .inr ⟨_, _, rfl, rfl, ?_⟩⟩
      (.cons ⟨rfl, .inr ⟨_, _, rfl, rfl, ?_⟩⟩ (.cons ⟨rfl, .inr ⟨_, _, rfl, rfl, ?_⟩⟩ .nil))⟩ .nil
    · have hdependsOn : SameMembers ["bus"] ["bus", "bus"] :=
        sameMembers_of_subset (by decide) (by decide)
      have hneeds : SameMembers ["heap", "irq"] ["irq", "heap", "irq"] :=
        sameMembers_of_subset (by decide) (by decide)
      have hapNeeds : SameMembers ["heap"] ["heap", "heap"] :=
        sameMembers_of_subset (by decide) (by decide)
      exact (((Table.Rearranges.refl timer.table).setTexts (by decide) hdependsOn).setTexts
        (by decide) hneeds).setTexts (by decide) hapNeeds
    · have hprovides : SameMembers ["irq", "dma"] ["dma", "irq"] :=
        sameMembers_of_subset (by decide) (by decide)
      exact ((Table.Rearranges.refl bus.table).setTexts (by decide) hprovides).setTexts
        (by decide) (.refl ["heap"])
    · have hprovides : SameMembers ["heap", "stacks"] ["stacks", "stacks", "heap"] :=
        sameMembers_of_subset (by decide) (by decide)
      exact (Table.Rearranges.refl pages.table).setTexts (by decide) hprovides
  obtain ⟨text, htext⟩ : ∃ text, (generate [source] .default).result = .ok text :=
    isOk_iff.mp (by decide +kernel)
  exact ⟨hrearranges, text, htext, (generate_of_rearranges hrearranges .default text).mp htext⟩

end BootTable
