import BootTable.Proofs.PairList
import BootTable.Proofs.Record
import BootTable.Proofs.Registry.Alike

/-!
# BootTable — records with rearranged lists

Four fields of a record are lists. Their items may be rearranged and repeated: the table then reads
as a record, and the record normalizes to a component, exactly if the original does, and the
components are alike. Faults need not be the same, for the first item at fault may be another one.

* **`get?_rel_of_rearranges`**: the values of a key, in both tables.
* **`fieldFault?_eq_none_iff_of_rearranges`**: both tables have the right kinds of values, or none.
* **`exists_ofTable_of_rearranges`**, **`Record.Alike.exists_normalize`**: reading and normalizing.
-/

namespace BootTable

open Toml

/-- The keys of a record that take lists. -/
def listKeys : List String :=
  ["provides_capabilities", "depends_on", "depends_on_capabilities", "ap_depends_on_capabilities"]

/-- The values of a key in two records: the same, or two arrangements of a list. -/
def Toml.Value.Rearranges (key : String) (value other : Value) : Prop :=
  value = other ∨ key ∈ listKeys ∧
    ∃ items others, value = .array items ∧ other = .array others ∧ SameMembers items others

/-- The tables of two records that differ in the arrangement of lists alone. -/
def Toml.Table.Rearranges (table other : Table) : Prop :=
  List.Forall₂ (fun a b => a.1 = b.1 ∧ Value.Rearranges a.1 a.2 b.2) table other

theorem Toml.Value.Rearranges.symm {key : String} {value other : Value}
    (h : Value.Rearranges key value other) : Value.Rearranges key other value := by
  rcases h with rfl | ⟨hkey, items, others, hvalue, hother, hsame⟩
  · exact .inl rfl
  · exact .inr ⟨hkey, others, items, hother, hvalue, hsame.symm⟩

theorem Toml.Table.Rearranges.symm {table other : Table} (h : table.Rearranges other) :
    other.Rearranges table := by
  have hswapped : List.Forall₂ (fun b a => b.1 = a.1 ∧ Value.Rearranges b.1 b.2 a.2) other table :=
    (h.imp fun a b hab => ⟨hab.1.symm, hab.1 ▸ hab.2.symm⟩).flip
  exact hswapped

theorem Toml.Table.Rearranges.refl (table : Table) : table.Rearranges table :=
  List.forall₂_same.mpr fun _ _ => ⟨rfl, .inl rfl⟩

/-- Setting a key to two arrangements of a list keeps the tables rearranged. -/
theorem Toml.Table.Rearranges.set {table other : Table} (h : table.Rearranges other) {key : String}
    {value counterpart : Value} (hvalue : Value.Rearranges key value counterpart) :
    (table.set key value).Rearranges (other.set key counterpart) := by
  unfold Table.Rearranges at h ⊢
  induction h with
  | nil => exact .cons ⟨rfl, hvalue⟩ .nil
  | @cons a b _ _ hrel hothers ih =>
    unfold Table.set
    rw [← hrel.1]
    by_cases hkey : a.1 = key
    · rw [if_pos hkey, if_pos hkey]
      exact .cons ⟨rfl, hvalue⟩ hothers
    · rw [if_neg hkey, if_neg hkey]
      exact .cons hrel ih

/-! ## Values -/

section

variable {table other : Table}

theorem get?_rel_of_rearranges (h : table.Rearranges other) (key : String) :
    Option.Rel (Value.Rearranges key) (table.get? key) (other.get? key) := by
  unfold Table.get?
  induction h with
  | nil => exact .none
  | @cons a b _ _ hrel _ ih =>
    rw [lookup_cons_eq_ite, lookup_cons_eq_ite, ← hrel.1]
    by_cases hkey : key = a.1
    · rw [if_pos hkey, if_pos hkey, hkey]
      exact .some hrel.2
    · rw [if_neg hkey, if_neg hkey]
      exact ih

theorem get?_eq_of_rearranges (h : table.Rearranges other) {key : String} (hkey : key ∉ listKeys) :
    table.get? key = other.get? key := by
  refine eq_of_rel (fun value counterpart hrel => ?_) (get?_rel_of_rearranges h key)
  rcases hrel with hsame | ⟨hlist, -⟩
  · exact hsame
  · exact absurd hlist hkey

theorem texts?_rel_of_rearranges (h : table.Rearranges other) (key : String) :
    Option.Rel SameMembers (table.texts? key) (other.texts? key) := by
  have hvalues := get?_rel_of_rearranges h key
  unfold Table.texts?
  revert hvalues
  generalize table.get? key = value?
  generalize other.get? key = counterpart?
  rintro (⟨rfl | ⟨-, items, others, rfl, rfl, hsame⟩⟩ | -)
  · exact rel_sameMembers_refl _
  · exact hsame.mapM Value.asText?
  · exact .none

theorem keys_eq_of_rearranges (h : table.Rearranges other) : table.keys = other.keys :=
  map_eq_map_of_forall₂ (fun _ _ hab => hab.1) h

theorem shape_of_mem_listKeys :
    ∀ key ∈ listKeys, (Field.ofKey? key).map Field.shape = some .texts := by
  decide

theorem fieldFault?_eq_none_iff_of_rearranges (h : table.Rearranges other) :
    (table.fieldFault? fun key => (Field.ofKey? key).map Field.shape) = none ↔
      (other.fieldFault? fun key => (Field.ofKey? key).map Field.shape) = none := by
  unfold Table.fieldFault?
  rw [List.findSome?_eq_none_iff, List.findSome?_eq_none_iff]
  refine forall_mem_iff_of_forall₂ (fun a b hab => ?_) h
  obtain ⟨hkey, hvalue⟩ := hab
  rw [← hkey]
  rcases hvalue with hsame | ⟨hlist, items, others, hitems, hothers, hmembers⟩
  · rw [hsame]
  · simp only [shape_of_mem_listKeys a.1 hlist, hitems, hothers]
    show items.findSome? Value.textFault? = none ↔ others.findSome? Value.textFault? = none
    rw [List.findSome?_eq_none_iff, List.findSome?_eq_none_iff]
    exact forall_congr' fun item => imp_congr_left (hmembers item)

end

/-! ## Records -/

namespace Record

/-- The record with all of its lists emptied. -/
def bare (record : Record) : Record :=
  { record with
    provides := []
    dependsOn := []
    needs := []
    apNeeds := record.apNeeds.map fun _ => [] }

/-- Records that differ in the arrangement of their lists alone. -/
structure Alike (a b : Record) : Prop where
  bare_eq : a.bare = b.bare
  provides : SameMembers a.provides b.provides
  dependsOn : SameMembers a.dependsOn b.dependsOn
  needs : SameMembers a.needs b.needs
  apNeeds : SameMembers (a.apNeeds.getD []) (b.apNeeds.getD [])

theorem exists_decode_of_rearranges {table other : Table} (h : table.Rearranges other)
    {record : Record} (hrecord : decode table = .ok record) :
    ∃ counterpart, decode other = .ok counterpart ∧ record.Alike counterpart := by
  -- The nine fields that are no lists have the same values, so the record takes them over.
  have hget {key : String} (hkey : key ∉ listKeys) : table.get? key = other.get? key :=
    get?_eq_of_rearranges h hkey
  have hlists (key : String) :
      SameMembers ((table.texts? key).getD []) ((other.texts? key).getD []) :=
    sameMembers_getD (texts?_rel_of_rearranges h key)
  obtain ⟨hfault, hfields⟩ := decode_eq_ok_iff.mp hrecord
  rw [fieldFault?_eq_none_iff_of_rearranges h] at hfault
  unfold Table.text? Table.flag? at hfields
  rw [hget (by decide), hget (by decide), hget (by decide), hget (by decide), hget (by decide),
    hget (by decide), hget (by decide), hget (by decide), hget (by decide)] at hfields
  obtain ⟨hname, hrequired, hperCpu, hphase, hroutine, hbootstrap, hap, hprovides, hdependsOn,
    hneeds, hapNeeds, himportance, hdisabled⟩ := hfields
  let counterpart : Record := { record with
    provides := (other.texts? "provides_capabilities").getD []
    dependsOn := (other.texts? "depends_on").getD []
    needs := (other.texts? "depends_on_capabilities").getD []
    apNeeds := other.texts? "ap_depends_on_capabilities" }
  refine ⟨counterpart, decode_eq_ok_iff.mpr ⟨hfault, hname, hrequired, hperCpu, hphase, hroutine,
    hbootstrap, hap, rfl, rfl, rfl, rfl, himportance, hdisabled⟩, ?_, ?_, ?_, ?_, ?_⟩
  · have hlisted : record.apNeeds.map (fun _ => ([] : List String)) =
        (other.texts? "ap_depends_on_capabilities").map fun _ => [] := by
      rw [hapNeeds]
      exact map_eq_map_of_rel (fun _ _ _ => rfl) (texts?_rel_of_rearranges h _)
    unfold bare
    rw [hlisted]
  · rw [hprovides]
    exact hlists _
  · rw [hdependsOn]
    exact hlists _
  · rw [hneeds]
    exact hlists _
  · rw [hapNeeds]
    exact hlists _

theorem exists_ofTable_of_rearranges {table other : Table} (h : table.Rearranges other)
    {record : Record} (hrecord : ofTable table = .ok record) :
    ∃ counterpart, ofTable other = .ok counterpart ∧ record.Alike counterpart := by
  obtain ⟨hmissing, hunknown, hdecode⟩ := ofTable_eq_ok_iff.mp hrecord
  unfold missingKeys Table.hasKey at hmissing
  unfold unknownKeys at hunknown
  rw [keys_eq_of_rearranges h] at hmissing hunknown
  obtain ⟨counterpart, hcounterpart, halike⟩ := exists_decode_of_rearranges h hdecode
  exact ⟨counterpart, ofTable_eq_ok_iff.mpr ⟨hmissing, hunknown, hcounterpart⟩, halike⟩

/-! ## Components -/

section

variable {a b : Record}

/-- What does not look at the lists is the same. -/
theorem Alike.congr {γ : Type} {f : Record → γ} (hf : ∀ record, f record.bare = f record)
    (h : a.Alike b) : f a = f b := by
  rw [← hf a, h.bare_eq, hf b]

theorem Alike.exists_executionOf (h : a.Alike b) {bootstrap ap : String} {execution : Execution}
    (hexecution : a.executionOf bootstrap ap = .ok execution) :
    ∃ counterpart, b.executionOf bootstrap ap = .ok counterpart ∧
      execution.bootstrap = counterpart.bootstrap ∧ execution.ap = counterpart.ap ∧
      execution.isPerCpu = counterpart.isPerCpu := by
  have hkind : a.perCpu = b.perCpu := h.congr fun _ => rfl
  obtain ⟨routine, hroutine, ⟨hperCpu, apRoutine, hap, rfl⟩ | ⟨hglobal, rfl⟩⟩ :=
    executionOf_eq_ok_iff.mp hexecution
  · rw [hkind] at hperCpu
    exact ⟨_, executionOf_eq_ok_iff.mpr ⟨routine, hroutine, .inl ⟨hperCpu, apRoutine, hap, rfl⟩⟩,
      rfl, rfl, rfl⟩
  · rw [hkind] at hglobal
    exact ⟨_, executionOf_eq_ok_iff.mpr ⟨routine, hroutine, .inr ⟨hglobal, rfl⟩⟩, rfl, rfl, rfl⟩

theorem Alike.exists_normalize (h : a.Alike b) {id : ComponentId} {component : Component}
    (hcomponent : a.normalize id = .ok component) :
    ∃ counterpart, b.normalize id = .ok counterpart ∧ component.Alike counterpart := by
  obtain ⟨bootstrap, ap, phase, importance, execution, hroutines, hphase, himportance, hlisted,
    hexecution, hfields⟩ := normalize_eq_ok_iff.mp hcomponent
  obtain ⟨counterpart, hcounterpart, hbootstrap, hap, hkind⟩ := h.exists_executionOf hexecution
  have hreferences : a.routineReferences = b.routineReferences := h.congr fun _ => rfl
  have hphases : a.phaseOf = b.phaseOf := h.congr fun _ => rfl
  have himportances : a.importanceOf = b.importanceOf := h.congr fun _ => rfl
  have hperCpu : a.perCpu = b.perCpu := h.congr fun _ => rfl
  have hname : a.name = b.name := h.congr fun _ => rfl
  have hrequired : a.required = b.required := h.congr fun _ => rfl
  have hlisted' : b.perCpu = false → b.apNeeds = none := by
    intro hglobal
    -- An empty list is a list: what counts here is only whether there is one.
    have hnone : a.apNeeds = none := hlisted (hperCpu.trans hglobal)
    have hsame : a.apNeeds.map (fun _ => ([] : List String)) = b.apNeeds.map fun _ => [] := by
      have hbare := congrArg Record.apNeeds h.bare_eq
      exact hbare
    rw [hnone, Option.map_none, eq_comm, Option.map_eq_none_iff] at hsame
    exact hsame
  let other : Component := {
    id, phase, importance
    execution := counterpart
    displayName := b.name
    required := b.required
    provides := .ofList (b.provides.map Capability.mk)
    dependsOn := .ofList (b.dependsOn.map ComponentId.mk)
    needs := .ofList (b.needs.map Capability.mk) }
  have hnormal : b.normalize id = .ok other :=
    normalize_eq_ok_iff.mpr ⟨bootstrap, ap, phase, importance, counterpart,
      hreferences.symm.trans hroutines, hphases.symm.trans hphase,
      himportances.symm.trans himportance, hlisted', hcounterpart, rfl⟩
  have hapNeeds (capability : Capability) :
      capability ∈ component.apNeeds ↔ capability ∈ other.apNeeds := by
    rw [mem_apNeeds_of_normalize hcomponent, mem_apNeeds_of_normalize hnormal]
    exact h.apNeeds capability.name
  refine ⟨other, hnormal, ?_⟩
  rw [hfields] at hapNeeds ⊢
  exact {
    id_eq := rfl
    displayName_eq := hname
    required_eq := hrequired
    phase_eq := rfl
    bootstrap_eq := hbootstrap
    ap_eq := hap
    isPerCpu_eq := hkind
    importance_eq := rfl
    provides := h.provides.mem_ofList_map_iff
    dependsOn := h.dependsOn.mem_ofList_map_iff
    needs := h.needs.mem_ofList_map_iff
    apNeeds := hapNeeds }

end

end Record

end BootTable
