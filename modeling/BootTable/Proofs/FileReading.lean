import BootTable.FileReading
import Mathlib.Data.List.Forall2

/-!
# BootTable — what files stand for

Of a tree, a path either has a document or lacks one for a reason. What a run takes from its files
is stated in these terms: the names of the configuration, the sources of the definitions in their
order, and the first file of either that stands for nothing.

* **`document_reading_eq_ok_iff`**, **`document_reading_eq_error_iff`**: what is read from a path.
* **`result_sources_eq_ok_iff`**, **`result_sources_eq_error_iff`**: the definition files, from left
  to right.
* **`config_reading_eq_ok_iff`**, **`config_reading_eq_error_iff`**: the configuration file.
-/

namespace BootTable

namespace FileTree

/-- The file with the path can be read and its text is a document. -/
def HasDocument (tree : FileTree) (path : String) (table : Toml.Table) : Prop :=
  ∃ text, tree.read path = .ok text ∧ Toml.parse text = some table

/-- Why a path has no document. -/
inductive LacksDocument (tree : FileTree) (path : String) : FileProblem → Prop
  | unavailable {fault : FileFault} (hread : tree.read path = .error fault) :
      LacksDocument tree path (.unavailable fault)
  | notADocument {text : String} (hread : tree.read path = .ok text)
      (hparse : Toml.parse text = none) : LacksDocument tree path .notADocument

/-- The sources that definition files stand for, one for each path. -/
def HasSources (tree : FileTree) : List String → List Source → Prop :=
  List.Forall₂ fun path source => source.origin = path ∧ tree.HasDocument path source.table

/-- The configuration that a run takes: that of the file, or the default if no file is given. -/
inductive HasConfig (tree : FileTree) : Option String → TableConfig → Prop
  | default : HasConfig tree none .default
  | given {path : String} {table : Toml.Table} {config : TableConfig}
      (hdocument : tree.HasDocument path table)
      (hfields : TableConfig.ofDocument table = .ok config) : HasConfig tree (some path) config

/-- What is wrong with the configuration file. -/
inductive LacksConfig (tree : FileTree) : Option String → FileError → Prop
  | document {path : String} {problem : FileProblem}
      (hlacks : tree.LacksDocument path problem) : LacksConfig tree (some path) ⟨path, problem⟩
  | fields {path : String} {table : Toml.Table} {fault : Toml.FieldFault}
      (hdocument : tree.HasDocument path table)
      (hfields : TableConfig.ofDocument table = .error fault) :
      LacksConfig tree (some path) ⟨path, .wrongFields fault⟩

end FileTree

namespace FileReading

variable {tree : FileTree}

/-! ## One file -/

theorem document_reading_eq_ok_iff {path : String} {table : Toml.Table} :
    (tree.reading path).document = .ok table ↔ tree.HasDocument path table := by
  unfold document FileTree.reading FileTree.HasDocument
  cases hread : tree.read path with
  | error fault => simp
  | ok text => cases hparse : Toml.parse text <;> simp [hparse]

theorem document_reading_eq_error_iff {path : String} {cause : FileError} :
    (tree.reading path).document = .error cause ↔
      ∃ problem, tree.LacksDocument path problem ∧ cause = ⟨path, problem⟩ := by
  unfold document FileTree.reading failure
  constructor
  · intro h
    cases hread : tree.read path with
    | error fault =>
      simp only [hread, Except.error.injEq] at h
      exact ⟨_, .unavailable hread, h.symm⟩
    | ok text =>
      cases hparse : Toml.parse text with
      | none =>
        simp only [hread, hparse, Except.error.injEq] at h
        exact ⟨_, .notADocument hread hparse, h.symm⟩
      | some table => simp [hread, hparse] at h
  · rintro ⟨problem, hlacks, rfl⟩
    cases hlacks with
    | unavailable hread => simp [hread]
    | notADocument hread hparse => simp [hread, hparse]

theorem result_source_reading_eq_ok_iff {path : String} {source : Source} :
    (tree.reading path).source.result = .ok source ↔
      source.origin = path ∧ tree.HasDocument path source.table := by
  unfold FileReading.source
  rw [Logged.result_bind_eq_ok_iff]
  constructor
  · rintro ⟨table, htable, hrest⟩
    cases hrest
    exact ⟨rfl, document_reading_eq_ok_iff.mp htable⟩
  · rintro ⟨rfl, hdocument⟩
    exact ⟨source.table, document_reading_eq_ok_iff.mpr hdocument, rfl⟩

theorem result_source_reading_eq_error_iff {path : String} {cause : FileError} :
    (tree.reading path).source.result = .error cause ↔
      ∃ problem, tree.LacksDocument path problem ∧ cause = ⟨path, problem⟩ := by
  unfold FileReading.source
  rw [Logged.result_bind_eq_error_iff, ← document_reading_eq_error_iff]
  constructor
  · rintro (h | ⟨table, -, h⟩)
    · exact h
    · cases h
  · exact .inl

/-! ## The definition files -/

theorem result_sources_eq_ok_iff {paths : List String} {sources : List Source} :
    (FileReading.sources (paths.map tree.reading)).result = .ok sources ↔
      tree.HasSources paths sources := by
  unfold FileTree.HasSources
  induction paths generalizing sources with
  | nil => simp [FileReading.sources, eq_comm]
  | cons path others ih =>
    rw [List.map_cons, FileReading.sources, List.forall₂_cons_left_iff]
    simp only [Logged.result_bind_eq_ok_iff, result_source_reading_eq_ok_iff, ih]
    constructor
    · rintro ⟨first, hfirst, rest, hrest, hsources⟩
      cases hsources
      exact ⟨first, rest, hfirst, hrest, rfl⟩
    · rintro ⟨first, rest, hfirst, hrest, rfl⟩
      exact ⟨first, hfirst, rest, hrest, rfl⟩

/-- The first file that is no document decides the failure. -/
theorem result_sources_eq_error_iff {paths : List String} {cause : FileError} :
    (FileReading.sources (paths.map tree.reading)).result = .error cause ↔
      ∃ earlier path later problem, paths = earlier ++ path :: later ∧
        (∀ before ∈ earlier, ∃ table, tree.HasDocument before table) ∧
        tree.LacksDocument path problem ∧ cause = ⟨path, problem⟩ := by
  induction paths with
  | nil => simp [FileReading.sources]
  | cons path others ih =>
    rw [List.map_cons, FileReading.sources, Logged.result_bind_eq_error_iff,
      result_source_reading_eq_error_iff]
    -- Nothing stands before the file that fails, or the first file stands there and has a document.
    constructor
    · rintro (⟨problem, hlacks, rfl⟩ | ⟨first, hfirst, hrest⟩)
      · exact ⟨[], path, others, problem, rfl, nofun, hlacks, rfl⟩
      · obtain ⟨-, hdocument⟩ := result_source_reading_eq_ok_iff.mp hfirst
        rcases Logged.result_bind_eq_error_iff.mp hrest with hothers | ⟨rest, -, hanswer⟩
        · obtain ⟨earlier, bad, later, problem, rfl, hearlier, hlacks, rfl⟩ := ih.mp hothers
          exact ⟨path :: earlier, bad, later, problem, rfl,
            List.forall_mem_cons.mpr ⟨⟨_, hdocument⟩, hearlier⟩, hlacks, rfl⟩
        · cases hanswer
    · rintro ⟨earlier, bad, later, problem, hsplit, hearlier, hlacks, rfl⟩
      cases earlier with
      | nil =>
        cases hsplit
        exact .inl ⟨problem, hlacks, rfl⟩
      | cons first rest =>
        cases hsplit
        obtain ⟨⟨table, hdocument⟩, hrest⟩ := List.forall_mem_cons.mp hearlier
        refine .inr ⟨⟨path, table⟩, result_source_reading_eq_ok_iff.mpr ⟨rfl, hdocument⟩, ?_⟩
        exact Logged.result_bind_eq_error_iff.mpr
          (.inl (ih.mpr ⟨rest, bad, later, problem, rfl, hrest, hlacks, rfl⟩))

/-! ## The configuration -/

theorem config_reading_eq_ok_iff {path : String} {config : TableConfig} :
    (tree.reading path).config = .ok config ↔ tree.HasConfig (some path) config := by
  unfold FileReading.config
  rw [bind_eq_ok_iff]
  constructor
  · rintro ⟨table, htable, hrest⟩
    cases hfields : TableConfig.ofDocument table with
    | error fault => simp [hfields] at hrest
    | ok own =>
      rw [hfields] at hrest
      cases hrest
      exact .given (document_reading_eq_ok_iff.mp htable) hfields
  · intro h
    cases h with
    | given hdocument hfields =>
      exact ⟨_, document_reading_eq_ok_iff.mpr hdocument, by rw [hfields]; rfl⟩

theorem config_reading_eq_error_iff {path : String} {cause : FileError} :
    (tree.reading path).config = .error cause ↔ tree.LacksConfig (some path) cause := by
  unfold FileReading.config
  rw [bind_eq_error_iff, document_reading_eq_error_iff]
  constructor
  · rintro (⟨problem, hlacks, rfl⟩ | ⟨table, htable, hrest⟩)
    · exact .document hlacks
    · cases hfields : TableConfig.ofDocument table with
      | error fault =>
        rw [hfields] at hrest
        cases hrest
        exact .fields (document_reading_eq_ok_iff.mp htable) hfields
      | ok own =>
        rw [hfields] at hrest
        cases hrest
  · intro h
    cases h with
    | document hlacks => exact .inl ⟨_, hlacks, rfl⟩
    | fields hdocument hfields =>
      exact .inr ⟨_, document_reading_eq_ok_iff.mpr hdocument, by rw [hfields]; rfl⟩

end FileReading

end BootTable
