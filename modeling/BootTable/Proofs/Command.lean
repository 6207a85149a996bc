import BootTable.Command
import BootTable.Proofs.Command.Arguments
import BootTable.Proofs.FileReading
import BootTable.Proofs.FileTree
import BootTable.Proofs.Generate
import BootTable.Proofs.TableText.Contents

/-!
# BootTable — a run writes everything or nothing

A run on a file tree reads, compiles and replaces one file at the end, so that a failure leaves the
tree as it was, whatever failed and however many files were read before.

* **`result_compile_eq_ok_iff`**, **`result_compile_eq_error_iff`**: what the files of a job make, in
  terms of what stands in them. Of the configuration, the definition files from left to right and
  the stages after them, the first that fails decides the failure.
* **`performs_iff`**: the four ways in which performing a job can end.
* **`runOn_of_accepts`**: the same for every command line that is understood, and
  **`runOn_of_not_accepts`** for all others.
-/

namespace BootTable.Command

variable {tree : FileTree} {job : Job}

/-! ## Compiling -/

/-- The configuration that a run takes. -/
def configOf (config : Option FileReading) : Except Failure TableConfig :=
  match config with
  | none => .ok TableConfig.default
  | some reading => reading.config.mapError .config

theorem compile_eq (config : Option FileReading) (definitions : List FileReading) :
    compile config definitions =
      (Logged.ofExcept (configOf config) >>= fun names =>
        (FileReading.sources definitions).mapError .definitions >>= fun sources =>
          (generate sources names).mapError .build) :=
  rfl

theorem configOf_eq_ok_iff {given : Option String} {config : TableConfig} :
    configOf (given.map tree.reading) = .ok config ↔ tree.HasConfig given config := by
  cases given with
  | none =>
    constructor
    · intro h
      cases h
      exact .default
    · intro h
      cases h
      rfl
  | some path => exact mapError_eq_ok_iff.trans FileReading.config_reading_eq_ok_iff

theorem configOf_eq_error_iff {given : Option String} {failure : Failure} :
    configOf (given.map tree.reading) = .error failure ↔
      ∃ cause, tree.LacksConfig given cause ∧ failure = .config cause := by
  cases given with
  | none => exact ⟨nofun, fun ⟨_, h, _⟩ => nomatch h⟩
  | some path =>
    show (tree.reading path).config.mapError .config = .error failure ↔ _
    rw [mapError_eq_error_iff]
    exact exists_congr fun cause =>
      and_congr FileReading.config_reading_eq_error_iff eq_comm

/-- The files of a job make a table with the given text. -/
def MakesTable (tree : FileTree) (job : Job) (text : String) : Prop :=
  ∃ config sources, tree.HasConfig job.config config ∧ tree.HasSources job.definitions sources ∧
    (generate sources config).result = .ok text

/-- Why the files of a job make no table: one cause for each step, where all steps before it
succeed. -/
inductive MakesNone (tree : FileTree) (job : Job) : Failure → Prop
  | config {cause : FileError} (hlacks : tree.LacksConfig job.config cause) :
      MakesNone tree job (.config cause)
  | definitions {config : TableConfig} {earlier later : List String} {path : String}
      {problem : FileProblem} (hconfig : tree.HasConfig job.config config)
      (hsplit : job.definitions = earlier ++ path :: later)
      (hearlier : ∀ before ∈ earlier, ∃ table, tree.HasDocument before table)
      (hlacks : tree.LacksDocument path problem) :
      MakesNone tree job (.definitions ⟨path, problem⟩)
  | build {config : TableConfig} {sources : List Source} {cause : BuildError}
      (hconfig : tree.HasConfig job.config config)
      (hsources : tree.HasSources job.definitions sources)
      (hcause : (generate sources config).result = .error cause) :
      MakesNone tree job (.build cause)

/-- What a run compiles of the files of a job. -/
def compiledOf (tree : FileTree) (job : Job) : Logged Failure String :=
  compile (job.config.map tree.reading) (job.definitions.map tree.reading)

theorem result_compile_eq_ok_iff {text : String} :
    (compiledOf tree job).result = .ok text ↔ MakesTable tree job text := by
  unfold compiledOf MakesTable
  rw [compile_eq]
  simp only [Logged.result_bind_eq_ok_iff, Logged.result_ofExcept, configOf_eq_ok_iff,
    Logged.result_mapError_eq_ok_iff, FileReading.result_sources_eq_ok_iff]
  constructor
  · rintro ⟨config, hconfig, sources, hsources, htext⟩
    exact ⟨config, sources, hconfig, hsources, htext⟩
  · rintro ⟨config, sources, hconfig, hsources, htext⟩
    exact ⟨config, hconfig, sources, hsources, htext⟩

theorem MakesTable.text_unique {text other : String} (h : MakesTable tree job text)
    (hother : MakesTable tree job other) : text = other := by
  rw [← result_compile_eq_ok_iff] at h hother
  exact Except.ok.inj (h.symm.trans hother)

theorem result_compile_eq_error_iff {failure : Failure} :
    (compiledOf tree job).result = .error failure ↔ MakesNone tree job failure := by
  unfold compiledOf
  rw [compile_eq, Logged.result_bind_eq_error_iff, Logged.result_ofExcept, configOf_eq_error_iff]
  simp only [Logged.result_bind_eq_error_iff, configOf_eq_ok_iff,
    Logged.result_mapError_eq_ok_iff, Logged.result_mapError_eq_error_iff,
    FileReading.result_sources_eq_ok_iff, FileReading.result_sources_eq_error_iff]
  constructor
  · rintro (⟨cause, hlacks, rfl⟩ | ⟨config, hconfig,
      ⟨cause, ⟨earlier, path, later, problem, hsplit, hearlier, hlacks, rfl⟩, rfl⟩ |
      ⟨sources, hsources, cause, hcause, rfl⟩⟩)
    · exact .config hlacks
    · exact .definitions hconfig hsplit hearlier hlacks
    · exact .build hconfig hsources hcause
  · intro h
    cases h with
    | config hlacks => exact .inl ⟨_, hlacks, rfl⟩
    | definitions hconfig hsplit hearlier hlacks =>
      exact .inr ⟨_, hconfig, .inl ⟨_, ⟨_, _, _, _, hsplit, hearlier, hlacks, rfl⟩, rfl⟩⟩
    | build hconfig hsources hcause =>
      exact .inr ⟨_, hconfig, .inr ⟨_, hsources, _, hcause, rfl⟩⟩

/-! ## Performing a job -/

theorem run_mapM_reading_list (paths : List String) :
    (paths.mapM treeHost.reading).run tree = (paths.map tree.reading, tree) := by
  induction paths with
  | nil => rfl
  | cons path others ih =>
    rw [List.mapM_cons, StateT.run_bind, List.map_cons]
    show ((others.mapM treeHost.reading >>= _).run tree) = _
    rw [StateT.run_bind, ih]
    rfl

theorem run_mapM_reading_option (path : Option String) :
    (path.mapM treeHost.reading).run tree = (path.map tree.reading, tree) := by
  cases path <;> rfl

/-- The report of a job that ends with the given events. -/
def reportOf (tree : FileTree) (job : Job) (events : List Event) (failure : Option Failure) :
    Report :=
  { output := ""
    events := ((compiledOf tree job).events ++ events).filter (isShown job.verbosity)
    failure }

/-- Reading leaves the tree as it is, so what a job comes to depends on what it compiles and on
whether the file can be replaced. -/
theorem run_perform : (treeHost.perform job).run tree =
    match (compiledOf tree job).result, job.destination with
    | .error failure, _ => (reportOf tree job [] (some failure), tree)
    | .ok _, none => (reportOf tree job [.registryAccepted] none, tree)
    | .ok text, some path =>
      match tree.replace path text with
      | .error fault =>
        (reportOf tree job [] (some (.output { path, problem := .unavailable fault })), tree)
      | .ok after => (reportOf tree job (writingEvents path text) none, after) := by
  unfold Host.perform
  -- All files are read first, and reading returns the tree that it was given.
  rw [StateT.run_bind, run_mapM_reading_option]
  show ((job.definitions.mapM treeHost.reading >>= _).run tree) = _
  rw [StateT.run_bind, run_mapM_reading_list]
  show StateT.run (match (compiledOf tree job).result, job.destination with
    | .error failure, _ => _
    | .ok _, none => _
    | .ok text, some path => _) tree = _
  cases (compiledOf tree job).result with
  | error failure => rfl
  | ok text =>
    cases job.destination with
    | none => rfl
    | some path =>
      have hreplace : (treeHost.replace path text).run tree =
          match tree.replace path text with
          | .error fault => (.error fault, tree)
          | .ok changed => (.ok (), changed) := rfl
      show StateT.run (treeHost.replace path text >>= _) tree = _
      rw [StateT.run_bind, hreplace]
      cases hanswer : tree.replace path text <;> simp only [hanswer] <;> rfl

/-- Why a job fails: its files make no table, or the table cannot be put where it should be. -/
inductive FailsWith (tree : FileTree) (job : Job) : Failure → Prop
  | rejected {failure : Failure} (hcause : MakesNone tree job failure) :
      FailsWith tree job failure
  | unwritten {text path : String} {fault : FileFault} (htext : MakesTable tree job text)
      (hdestination : job.destination = some path)
      (hfault : tree.replace path text = .error fault) :
      FailsWith tree job (.output ⟨path, .unavailable fault⟩)

/-- The ways in which performing a job on a tree can end: with a failure or without, and with a
tree. -/
inductive Performs (tree : FileTree) (job : Job) : Option Failure → FileTree → Prop
  | failed {failure : Failure} (hfails : FailsWith tree job failure) :
      Performs tree job (some failure) tree
  | checked {text : String} (htext : MakesTable tree job text)
      (hdestination : job.destination = none) : Performs tree job none tree
  | written {text path : String} {after : FileTree} (htext : MakesTable tree job text)
      (hdestination : job.destination = some path)
      (hreplace : tree.replace path text = .ok after) : Performs tree job none after

theorem performs_iff {failure : Option Failure} {after : FileTree} :
    Performs tree job failure after ↔ ((treeHost.perform job).run tree).1.failure = failure ∧
      ((treeHost.perform job).run tree).2 = after := by
  rw [run_perform]
  constructor
  · intro h
    cases h with
    | failed hfails =>
      cases hfails with
      | rejected hcause =>
        rw [result_compile_eq_error_iff.mpr hcause]
        exact ⟨rfl, rfl⟩
      | unwritten htext hdestination hfault =>
        rw [result_compile_eq_ok_iff.mpr htext, hdestination]
        simp only [hfault, reportOf, and_self]
    | checked htext hdestination =>
      rw [result_compile_eq_ok_iff.mpr htext, hdestination]
      exact ⟨rfl, rfl⟩
    | written htext hdestination hreplace =>
      rw [result_compile_eq_ok_iff.mpr htext, hdestination]
      simp only [hreplace, reportOf, and_self]
  · rintro ⟨rfl, rfl⟩
    cases hcompiled : (compiledOf tree job).result with
    | error cause => exact .failed (.rejected (result_compile_eq_error_iff.mp hcompiled))
    | ok text =>
      have htext := result_compile_eq_ok_iff.mp hcompiled
      cases hdestination : job.destination with
      | none => exact .checked htext hdestination
      | some path =>
        cases hreplace : tree.replace path text with
        | error fault =>
          simp only [hreplace]
          exact .failed (.unwritten htext hdestination hreplace)
        | ok changed =>
          simp only [hreplace]
          exact .written htext hdestination hreplace

theorem performs_some_iff {failure : Failure} {after : FileTree} :
    Performs tree job (some failure) after ↔ FailsWith tree job failure ∧ after = tree := by
  constructor
  · intro h
    cases h with
    | failed hfails => exact ⟨hfails, rfl⟩
  · rintro ⟨hfails, rfl⟩
    exact .failed hfails

/-- A job that does not fail has a table, and only the file to write has changed. -/
theorem Performs.exists_table {after : FileTree} (h : Performs tree job none after) :
    ∃ text, MakesTable tree job text ∧ (job.destination = none ∧ after = tree ∨
      ∃ path, job.destination = some path ∧ FileTree.Replaced path text tree after) := by
  cases h with
  | checked htext hdestination => exact ⟨_, htext, .inl ⟨hdestination, rfl⟩⟩
  | written htext hdestination hreplace =>
    exact ⟨_, htext, .inr ⟨_, hdestination, FileTree.replaced_of_replace hreplace⟩⟩

/-! ## The command line -/

/-- The directory of the file named for writing is there, or its path is a lone name. -/
def HasDirectory (tree : FileTree) (output : Option String) : Prop :=
  ∀ parent, output.bind Path.parent? = some parent → parent = "" ∨ tree.isDirectory parent = true

/-- A file with a lone name is made in the directory that relative paths start from. -/
theorem hasDirectory_of_lone {path : String} (h : Path.parent? path = some "") :
    HasDirectory tree (some path) := by
  intro parent hparent
  cases h.symm.trans hparent
  exact .inl rfl

theorem run_outputFault? (tree : FileTree) (output : Option String) : ∃ fault,
    (treeHost.outputFault? output).run tree = (fault, tree) ∧
      (fault = none ↔ HasDirectory tree output) := by
  unfold HasDirectory
  cases output with
  | none => exact ⟨none, rfl, by simp⟩
  | some path =>
    rw [Option.bind_some]
    unfold Host.outputFault?
    cases hparent : Path.parent? path with
    | none =>
      simp only [hparent]
      exact ⟨none, rfl, by simp⟩
    | some parent =>
      simp only [hparent]
      by_cases hlone : parent = ""
      · rw [if_pos hlone]
        exact ⟨none, rfl, by simp [hlone]⟩
      · have hanswer : (treeHost.isDirectory parent).run tree = (tree.isDirectory parent, tree) :=
          rfl
        rw [if_neg hlone, StateT.run_bind, hanswer]
        cases hdirectory : tree.isDirectory parent with
        | true => exact ⟨none, rfl, by simp [hdirectory]⟩
        | false => exact ⟨some (.noDirectory parent), rfl, by simp [hdirectory, hlone]⟩

/-- The command line is understood, the file that it names for writing has a directory, and it asks
for the job. -/
def Accepts (tree : FileTree) (arguments : List String) (job : Job) : Prop :=
  ∃ output, Invocation.ofArguments arguments = .ok ⟨output, .compile job⟩ ∧
    HasDirectory tree output

theorem Accepts.job_unique {arguments : List String} {other : Job}
    (h : Accepts tree arguments job) (hother : Accepts tree arguments other) : job = other := by
  obtain ⟨output, harguments, -⟩ := h
  obtain ⟨output', harguments', -⟩ := hother
  cases harguments.symm.trans harguments'
  rfl

/-- A run performs the job that it accepts, and does nothing to the tree if there is none. -/
theorem runOn_cases (tree : FileTree) (arguments : List String) :
    (∃ job, Accepts tree arguments job ∧ runOn tree arguments = (treeHost.perform job).run tree) ∨
      (∀ job, ¬Accepts tree arguments job) ∧ (runOn tree arguments).2 = tree := by
  unfold Accepts runOn Host.run
  cases harguments : Invocation.ofArguments arguments with
  | error cause => exact .inr ⟨by simp, rfl⟩
  | ok invocation =>
    obtain ⟨output, request⟩ := invocation
    obtain ⟨fault, hrun, hfault⟩ := run_outputFault? tree output
    simp only
    rw [StateT.run_bind, hrun]
    cases fault with
    | some cause =>
      refine .inr ⟨?_, rfl⟩
      rintro job ⟨named, heq, hdirectory⟩
      cases heq
      exact absurd (hfault.mpr hdirectory) (Option.some_ne_none cause)
    | none =>
      cases request with
      | version => exact .inr ⟨by simp, rfl⟩
      | help => exact .inr ⟨by simp, rfl⟩
      | compile job => exact .inl ⟨job, ⟨output, rfl, hfault.mp rfl⟩, rfl⟩

theorem runOn_eq_perform {arguments : List String} (h : Accepts tree arguments job) :
    runOn tree arguments = (treeHost.perform job).run tree := by
  rcases runOn_cases tree arguments with ⟨other, hother, hrun⟩ | ⟨hnone, -⟩
  · rw [h.job_unique hother, hrun]
  · exact absurd h (hnone job)

theorem runOn_of_not_accepts {arguments : List String}
    (h : ∀ job, ¬Accepts tree arguments job) : (runOn tree arguments).2 = tree := by
  rcases runOn_cases tree arguments with ⟨job, haccepts, -⟩ | ⟨-, hrun⟩
  · exact absurd haccepts (h job)
  · exact hrun

/-- A run that is asked for a job fails with the first step that fails, and leaves the tree as it
is then. Otherwise it replaces the file to write with the text of the table, or nothing at all if
the definitions were only to be checked. -/
theorem runOn_of_accepts {arguments : List String} (h : Accepts tree arguments job) :
    (∃ output, Asks (items arguments) output job) ∧
      (∀ failure,
        (runOn tree arguments).1.failure = some failure ↔ FailsWith tree job failure) ∧
      ((runOn tree arguments).1.failure ≠ none → (runOn tree arguments).2 = tree) ∧
      ((runOn tree arguments).1.failure = none → ∃ text, MakesTable tree job text ∧
        (job.destination = none ∧ (runOn tree arguments).2 = tree ∨
          ∃ path, job.destination = some path ∧
            FileTree.Replaced path text tree (runOn tree arguments).2)) := by
  have hperforms {failure : Option Failure} {after : FileTree} : Performs tree job failure after ↔
      (runOn tree arguments).1.failure = failure ∧ (runOn tree arguments).2 = after := by
    rw [runOn_eq_perform h]
    exact performs_iff
  refine ⟨?asks, fun failure => ⟨fun hfailure => ?reason, fun hfails => ?fails⟩,
    fun hfailed => ?kept, fun hdone => ?written⟩
  case asks =>
    obtain ⟨output, harguments, -⟩ := h
    exact ⟨output, asks_of_ofArguments harguments⟩
  case reason => exact (performs_some_iff.mp (hperforms.mpr ⟨hfailure, rfl⟩)).1
  case fails => exact (hperforms.mp (.failed hfails)).1
  case kept =>
    obtain ⟨failure, hfailure⟩ := Option.ne_none_iff_exists'.mp hfailed
    exact (performs_some_iff.mp (hperforms.mpr ⟨hfailure, rfl⟩)).2
  case written => exact (hperforms.mpr ⟨hdone, rfl⟩).exists_table

/-- A text that is made has the row of every entry of the plan on a line of its own. -/
theorem row_mem_linesOf_of_generate {sources : List Source} {config : TableConfig} {text : String}
    {registry : Registry} {entry : Entry} (hconfig : config.OneLine)
    (htext : (generate sources config).result = .ok text)
    (hload : (Registry.load sources).result = .ok registry)
    (hentry : entry ∈ flatten registry.planOf registry) :
    (TableText.row entry).toList ∈ Text.linesOf text := by
  obtain ⟨loaded, hloaded, -, hrendered⟩ := generate_eq_ok_iff.mp htext
  cases hload.symm.trans hloaded
  rw [hrendered]
  exact TableText.row_mem_linesOf_render hconfig hentry

/-- A definition file with one component. -/
def busDefinition : String :=
  "[bus]\nname = \x22Bus\x22\nrequired = true\nper_cpu = false\nphase = \x22core_devices\x22\n"
    ++ "routine = \x22bus::start\x22\n"

/-- The row of that component. -/
def busRow : String :=
  "\t\t\x7b .name = \x22Bus\x22, .bootstrap_initializer = bus::start, "
    ++ ".ap_initializer = bus::start, .flags = CF_REQUIRED, "
    ++ ".logging_importance = LoggingImportance::DEBUG \x7d,"

/-- A directory with that file. -/
def workshop : FileTree where
  origin := ["work"]
  nodes := [(["work"], .directory), (["work", "init.toml"], .file busDefinition.toUTF8)]

theorem exists_text_of_busDefinition : ∃ table text, Toml.parse busDefinition = some table ∧
    (generate [⟨"init.toml", table⟩] .default).result = .ok text ∧
    busRow.toList ∈ Text.linesOf text := by
  let entry : Entry := {
    name := "Bus"
    kind := .component ⟨"bus"⟩ ⟨"bus::start", by decide⟩ ⟨"bus::start", by decide⟩
    flags := .required
    importance := .debug }
  have hrow : TableText.row entry = busRow := by decide +kernel
  have hmade : ((Toml.parse busDefinition).map fun table =>
      (generate [⟨"init.toml", table⟩] .default).result.isOk) = some true := by decide +kernel
  have hlisted : ((Toml.parse busDefinition).map fun table =>
      (Registry.load [⟨"init.toml", table⟩]).result.map fun registry =>
        decide (entry ∈ flatten registry.planOf registry)) = some (.ok true) := by decide +kernel
  obtain ⟨table, htable, hok⟩ := Option.map_eq_some_iff.mp hmade
  obtain ⟨text, htext⟩ := isOk_iff.mp hok
  rw [htable, Option.map_some, Option.some.injEq, map_eq_ok_iff] at hlisted
  obtain ⟨registry, hload, hentry⟩ := hlisted
  refine ⟨table, text, htable, htext, ?_⟩
  rw [← hrow]
  exact row_mem_linesOf_of_generate (by decide) htext hload (of_decide_eq_true hentry)

/-- A table may take the place of its own definitions, but not where a later file is missing. -/
theorem runOn_of_accepts_workshop :
    (∃ text, busRow.toList ∈ Text.linesOf text ∧ FileTree.Replaced "init.toml" text workshop
        (runOn workshop ["--output", "init.toml", "init.toml"]).2) ∧
      (runOn workshop ["--output", "init.toml", "init.toml", "gone.toml"]).1.failure =
        some (.definitions ⟨"gone.toml", .unavailable .notFound⟩) ∧
      (runOn workshop ["--output", "init.toml", "init.toml", "gone.toml"]).2 = workshop := by
  obtain ⟨table, text, htable, htext, hrow⟩ := exists_text_of_busDefinition
  have hlone : Path.parent? "init.toml" = some "" := by decide +kernel
  have hinit : workshop.HasDocument "init.toml" table := by
    have hlocate : workshop.locate "init.toml" = .ok ["work", "init.toml"] := by
      rw [workshop.locate_eq_foldlM (by decide +kernel)]
      decide +kernel
    have hfile : workshop.node? ["work", "init.toml"] = some (.file busDefinition.toUTF8) := rfl
    refine ⟨busDefinition, ?_, htable⟩
    unfold FileTree.read
    rw [hlocate]
    exact FileTree.textAt_eq_ok_of_utf8 hfile
  refine ⟨?alone, ?missing⟩
  case alone =>
    have haccepts : Accepts workshop ["--output", "init.toml", "init.toml"]
        ⟨none, ["init.toml"], some "init.toml", 0⟩ :=
      ⟨some "init.toml", by decide +kernel, hasDirectory_of_lone hlone⟩
    have hdraft : workshop.draft "init.toml" = .ok ["work", ".tmpXXXXXX"] := by
      unfold FileTree.draft
      rw [workshop.locate_eq_foldlM (by decide +kernel)]
      decide +kernel
    have htarget : workshop.target "init.toml" = .ok ["work", "init.toml"] := by
      unfold FileTree.target
      rw [FileTree.textFault?_eq_none_iff.mpr (by decide +kernel)]
      decide +kernel
    have hreplace := FileTree.replace_eq_ok_iff.mpr ⟨⟨_, hdraft⟩, _, htarget, Eq.refl
      (workshop.put ["work", "init.toml"] (.file text.toUTF8))⟩
    have hmakes : MakesTable workshop ⟨none, ["init.toml"], some "init.toml", 0⟩ text :=
      ⟨_, _, .default, .cons ⟨rfl, hinit⟩ .nil, htext⟩
    have hdone : (runOn workshop ["--output", "init.toml", "init.toml"]).1.failure = none := by
      rw [runOn_eq_perform haccepts]
      exact (performs_iff.mp (.written hmakes rfl hreplace)).1
    obtain ⟨written, hwritten, ⟨hnone, -⟩ | ⟨path, hpath, hreplaced⟩⟩ :=
      (runOn_of_accepts haccepts).2.2.2 hdone
    · cases hnone
    · cases hpath
      rw [hwritten.text_unique hmakes] at hreplaced
      exact ⟨text, hrow, hreplaced⟩
  case missing =>
    have haccepts : Accepts workshop ["--output", "init.toml", "init.toml", "gone.toml"]
        ⟨none, ["init.toml", "gone.toml"], some "init.toml", 0⟩ :=
      ⟨some "init.toml", by decide +kernel, hasDirectory_of_lone hlone⟩
    have hgone : workshop.LacksDocument "gone.toml" (.unavailable .notFound) := by
      refine .unavailable ?_
      unfold FileTree.read
      rw [workshop.locate_eq_foldlM (by decide +kernel)]
      decide +kernel
    have hsplit : ["init.toml", "gone.toml"] = ["init.toml"] ++ "gone.toml" :: [] := rfl
    obtain ⟨-, hfailure, hkept, -⟩ := runOn_of_accepts haccepts
    have hfailed := (hfailure _).mpr (.rejected (.definitions .default hsplit
      (List.forall_mem_singleton.mpr ⟨table, hinit⟩) hgone))
    refine ⟨hfailed, hkept ?_⟩
    rw [hfailed]
    exact Option.some_ne_none _

end BootTable.Command
