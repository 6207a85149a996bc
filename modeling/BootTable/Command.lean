import BootTable.Command.Arguments
import BootTable.Command.Report

/-!
# BootTable — a run of the command

A run reads the configuration and the definition files, compiles them and replaces the output file
if everything went well and the table is wanted. What a run does to files goes through a host: the
machine's files or a `FileTree`.
-/

namespace BootTable.Command

def version : String := "0.1.0"

def programName : String := "initgen"

def versionText : String :=
  programName ++ " " ++ version ++ "\n"

def helpText : String :=
  "Compile kernel init component definitions into the boot-time init table\n\n"
    ++ "Usage: " ++ programName ++ " [OPTIONS] --output <OUTPUT> <DEFINITIONS>...\n\n"
    ++ "Arguments:\n"
    ++ "  <DEFINITIONS>...  Component definition files, merged in the given order\n\n"
    ++ "Options:\n"
    ++ "  -o, --output <OUTPUT>  Generated C++ source\n"
    ++ "      --check            Validate only; write nothing\n"
    ++ "      --config <CONFIG>  Encoder configuration (TOML)\n"
    ++ "  -v, --verbose...       Increase log verbosity (-v info, -vv debug, -vvv trace)\n"
    ++ "  -h, --help             Print help\n"
    ++ "  -V, --version          Print version\n"

/-- What a run asks of the files around it. -/
structure Host (m : Type → Type) where
  isDirectory : String → m Bool
  read : String → m (Except FileFault String)
  /-- Replaces a file in one step. -/
  replace : String → String → m (Except FileFault Unit)

/-- The files of a tree, which only replacing changes. -/
def treeHost : Host (StateM FileTree) where
  isDirectory path := do return (← get).isDirectory path
  read path := do return (← get).read path
  replace path text := fun tree =>
    match tree.replace path text with
    | .error fault => (.error fault, tree)
    | .ok changed => (.ok (), changed)

/-- The text that readings of the configuration, if there is one, and of the definition files stand
for. -/
def compile (config : Option FileReading) (definitions : List FileReading) :
    Logged Failure String := do
  let names ← .ofExcept <|
    match config with
    | none => .ok TableConfig.default
    | some reading => reading.config.mapError .config
  let sources ← (FileReading.sources definitions).mapError .definitions
  (generate sources names).mapError .build

/-- The events that follow a table's being written. -/
def writingEvents (path text : String) : List Event :=
  [.fileReplaced path text.utf8ByteSize, .tableWritten path]

section

variable {m : Type → Type} [Monad m]

/-- Reads a file and keeps its path with the answer. -/
def Host.reading (host : Host m) (path : String) : m FileReading := do
  return { path, content := ← host.read path }

/-- The cause for which the file named for writing refuses the command line, if there is one: the
directory of a path must be there, unless the path is a lone name. -/
def Host.outputFault? (host : Host m) : Option String → m (Option UsageError)
  | none => pure none
  | some output =>
    match Path.parent? output with
    | none => pure none
    | some parent => do
      if parent = "" then return none
      else if ← host.isDirectory parent then return none
      else return some (.noDirectory parent)

def Host.perform (host : Host m) (job : Job) : m Report := do
  let config ← job.config.mapM host.reading
  let definitions ← job.definitions.mapM host.reading
  let compiled := compile config definitions
  let report (events : List Event) (failure : Option Failure) : Report :=
    { output := "", events := (compiled.events ++ events).filter (isShown job.verbosity), failure }
  match compiled.result, job.destination with
  | .error failure, _ => return report [] (some failure)
  | .ok _, none => return report [.registryAccepted] none
  | .ok text, some path =>
    match ← host.replace path text with
    | .error fault => return report [] (some (.output { path, problem := .unavailable fault }))
    | .ok () => return report (writingEvents path text) none

def Host.run (host : Host m) (arguments : List String) : m Report := do
  match Invocation.ofArguments arguments with
  | .error cause => return .ofFailure (.usage cause)
  | .ok invocation =>
    match ← host.outputFault? invocation.output with
    | some cause => return .ofFailure (.usage cause)
    | none =>
      match invocation.request with
      | .version => return .ofOutput versionText
      | .help => return .ofOutput helpText
      | .compile job => host.perform job

end

/-- A run on a file tree: its report and the tree that it leaves. -/
def runOn (tree : FileTree) (arguments : List String) : Report × FileTree :=
  (treeHost.run arguments).run tree

end BootTable.Command
