import BootTable.FileTree
import BootTable.Log
import BootTable.Source
import BootTable.TableText.Config
import BootTable.Toml.Document

/-!
# BootTable — definitions and configurations in files

What was read from a file, good or bad, stands for a source or for a configuration. Files are taken
from left to right, and the first one that stands for nothing decides the failure.
-/

namespace BootTable

/-- A file that was asked for, with its text or the reason why it has none. -/
structure FileReading where
  path : String
  content : Except FileFault String

def FileTree.reading (tree : FileTree) (path : String) : FileReading :=
  { path, content := tree.read path }

/-- What is wrong with a file. -/
inductive FileProblem where
  | unavailable (fault : FileFault)
  | notADocument
  /-- The document does not have the fields that it should. -/
  | wrongFields (fault : Toml.FieldFault)
deriving DecidableEq, Repr

/-- What is wrong with a file, and with which. -/
structure FileError where
  path : String
  problem : FileProblem
deriving DecidableEq, Repr

/-- The wording of a problem. The fields are those of a configuration. -/
def FileProblem.message : FileProblem → String
  | unavailable fault => fault.message
  | notADocument => "not a TOML document"
  | wrongFields fault => fault.message TableConfig.keys

def FileError.message (cause : FileError) : String :=
  cause.path ++ ": " ++ cause.problem.message

namespace FileReading

/-- The failure that a problem of the file causes. -/
def failure (reading : FileReading) (problem : FileProblem) : FileError :=
  { path := reading.path, problem }

def document (reading : FileReading) : Except FileError Toml.Table :=
  match reading.content with
  | .error fault => .error (reading.failure (.unavailable fault))
  | .ok text =>
    match Toml.parse text with
    | none => .error (reading.failure .notADocument)
    | some table => .ok table

/-- The source that the file stands for; the path is its name. -/
def source (reading : FileReading) : Logged FileError Source := do
  let table ← .ofExcept reading.document
  .report (.definitionsRead reading.path table.length)
  return { origin := reading.path, table }

/-- The sources that files stand for, from left to right. -/
def sources : List FileReading → Logged FileError (List Source)
  | [] => pure []
  | reading :: others => do
    let first ← reading.source
    return first :: (← sources others)

/-- The configuration that the file stands for. -/
def config (reading : FileReading) : Except FileError TableConfig := do
  let table ← reading.document
  match TableConfig.ofDocument table with
  | .error fault => throw (reading.failure (.wrongFields fault))
  | .ok config => return config

end FileReading

end BootTable
