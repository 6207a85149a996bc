import BootTable.Command

/-!
# BootTable — the program

The command on the machine's own files.
-/

namespace BootTable.Program

open BootTable.Command

/-- The fault that an error of the operating system stands for. -/
def faultOf (error : IO.Error) : FileFault :=
  match error with
  | .noFileOrDirectory .. => .notFound
  | .inappropriateType _ 20 _ => .notADirectory
  | .inappropriateType _ 21 _ => .isADirectory
  | .resourceBusy .. => .busy
  | .invalidArgument _ 36 _ => .nameTooLong
  | other => .unexpected (toString other)

def attempt {α : Type} (action : IO α) : IO (Except FileFault α) :=
  try
    return .ok (← action)
  catch error =>
    return .error (faultOf error)

def readText (path : String) : IO (Except FileFault String) := do
  match ← attempt (IO.FS.readBinFile path) with
  | .error fault => return .error fault
  | .ok content =>
    match String.fromUTF8? content with
    | none => return .error .notUtf8
    | some text => return .ok text

/-- A directory has the path: its name for itself can be opened, but not read. -/
def isDirectory (path : String) : IO Bool := do
  match ← attempt (IO.FS.readBinFile (path ++ "/.")) with
  | .error .isADirectory => return true
  | _ => return false

/-- Writes a file beside the one to replace and lets it take its place. -/
def replaceFile (path text : String) : IO Unit := do
  let mark := Text.decimal 6 ((← IO.monoNanosNow) % 1000000)
  let draft := Path.draft (toString (← IO.currentDir)) path mark
  IO.FS.writeFile draft text
  try
    IO.FS.rename draft path
  catch error =>
    IO.FS.removeFile draft
    throw error

def machine : Host IO where
  isDirectory := isDirectory
  read := readText
  replace path text := attempt (replaceFile path text)

end BootTable.Program

def main (arguments : List String) : IO UInt32 := do
  let report ← BootTable.Program.machine.run arguments
  IO.print report.output
  for event in report.events do
    IO.eprintln event.line
  if let some failure := report.failure then
    for line in failure.lines do
      IO.eprintln line
  return UInt32.ofNat report.code
