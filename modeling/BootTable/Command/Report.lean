import BootTable.Command.Usage
import BootTable.FileReading
import BootTable.Generate

/-!
# BootTable — reports of a run

What a run of the command leaves besides files: its exit code, what it prints, the events that it
shows and the lines that say why it failed.
-/

namespace BootTable.Command

/-- Why a run fails. -/
inductive Failure where
  | usage (cause : UsageError)
  | config (cause : FileError)
  | definitions (cause : FileError)
  | build (cause : BuildError)
  | output (cause : FileError)
deriving DecidableEq, Repr

namespace Failure

def code : Failure → Nat
  | usage _ => 2
  | _ => 1

def context : Failure → String
  | usage cause => cause.message
  | config _ => "failed to load encoder configuration"
  | definitions _ => "failed to read component definitions"
  | build _ => "component registry rejected"
  | output _ => "failed to write init table"

/-- The causes, from the outermost to the innermost. -/
def causes : Failure → List String
  | usage _ => []
  | build cause => [cause.message]
  | config cause | definitions cause | output cause => [cause.message, cause.problem.message]

/-- A text with its lines moved to the right: the first one behind a mark, the others by as many
blanks. -/
def indented (mark : String) (text : String) : List String :=
  match text.splitOn "\n" with
  | [] => []
  | first :: others =>
    (mark ++ first) :: others.map fun line => String.ofList (List.replicate mark.length ' ') ++ line

/-- The lines of the causes; several are numbered. -/
def causeLines : List String → List String
  | [] => []
  | [cause] => indented "    " cause
  | causes =>
    (causes.zipIdx.map fun (cause, n) => indented ("    " ++ Text.decimal 1 n ++ ": ") cause).flatten

def lines (failure : Failure) : List String :=
  if failure.causes = [] then ["error: " ++ failure.context]
  else ["Error: " ++ failure.context, "", "Caused by:"] ++ causeLines failure.causes

end Failure

/-- What a run leaves besides files. -/
structure Report where
  output : String
  events : List Event
  failure : Option Failure
deriving DecidableEq, Repr

def Report.code (report : Report) : Nat :=
  match report.failure with
  | none => 0
  | some failure => failure.code

/-- The report of a run that prints a text and stops. -/
def Report.ofOutput (output : String) : Report :=
  { output, events := [], failure := none }

/-- The report of a run that fails before anything else. -/
def Report.ofFailure (failure : Failure) : Report :=
  { output := "", events := [], failure := some failure }

/-- The event is shown when more of the log was asked for as often as given. -/
def isShown (verbosity : Nat) (event : Event) : Bool :=
  match event.level with
  | .warn => true
  | .info => 1 ≤ verbosity
  | .debug => 2 ≤ verbosity
  | .trace => 3 ≤ verbosity

end BootTable.Command
