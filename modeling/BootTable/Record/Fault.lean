import BootTable.Text.Quoted

/-!
# BootTable — faults of records

Why a definition record makes no component, and how the diagnostics word it.
-/

namespace BootTable

/-- What is wrong with a definition record. -/
inductive Fault where
  | notATable
  | missingKeys (keys : List String)
  | unknownKeys (keys : List String)
  | invalidField (detail : String)
  | globalMissingRoutine
  /-- A per-CPU component lacks a routine for one kind of processor or for both. -/
  | perCpuMissingRoutine
  /-- One routine for both kinds of processor stands beside a routine for one of them. -/
  | ambiguousRoutines
  | invalidRoutine (reference : String)
  | invalidPhase (key : String)
  | invalidImportance (key : String)
  /-- A global component has needs that only application processors can have. -/
  | apNeedsOnGlobal
deriving DecidableEq, Repr

def Fault.message : Fault → String
  | notATable => "definition is not a table"
  | missingKeys keys => "missing required keys: " ++ ", ".intercalate keys
  | unknownKeys keys => "invalid keys: " ++ ", ".intercalate keys
  | invalidField detail => "invalid field value: " ++ detail
  | globalMissingRoutine => "global component is missing `routine`"
  | perCpuMissingRoutine => "per-cpu component is missing its bootstrap or ap routine"
  | ambiguousRoutines =>
    "ambiguous routines: `routine` cannot be combined with `bootstrap_routine` or `ap_routine`"
  | invalidRoutine reference => "invalid routine reference " ++ Text.backquoted reference
  | invalidPhase key => "invalid phase " ++ Text.backquoted key
  | invalidImportance key => "invalid logging importance " ++ Text.backquoted key
  | apNeedsOnGlobal => "global component specifies AP-specific capability dependencies"

end BootTable
