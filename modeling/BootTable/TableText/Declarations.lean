import BootTable.Entry
import BootTable.Text.Sorted

/-!
# BootTable — forward declarations

Every routine that the table refers to is declared above it: the top-level functions first, then
scope by scope, both the scopes and the functions of each in increasing order. The declarations thus
depend on nothing but the set of routines.
-/

namespace BootTable

/-- The functions to declare: those at top level, and those of every scope. -/
structure Declarations where
  topLevel : List String
  scopes : List (String × List String)
deriving DecidableEq, Repr

namespace Declarations

/-- The functions of a scope, or of the top level, in increasing order. -/
def functionsIn (scope? : Option String) (routines : List Routine) : List String :=
  Text.sortDistinct ((routines.filter fun routine => routine.scope? = scope?).map Routine.function)

def ofRoutines (routines : List Routine) : Declarations :=
  { topLevel := functionsIn none routines
    scopes := (Text.sortDistinct (routines.filterMap Routine.scope?)).map fun scope =>
      (scope, functionsIn (some scope) routines) }

def functionLine (function : String) : String :=
  "extern bool " ++ function ++ "();"

/-- The lines of a scope, with an empty line after it. -/
def scopeLines (scope : String × List String) : List String :=
  ["namespace " ++ scope.1 ++ " \x7b"]
    ++ (scope.2.map fun function => "\t" ++ functionLine function)
    ++ ["\x7d", ""]

def lines (declarations : Declarations) : List String :=
  declarations.topLevel.map functionLine ++ declarations.scopes.flatMap scopeLines

end Declarations

/-- The routines that entries refer to, in the order of the entries. -/
def routinesOf (entries : List Entry) : List Routine :=
  (entries.filterMap Entry.routines?).flatMap fun routines => [routines.1, routines.2]

end BootTable
