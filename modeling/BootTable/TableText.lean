import BootTable.TableText.CString
import BootTable.TableText.Config
import BootTable.TableText.Declarations

/-!
# BootTable — the text of the table

The table as a source file of the kernel, line by line: the header, the declarations of all
routines, one row for every entry, the entry that ends the table, and the array that has a place for
every row and one more.
-/

namespace BootTable.TableText

/-- The references to the routines of an entry; one without routines has null pointers. -/
def references (entry : Entry) : String × String :=
  match entry.routines? with
  | none => ("nullptr", "nullptr")
  | some (bootstrap, ap) => (bootstrap.text, ap.text)

def row (entry : Entry) : String :=
  "\t\t\x7b .name = \x22" ++ CString.escape entry.name
    ++ "\x22, .bootstrap_initializer = " ++ (references entry).1
    ++ ", .ap_initializer = " ++ (references entry).2
    ++ ", .flags = " ++ entry.flags.text
    ++ ", .logging_importance = LoggingImportance::" ++ entry.importance.key ++ " \x7d,"

def lines (entries : List Entry) (config : TableConfig) : List String :=
  ["#include <" ++ config.header ++ ">"]
    ++ (Declarations.ofRoutines (routinesOf entries)).lines
    ++ ["namespace " ++ config.scope ++ " \x7b",
      "\tconst " ++ config.entryType ++ " " ++ config.tableName ++ "[] = \x7b"]
    ++ entries.map row
    ++ ["\t\t" ++ config.sentinel,
      "\t\x7d;",
      "\tAtomic<bool> " ++ config.completionArray ++ "["
        ++ Text.decimal 1 (entries.length + 1) ++ "];",
      "\x7d"]

/-- The text of the table; every line has its end. -/
def render (entries : List Entry) (config : TableConfig) : String :=
  String.join ((lines entries config).map fun line => line ++ "\n")

end BootTable.TableText
