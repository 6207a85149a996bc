/-!
# BootTable — path texts

A path is a text of names with slashes between them; one that begins with a slash starts at the
root. Empty names and single points stand for the directory that they are found in.
-/

namespace BootTable.Path

/-- The texts between the slashes. -/
def segments (path : String) : List String :=
  (path.toList.splitOn '/').map String.ofList

/-- The path starts at the root. -/
def isAbsolute (path : String) : Bool :=
  path.startsWith "/"

/-- The name of the directory itself. -/
def self : String := "."

/-- The name of the directory above. -/
def above : String := ".."

/-- The segment stands for the directory that it is found in. -/
def isIdle (segment : String) : Bool :=
  segment = "" ∨ segment = self

/-- The segments up to the last one that is a name. -/
def trimmed (segments : List String) : List String :=
  (segments.reverse.dropWhile isIdle).reverse

/-- The path of the directory that holds what a path names, which is a leading part of that path; the
root and the empty path have none. The directory of a lone name is the empty path, and a point at the
beginning counts as a name. -/
def parent? (path : String) : Option String :=
  match segments path with
  | [] => none
  | first :: others =>
    match trimmed others with
    | [] => if first = "" then none else some ""
    | named =>
      let leading := trimmed named.dropLast
      some (if first = "" ∧ leading = [] then "/" else "/".intercalate (first :: leading))

/-- The path of the directory in which a file with the given path is made. -/
def directory (path : String) : String :=
  match parent? path with
  | none => self
  | some parent => if parent = "" then self else parent

/-- The path that leads on from where another one ends. An absolute path stays as it is. -/
def join (base path : String) : String :=
  if isAbsolute path then path
  else if base = "" ∨ base.endsWith "/" then base ++ path
  else base ++ "/" ++ path

/-- The path, from the root on, of a draft: a file that is made beside the one with the given path.
Relative paths start from `start`, and a mark of six characters tells the drafts of a directory
apart. -/
def draft (start path mark : String) : String :=
  join (join start (directory path)) (".tmp" ++ mark)

end BootTable.Path
