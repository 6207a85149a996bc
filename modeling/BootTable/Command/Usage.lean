import BootTable.Text.Quoted

/-!
# BootTable — options of the command line

The options that take a value, the flags that do not, and the faults of a command line that refuse
it before anything is read.
-/

namespace BootTable.Command

/-- An option that takes a value. -/
inductive ValueOption where
  | output
  /-- The file with the names of the table's surroundings. -/
  | config
deriving DecidableEq, Repr

/-- An option without a value. -/
inductive Flag where
  | check
  /-- Show more of the log; may be repeated. -/
  | verbose
  | version
  | help
deriving DecidableEq, Repr

namespace ValueOption

def ofName? : String → Option ValueOption
  | "output" => some output
  | "config" => some config
  | _ => none

def ofLetter? : Char → Option ValueOption
  | 'o' => some output
  | _ => none

def shown : ValueOption → String
  | output => "--output"
  | config => "--config"

end ValueOption

namespace Flag

def ofName? : String → Option Flag
  | "check" => some check
  | "verbose" => some verbose
  | "version" => some version
  | "help" => some help
  | _ => none

def ofLetter? : Char → Option Flag
  | 'v' => some verbose
  | 'V' => some version
  | 'h' => some help
  | _ => none

def shown : Flag → String
  | check => "--check"
  | verbose => "--verbose"
  | version => "--version"
  | help => "--help"

end Flag

/-- Why a command line is refused. -/
inductive UsageError where
  | unknownOption (argument : String)
  | missingValue (option : ValueOption)
  | unneededValue (flag : Flag)
  | repeatedOption (option : ValueOption)
  | repeatedFlag (flag : Flag)
  | emptyPath
  | noDefinitions
  | noOutput
  | noDirectory (path : String)
deriving DecidableEq, Repr

def UsageError.message : UsageError → String
  | unknownOption argument => "unexpected argument " ++ Text.backquoted argument
  | missingValue option => "a value is required for " ++ Text.backquoted option.shown
  | unneededValue flag => "no value is allowed for " ++ Text.backquoted flag.shown
  | repeatedOption option => Text.backquoted option.shown ++ " cannot be used more than once"
  | repeatedFlag flag => Text.backquoted flag.shown ++ " cannot be used more than once"
  | emptyPath => "a path cannot be empty"
  | noDefinitions => "at least one definition file is required"
  | noOutput => Text.backquoted ValueOption.output.shown ++ " is required"
  | noDirectory path => "directory " ++ Text.backquoted path ++ " does not exist"

end BootTable.Command
