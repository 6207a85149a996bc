import BootTable.Command.Usage

/-!
# BootTable — the command line

A command line is split into items first: options with their values, flags and definition files.
The items are then taken from left to right. A flag that asks for the version or the usage ends
this at its place, so that nothing after it counts.
-/

namespace BootTable.Command

/-! ## Items -/

/-- One thing that a command line says. -/
inductive Item where
  | value (option : ValueOption) (text : String)
  | flag (flag : Flag)
  | definition (path : String)
  /-- Something that no command line may say. -/
  | refused (cause : UsageError)
deriving DecidableEq, Repr

/-- The form of an argument. -/
inductive Form where
  /-- The mark after which everything is a definition file. -/
  | endOfOptions
  | long (name : List Char) (value : Option (List Char))
  /-- Letters of options, and perhaps the value of the last one. -/
  | cluster (letters : List Char)
  /-- Anything else; a lone hyphen too. -/
  | plain
deriving DecidableEq, Repr

/-- The form of the argument with the given characters. -/
def Form.ofChars : List Char → Form
  | ['-', '-'] => .endOfOptions
  | '-' :: '-' :: characters =>
    match characters.dropWhile (· ≠ '=') with
    | [] => .long characters none
    | _ :: value => .long (characters.takeWhile (· ≠ '=')) (some value)
  | '-' :: letter :: letters => .cluster (letter :: letters)
  | _ => .plain

/-- What letters of options say, and the option that waits for its value. -/
def itemsOfLetters : List Char → List Item × Option ValueOption
  | [] => ([], none)
  | letter :: others =>
    match Flag.ofLetter? letter with
    | some flag =>
      let (items, waiting) := itemsOfLetters others
      (.flag flag :: items, waiting)
    | none =>
      match ValueOption.ofLetter? letter with
      | none => ([.refused (.unknownOption (String.ofList ('-' :: letter :: others)))], none)
      | some option =>
        match others with
        | [] => ([], some option)
        | '=' :: value => ([.value option (String.ofList value)], none)
        | value => ([.value option (String.ofList value)], none)

/-- What a long name says, and the option that waits for its value. -/
def itemsOfLong (name : List Char) (value : Option (List Char)) :
    List Item × Option ValueOption :=
  match ValueOption.ofName? (String.ofList name), Flag.ofName? (String.ofList name), value with
  | some option, _, some text => ([.value option (String.ofList text)], none)
  | some option, _, none => ([], some option)
  | none, some flag, none => ([.flag flag], none)
  | none, some flag, some _ => ([.refused (.unneededValue flag)], none)
  | none, none, _ => ([.refused (.unknownOption (String.ofList ('-' :: '-' :: name)))], none)

/-- What arguments say while an option may wait for its value. An argument that begins like an
option is never taken as a value. -/
def itemsFrom (waiting : Option ValueOption) : List String → List Item
  | [] => (waiting.map fun option => .refused (.missingValue option)).toList
  | argument :: others =>
    match Form.ofChars argument.toList, waiting with
    | .plain, none => .definition argument :: itemsFrom none others
    | .plain, some option => .value option argument :: itemsFrom none others
    | _, some option => [.refused (.missingValue option)]
    | .endOfOptions, none => others.map .definition
    | .long name value, none =>
      let (items, next) := itemsOfLong name value
      items ++ itemsFrom next others
    | .cluster letters, none =>
      let (items, next) := itemsOfLetters letters
      items ++ itemsFrom next others

def items (arguments : List String) : List Item :=
  itemsFrom none arguments

/-! ## Requests -/

/-- What to compile, and where to. -/
structure Job where
  config : Option String
  definitions : List String
  /-- The file to write; without one the definitions are only checked. -/
  destination : Option String
  verbosity : Nat
deriving DecidableEq, Repr

/-- What a command line asks for. -/
inductive Request where
  | version
  | help
  | compile (job : Job)
deriving DecidableEq, Repr

/-- A command line that is understood. -/
structure Invocation where
  /-- The file named for writing, whether it will be written or not; its directory must be there. -/
  output : Option String
  request : Request
deriving DecidableEq, Repr

/-- What the items so far have said. -/
structure Settings where
  output : Option String
  config : Option String
  check : Bool
  verbosity : Nat
  definitions : List String
deriving DecidableEq, Repr

namespace Settings

def start : Settings :=
  { output := none, config := none, check := false, verbosity := 0, definitions := [] }

/-- The settings after an option with its value. -/
def takeValue (settings : Settings) (text : String) :
    ValueOption → Except UsageError Settings
  | .output =>
    if settings.output.isSome then .error (.repeatedOption .output)
    else .ok { settings with output := some text }
  | .config =>
    if text = "" then .error .emptyPath
    else if settings.config.isSome then .error (.repeatedOption .config)
    else .ok { settings with config := some text }

def finish (settings : Settings) : Except UsageError Invocation :=
  if settings.definitions = [] then .error .noDefinitions
  else if !settings.check ∧ settings.output = none then .error .noOutput
  else .ok {
    output := settings.output
    request := .compile {
      config := settings.config
      definitions := settings.definitions
      destination := if settings.check then none else settings.output
      verbosity := settings.verbosity } }

def interpret (settings : Settings) : List Item → Except UsageError Invocation
  | [] => settings.finish
  | .refused cause :: _ => .error cause
  | .flag .version :: _ => .ok { output := settings.output, request := .version }
  | .flag .help :: _ => .ok { output := settings.output, request := .help }
  | .flag .check :: others =>
    if settings.check then .error (.repeatedFlag .check)
    else interpret { settings with check := true } others
  | .flag .verbose :: others =>
    interpret { settings with verbosity := settings.verbosity + 1 } others
  | .definition path :: others =>
    if path = "" then .error .emptyPath
    else interpret { settings with definitions := settings.definitions ++ [path] } others
  | .value option text :: others =>
    match settings.takeValue text option with
    | .error cause => .error cause
    | .ok next => next.interpret others

end Settings

def Invocation.ofArguments (arguments : List String) : Except UsageError Invocation :=
  Settings.start.interpret (items arguments)

end BootTable.Command
