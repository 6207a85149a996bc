import BootTable.Text.Padding

/-!
# BootTable — file faults

Why a file cannot be read or replaced. Faults that the operating system reports come with its
number for them.
-/

namespace BootTable

/-- Why a file cannot be read or replaced. -/
inductive FileFault where
  | notFound
  | notADirectory
  | isADirectory
  /-- The path ends in a directory's name for itself or for its parent. -/
  | busy
  /-- The path or one of its names has too many bytes. -/
  | nameTooLong
  | nulCharacter
  | notUtf8
  /-- Anything else that the operating system reports. -/
  | unexpected (description : String)
deriving DecidableEq, Repr

namespace FileFault

/-- The wording of the operating system and its number. -/
def systemMessage (text : String) (number : Nat) : String :=
  text ++ " (os error " ++ Text.decimal 1 number ++ ")"

def message : FileFault → String
  | notFound => systemMessage "No such file or directory" 2
  | notADirectory => systemMessage "Not a directory" 20
  | isADirectory => systemMessage "Is a directory" 21
  | busy => systemMessage "Device or resource busy" 16
  | nameTooLong => systemMessage "File name too long" 36
  | nulCharacter => "file name contained an unexpected NUL byte"
  | notUtf8 => "stream did not contain valid UTF-8"
  | unexpected description => description

end FileFault

end BootTable
