/-!
# BootTable — logging importance

The level at which the kernel reports a component. The levels are ordered from the least to the
most important.
-/

namespace BootTable

/-- The least verbosity at which the kernel reports a component. -/
inductive Importance where
  | debug
  | important
  | critical
  | error
deriving DecidableEq, Repr

namespace Importance

/-- Every importance, from the least to the greatest. -/
def all : List Importance := [debug, important, critical, error]

/-- The place of an importance in that order, counted from zero. -/
def rank : Importance → Nat
  | debug => 0
  | important => 1
  | critical => 2
  | error => 3

instance : LT Importance := ⟨fun a b => a.rank < b.rank⟩

instance (a b : Importance) : Decidable (a < b) := inferInstanceAs (Decidable (a.rank < b.rank))

/-- The spelling used by definition files and by the kernel's enumerators. -/
def key : Importance → String
  | debug => "DEBUG"
  | important => "IMPORTANT"
  | critical => "CRITICAL"
  | error => "ERROR"

/-- The importance that a key spells, if it spells one. -/
def ofKey? (key : String) : Option Importance :=
  all.find? fun importance => importance.key = key

/-- The importance of a component whose record names none. -/
def default : Importance := debug

theorem ofKey?_key (importance : Importance) : ofKey? importance.key = some importance := by
  cases importance <;> decide

end Importance

end BootTable
