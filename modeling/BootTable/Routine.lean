/-!
# BootTable — routine references

A routine reference is a nonempty sequence of identifiers joined by `::`. The last identifier is
the function; the identifiers before it, if any, are its enclosing scope. Main statement:
`ofText?_eq_some_iff`: reading a text accepts exactly the grammatical ones and keeps them.
-/

namespace BootTable

namespace Routine

def isIdentifierStart (c : Char) : Bool :=
  c.isAlpha || c = '_'

/-- A letter, a digit or an underscore, all of ASCII. -/
def isIdentifierRest (c : Char) : Bool :=
  c.isAlphanum || c = '_'

/-- An identifier starts with a letter or an underscore and may go on with digits too. -/
def isIdentifier : List Char → Bool
  | [] => false
  | c :: cs => isIdentifierStart c && cs.all isIdentifierRest

/-- The pieces of a text between its `::` separators, which are found from left to right. -/
def pieces : List Char → List (List Char)
  | [] => [[]]
  | ':' :: ':' :: rest => [] :: pieces rest
  | c :: rest =>
    match pieces rest with
    | [] => [[c]]
    | piece :: others => (c :: piece) :: others

def join : List (List Char) → List Char
  | [] => []
  | [piece] => piece
  | piece :: others => piece ++ ':' :: ':' :: join others

def isGrammatical (text : String) : Bool :=
  (pieces text.toList).all isIdentifier

end Routine

/-- A reference to a kernel routine, which takes nothing and reports success. -/
structure Routine where
  text : String
  grammatical : Routine.isGrammatical text = true
deriving DecidableEq

namespace Routine

/-- Accepts a text that is a sequence of identifiers joined by `::`. -/
def ofText? (text : String) : Option Routine :=
  if h : isGrammatical text = true then some ⟨text, h⟩ else none

/-- The identifiers of the reference, outermost scope first. -/
def identifiers (routine : Routine) : List (List Char) :=
  pieces routine.text.toList

def function (routine : Routine) : String :=
  String.ofList (routine.identifiers.getLastD [])

/-- The scope that encloses the function; a top-level function has none. -/
def scope? (routine : Routine) : Option String :=
  match routine.identifiers.dropLast with
  | [] => none
  | outer => some (String.ofList (join outer))

theorem ofText?_eq_some_iff {text : String} {routine : Routine} :
    ofText? text = some routine ↔ routine.text = text := by
  unfold ofText?
  split
  · rename_i h
    rw [Option.some.injEq]
    constructor
    · rintro rfl
      rfl
    · rintro rfl
      rfl
  · rename_i h
    refine ⟨fun hnone => by simp at hnone, ?_⟩
    rintro rfl
    exact absurd routine.grammatical h

end Routine

end BootTable
