import BootTable.Routine
import Mathlib.Data.List.Basic

/-!
# BootTable — what a routine reference is made of

A reference is split at its separators, and the last piece is the function. Nothing is lost by the
split, so the scope and the function give the reference back: two references that are declared
alike are the same.

* **`join_pieces`**: the pieces make up the text.
* **`text_eq`**: so do the scope and the function.
* **`eq_of_declaration_eq`**: a reference is known by them.
* **`isReferenceChar_of_mem_text`**: the characters that a reference can have.
* **`isGrammatical_iff`**: a text is one exactly if identifiers can be joined to it.
-/

namespace BootTable.Routine

/-! ## Pieces -/

theorem pieces_ne_nil (cs : List Char) : pieces cs ≠ [] := by
  unfold pieces
  split
  · exact List.cons_ne_nil _ _
  · exact List.cons_ne_nil _ _
  · split
    · exact List.cons_ne_nil _ _
    · exact List.cons_ne_nil _ _

theorem join_cons_of_ne_nil (piece : List Char) {others : List (List Char)} (h : others ≠ []) :
    join (piece :: others) = piece ++ ':' :: ':' :: join others := by
  obtain ⟨next, rest, rfl⟩ := List.exists_cons_of_ne_nil h
  rfl

theorem join_cons_cons (c : Char) (piece : List Char) (others : List (List Char)) :
    join ((c :: piece) :: others) = c :: join (piece :: others) := by
  cases others with
  | nil => rfl
  | cons next rest => rfl

theorem join_concat {outer : List (List Char)} (h : outer ≠ []) (last : List Char) :
    join (outer ++ [last]) = join outer ++ ':' :: ':' :: last := by
  induction outer with
  | nil => exact absurd rfl h
  | cons piece others ih =>
    have hne : others ++ [last] ≠ [] := List.append_ne_nil_of_right_ne_nil _ (List.cons_ne_nil _ _)
    rw [List.cons_append, join_cons_of_ne_nil piece hne]
    cases others with
    | nil => rfl
    | cons next rest =>
      rw [ih (List.cons_ne_nil _ _), join_cons_of_ne_nil piece (List.cons_ne_nil _ _),
        List.append_assoc]
      rfl

theorem join_pieces (cs : List Char) : join (pieces cs) = cs := by
  fun_induction pieces cs with
  | case1 => rfl
  | case2 rest ih =>
    rw [join_cons_of_ne_nil [] (pieces_ne_nil rest), ih]
    rfl
  | case3 c rest _ hnil _ => exact absurd hnil (pieces_ne_nil rest)
  | case4 c rest _ piece others hpieces ih =>
    rw [join_cons_cons, ← hpieces, ih]

theorem mem_join {c : Char} {ps : List (List Char)} (h : c ∈ join ps) :
    c = ':' ∨ ∃ piece ∈ ps, c ∈ piece := by
  induction ps with
  | nil => exact absurd h List.not_mem_nil
  | cons piece others ih =>
    cases others with
    | nil => exact .inr ⟨piece, List.mem_cons_self, h⟩
    | cons next rest =>
      rw [join_cons_of_ne_nil piece (List.cons_ne_nil _ _), List.mem_append, List.mem_cons,
        List.mem_cons] at h
      rcases h with hmem | hcolon | hcolon | hmem
      · exact .inr ⟨piece, List.mem_cons_self, hmem⟩
      · exact .inl hcolon
      · exact .inl hcolon
      · rcases ih hmem with hcolon | ⟨other, hother, hin⟩
        · exact .inl hcolon
        · exact .inr ⟨other, List.mem_cons_of_mem _ hother, hin⟩

/-! ## Scope and function -/

/-- Where a routine is declared, and as what. -/
def declaration (routine : Routine) : Option String × String :=
  (routine.scope?, routine.function)

theorem join_identifiers (routine : Routine) : join routine.identifiers = routine.text.toList :=
  join_pieces _

theorem identifiers_eq (routine : Routine) :
    routine.identifiers = routine.identifiers.dropLast ++ [routine.identifiers.getLastD []] := by
  have hne : routine.identifiers ≠ [] := pieces_ne_nil _
  rw [List.getLastD_eq_getLast?, List.getLast?_eq_getLast_of_ne_nil hne, Option.getD_some,
    List.dropLast_concat_getLast hne]

/-- The text of a reference whose last identifier is its function. -/
def textOf : Option String × String → String
  | (none, function) => function
  | (some scope, function) => scope ++ "::" ++ function

theorem text_eq (routine : Routine) : routine.text = textOf routine.declaration := by
  apply String.toList_injective
  have htext := routine.join_identifiers
  rw [identifiers_eq] at htext
  unfold declaration scope? function
  rw [← htext]
  split
  · rename_i hnil
    rw [hnil]
    exact (String.toList_ofList).symm
  · rename_i hne
    rw [join_concat (fun hnil => hne hnil)]
    simp [textOf]

theorem eq_of_text_eq {a b : Routine} (h : a.text = b.text) : a = b := by
  cases a
  cases b
  simpa using h

theorem eq_of_declaration_eq {a b : Routine} (h : a.declaration = b.declaration) : a = b := by
  apply eq_of_text_eq
  rw [text_eq, text_eq, h]

/-! ## Characters -/

/-- An identifier, or a separator of identifiers, is made up of these characters. -/
def isReferenceChar (c : Char) : Bool :=
  isIdentifierRest c || c = ':'

theorem isIdentifierRest_of_start {c : Char} (h : isIdentifierStart c = true) :
    isIdentifierRest c = true := by
  unfold isIdentifierStart at h
  unfold isIdentifierRest Char.isAlphanum
  cases hletter : c.isAlpha with
  | true => rfl
  | false =>
    rw [hletter] at h
    simpa using Or.inr (by simpa using h)

theorem isIdentifierRest_of_mem {identifier : List Char} (h : isIdentifier identifier = true)
    {c : Char} (hmem : c ∈ identifier) : isIdentifierRest c = true := by
  cases identifier with
  | nil => cases h
  | cons first others =>
    have hboth : isIdentifierStart first = true ∧ others.all isIdentifierRest = true := by
      simpa [isIdentifier] using h
    rcases List.mem_cons.mp hmem with rfl | hin
    · exact isIdentifierRest_of_start hboth.1
    · exact List.all_eq_true.mp hboth.2 c hin

theorem isReferenceChar_of_mem_text {routine : Routine} {c : Char}
    (h : c ∈ routine.text.toList) : isReferenceChar c = true := by
  rw [← join_identifiers] at h
  unfold isReferenceChar
  rcases mem_join h with rfl | ⟨identifier, hidentifier, hmem⟩
  · rfl
  · have hgrammatical := List.all_eq_true.mp routine.grammatical identifier hidentifier
    rw [isIdentifierRest_of_mem hgrammatical hmem, Bool.true_or]

theorem toNat_lt_of_isReferenceChar {c : Char} (h : isReferenceChar c = true) : c.toNat < 0x80 := by
  unfold isReferenceChar isIdentifierRest Char.isAlphanum Char.isAlpha Char.isUpper Char.isLower
    Char.isDigit at h
  simp only [Bool.or_eq_true, Bool.and_eq_true, decide_eq_true_eq] at h
  rcases h with ((((⟨-, hle⟩ | ⟨-, hle⟩) | ⟨-, hle⟩) | rfl) | rfl)
  · exact Nat.lt_of_le_of_lt (UInt32.le_iff_toNat_le.mp hle) (by decide)
  · exact Nat.lt_of_le_of_lt (UInt32.le_iff_toNat_le.mp hle) (by decide)
  · exact Nat.lt_of_le_of_lt (UInt32.le_iff_toNat_le.mp hle) (by decide)
  · decide
  · decide

theorem isReferenceChar_of_mem_function {routine : Routine} {c : Char}
    (h : c ∈ routine.function.toList) : isReferenceChar c = true := by
  have htext : c ∈ routine.text.toList := by
    rw [text_eq]
    unfold declaration
    cases routine.scope? with
    | none => exact h
    | some scope =>
      show c ∈ (scope ++ "::" ++ routine.function).toList
      rw [String.toList_append]
      exact List.mem_append_right _ h
  exact isReferenceChar_of_mem_text htext

theorem isReferenceChar_of_mem_scope {routine : Routine} {scope : String} {c : Char}
    (hscope : routine.scope? = some scope) (h : c ∈ scope.toList) : isReferenceChar c = true := by
  have htext : c ∈ routine.text.toList := by
    rw [text_eq]
    unfold declaration
    rw [hscope]
    show c ∈ (scope ++ "::" ++ routine.function).toList
    rw [String.append_assoc, String.toList_append]
    exact List.mem_append_left _ h
  exact isReferenceChar_of_mem_text htext

/-! ## The grammar -/

/-- A nonempty sequence of identifiers joined by separators. -/
def IsReference (text : String) : Prop :=
  ∃ identifiers, identifiers ≠ [] ∧ (∀ identifier ∈ identifiers, isIdentifier identifier = true) ∧
    text.toList = join identifiers

theorem colon_not_mem {identifier : List Char} (h : isIdentifier identifier = true) :
    ':' ∉ identifier := by
  intro hmem
  have hrest := isIdentifierRest_of_mem h hmem
  exact absurd hrest (by decide)

theorem pieces_cons {c : Char} (hc : c ≠ ':') {rest piece : List Char} {others : List (List Char)}
    (h : pieces rest = piece :: others) : pieces (c :: rest) = (c :: piece) :: others := by
  rw [pieces, h]
  rintro _ rfl
  exact absurd rfl hc

theorem pieces_of_colon_not_mem {piece : List Char} (h : ':' ∉ piece) : pieces piece = [piece] := by
  induction piece with
  | nil => rfl
  | cons c rest ih =>
    obtain ⟨hc, hrest⟩ := List.ne_and_not_mem_of_not_mem_cons h
    exact pieces_cons hc.symm (ih hrest)

theorem pieces_append_separator {piece : List Char} (h : ':' ∉ piece) (rest : List Char) :
    pieces (piece ++ ':' :: ':' :: rest) = piece :: pieces rest := by
  induction piece with
  | nil => rfl
  | cons c others ih =>
    obtain ⟨hc, hothers⟩ := List.ne_and_not_mem_of_not_mem_cons h
    exact pieces_cons hc.symm (ih hothers)

/-- A text is split at the separators that join it where no piece has a colon. -/
theorem pieces_join {ps : List (List Char)} (hne : ps ≠ []) (h : ∀ piece ∈ ps, ':' ∉ piece) :
    pieces (join ps) = ps := by
  induction ps with
  | nil => exact absurd rfl hne
  | cons piece others ih =>
    obtain ⟨hpiece, hothers⟩ := List.forall_mem_cons.mp h
    cases others with
    | nil => exact pieces_of_colon_not_mem hpiece
    | cons next rest =>
      have hrest := List.cons_ne_nil next rest
      rw [join_cons_of_ne_nil piece hrest, pieces_append_separator hpiece, ih hrest hothers]

theorem isGrammatical_iff {text : String} : isGrammatical text = true ↔ IsReference text := by
  unfold isGrammatical
  rw [List.all_eq_true]
  constructor
  · intro h
    exact ⟨pieces text.toList, pieces_ne_nil _, h, (join_pieces _).symm⟩
  · rintro ⟨identifiers, hne, hidentifiers, htext⟩
    rw [htext, pieces_join hne fun identifier hmem => colon_not_mem (hidentifiers _ hmem)]
    exact hidentifiers

theorem ofText?_eq_none_iff {text : String} : ofText? text = none ↔ ¬IsReference text := by
  rw [← isGrammatical_iff]
  unfold ofText?
  by_cases h : isGrammatical text = true
  · rw [dif_pos h]
    exact iff_of_false nofun (absurd h)
  · rw [dif_neg h]
    exact iff_of_true rfl h

end BootTable.Routine
