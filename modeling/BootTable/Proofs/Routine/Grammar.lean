import BootTable.Proofs.Routine
import Mathlib.Computability.Language

/-!
# BootTable — the grammar of routine references

Which texts are references can be said in two ways: by a pattern, that is by the language of an
identifier that is followed by any number of separated identifiers, and by sequences of names that
are joined by separators. Both accept the same texts, and the reader accepts no others. A text has
one such sequence of names only, for no name has a colon. So what the reader takes for the function
is the last name, and the separator before it is the last one of the text.

* **`mem_reference_iff`**: the pattern says the same as the sequences of names.
* **`identifiers_of_spells`**: the reader finds the names that a text is made of.
* **`splitsAtLast_of_colon_not_mem`**: behind the last separator stands what has no colon.
* **`ofText?_iff_spells`**: what is accepted, and how it is split.
-/

namespace BootTable.Routine

open scoped Computability

/-! ## Names -/

/-- A letter of ASCII or an underscore. -/
def StartsName (c : Char) : Prop :=
  ('A' ≤ c ∧ c ≤ 'Z') ∨ ('a' ≤ c ∧ c ≤ 'z') ∨ c = '_'

/-- A letter or a digit of ASCII or an underscore. -/
def ContinuesName (c : Char) : Prop :=
  StartsName c ∨ ('0' ≤ c ∧ c ≤ '9')

/-- The texts of one character of a class. -/
def oneOf (p : Char → Prop) : Language Char :=
  {cs : List Char | ∃ c, p c ∧ cs = [c]}

/-- The pattern of an identifier. -/
def identifier : Language Char :=
  oneOf StartsName * (oneOf ContinuesName)∗

/-- The pattern of a reference. -/
def reference : Language Char :=
  identifier * ({[':', ':']} * identifier)∗

theorem isIdentifierStart_iff {c : Char} : isIdentifierStart c = true ↔ StartsName c := by
  unfold isIdentifierStart StartsName Char.isAlpha Char.isUpper Char.isLower
  simp only [Bool.or_eq_true, Bool.and_eq_true, decide_eq_true_eq, or_assoc]
  exact Iff.rfl

theorem isIdentifierRest_iff {c : Char} : isIdentifierRest c = true ↔ ContinuesName c := by
  unfold ContinuesName
  rw [← isIdentifierStart_iff]
  unfold isIdentifierRest isIdentifierStart Char.isAlphanum Char.isDigit
  simp only [Bool.or_eq_true, Bool.and_eq_true, decide_eq_true_eq]
  rw [or_right_comm]
  exact Iff.rfl

theorem mem_kstar_oneOf_iff {p : Char → Prop} {cs : List Char} :
    cs ∈ (oneOf p)∗ ↔ ∀ c ∈ cs, p c := by
  rw [Language.mem_kstar]
  constructor
  · rintro ⟨parts, rfl, hparts⟩ c hc
    obtain ⟨part, hpart, hmem⟩ := List.mem_flatten.mp hc
    obtain ⟨d, hd, rfl⟩ := hparts part hpart
    rwa [List.mem_singleton.mp hmem]
  · intro h
    refine ⟨cs.map fun c => [c], ?_, fun part hpart => ?_⟩
    · rw [← List.flatMap_def, List.flatMap_singleton']
    · obtain ⟨c, hc, rfl⟩ := List.mem_map.mp hpart
      exact ⟨c, h c hc, rfl⟩

theorem mem_identifier_iff {cs : List Char} : cs ∈ identifier ↔ isIdentifier cs = true := by
  unfold identifier
  rw [Language.mem_mul]
  constructor
  · rintro ⟨_, ⟨c, hstart, rfl⟩, rest, hrest, rfl⟩
    have hall : rest.all isIdentifierRest = true :=
      List.all_eq_true.mpr fun d hd => isIdentifierRest_iff.mpr (mem_kstar_oneOf_iff.mp hrest d hd)
    show (isIdentifierStart c && rest.all isIdentifierRest) = true
    rw [isIdentifierStart_iff.mpr hstart, hall, Bool.and_self]
  · intro h
    cases cs with
    | nil => cases h
    | cons c rest =>
      obtain ⟨hstart, hall⟩ := (Bool.and_eq_true _ _).mp h
      have hrest : ∀ d ∈ rest, ContinuesName d := fun d hd =>
        isIdentifierRest_iff.mp (List.all_eq_true.mp hall d hd)
      exact ⟨[c], ⟨c, isIdentifierStart_iff.mp hstart, rfl⟩, rest, mem_kstar_oneOf_iff.mpr hrest,
        rfl⟩

/-! ## Sequences of names -/

/-- A text is made of names: it is a nonempty sequence of them, joined by separators. -/
structure Spells (names : List String) (text : String) : Prop where
  nonempty : names ≠ []
  isName : ∀ name ∈ names, name.toList ∈ identifier
  text_eq : text = "::".intercalate names

theorem toList_intercalate_eq_join (names : List String) :
    ("::".intercalate names).toList = join (names.map String.toList) := by
  rw [String.toList_intercalate]
  induction names with
  | nil => rfl
  | cons name others ih =>
    cases others with
    | nil => simp [join]
    | cons next rest =>
      have hne : (next :: rest).map String.toList ≠ [] := List.cons_ne_nil _ _
      rw [List.map_cons, join_cons_of_ne_nil _ hne, ← ih, List.map_cons,
        List.intercalate_cons_cons, List.append_assoc]
      rfl

/-- What is joined by separators is one piece and then separated pieces. -/
theorem join_cons_eq_append_flatten (piece : List Char) (others : List (List Char)) :
    join (piece :: others) = piece ++ (others.map fun other => [':', ':'] ++ other).flatten := by
  induction others generalizing piece with
  | nil => simp [join]
  | cons next rest ih =>
    rw [join_cons_of_ne_nil piece (List.cons_ne_nil _ _), ih]
    simp

theorem isReference_iff_spells {text : String} : IsReference text ↔ ∃ names, Spells names text := by
  constructor
  · rintro ⟨pieces, hne, hpieces, htext⟩
    have hnames : (pieces.map String.ofList).map String.toList = pieces := by
      rw [List.map_map]
      exact (List.map_congr_left fun _ _ => String.toList_ofList).trans (List.map_id pieces)
    refine ⟨pieces.map String.ofList, ?_⟩
    refine { nonempty := ?_, isName := ?_, text_eq := ?_ }
    · exact fun hnil => hne (List.map_eq_nil_iff.mp hnil)
    · rw [List.forall_mem_map]
      intro piece hpiece
      rw [String.toList_ofList]
      exact mem_identifier_iff.mpr (hpieces piece hpiece)
    · apply String.toList_injective
      rw [toList_intercalate_eq_join, hnames, htext]
  · rintro ⟨names, hspells⟩
    refine ⟨names.map String.toList, ?_, ?_, ?_⟩
    · exact fun hnil => hspells.nonempty (List.map_eq_nil_iff.mp hnil)
    · rw [List.forall_mem_map]
      exact fun name hname => mem_identifier_iff.mp (hspells.isName name hname)
    · rw [hspells.text_eq, toList_intercalate_eq_join]

theorem mem_reference_iff {text : String} :
    text.toList ∈ reference ↔ ∃ names, Spells names text := by
  rw [← isReference_iff_spells]
  unfold reference
  rw [Language.mem_mul]
  simp only [Language.mem_kstar]
  constructor
  · rintro ⟨first, hfirst, _, ⟨parts, rfl, hparts⟩, htext⟩
    -- Every part is a separator with an identifier behind it.
    have hothers : ∃ others : List (List Char), (∀ other ∈ others, other ∈ identifier) ∧
        parts = others.map fun other => [':', ':'] ++ other := by
      refine ⟨parts.map fun part => part.drop 2, ?_, ?_⟩
      · rw [List.forall_mem_map]
        intro part hpart
        obtain ⟨_, rfl, other, hother, rfl⟩ := Language.mem_mul.mp (hparts part hpart)
        exact hother
      · rw [List.map_map]
        refine (List.map_id parts).symm.trans (List.map_congr_left fun part hpart => ?_)
        obtain ⟨_, rfl, other, -, rfl⟩ := Language.mem_mul.mp (hparts part hpart)
        rfl
    obtain ⟨others, hnames, rfl⟩ := hothers
    refine ⟨first :: others, List.cons_ne_nil _ _, ?_, ?_⟩
    · rw [List.forall_mem_cons]
      exact ⟨mem_identifier_iff.mp hfirst, fun other hother =>
        mem_identifier_iff.mp (hnames other hother)⟩
    · rw [join_cons_eq_append_flatten, htext]
  · rintro ⟨pieces, hne, hpieces, htext⟩
    obtain ⟨first, others, rfl⟩ := List.exists_cons_of_ne_nil hne
    obtain ⟨hfirst, hothers⟩ := List.forall_mem_cons.mp hpieces
    refine ⟨first, mem_identifier_iff.mpr hfirst, _,
      ⟨others.map fun other => [':', ':'] ++ other, rfl, ?_⟩, ?_⟩
    · rw [List.forall_mem_map]
      intro other hother
      exact Language.append_mem_mul rfl (mem_identifier_iff.mpr (hothers other hother))
    · rw [htext, join_cons_eq_append_flatten]

theorem exists_ofText?_iff_spells {text : String} :
    (∃ routine, ofText? text = some routine) ↔ ∃ names, Spells names text := by
  rw [← isReference_iff_spells, ← Option.ne_none_iff_exists', Ne, ofText?_eq_none_iff, not_not]

/-! ## The last separator -/

/-- A text is split at its last separator: none stands further on. -/
structure SplitsAtLast (text before after : String) : Prop where
  text_eq : text = before ++ "::" ++ after
  length_le : ∀ b a, text = b ++ "::" ++ a → b.length ≤ before.length

theorem length_le_of_append_separator {before after b a : List Char} (hafter : ':' ∉ after)
    (h : before ++ ':' :: ':' :: after = b ++ ':' :: ':' :: a) : b.length ≤ before.length := by
  rcases List.append_eq_append_iff.mp h with ⟨rest, rfl, hrest⟩ | ⟨rest, rfl, -⟩
  · cases rest with
    | nil => rw [List.append_nil]
    | cons first others =>
      -- Further on, a separator would reach into what has no colon.
      have hcolon : ':' ∈ after := by
        cases others with
        | nil =>
          have hsame := List.cons.inj (List.cons.inj hrest).2
          rw [hsame.2]
          exact List.mem_cons_self
        | cons second others =>
          have hsame := List.cons.inj (List.cons.inj hrest).2
          rw [hsame.2]
          exact List.mem_append_right _ List.mem_cons_self
      exact absurd hcolon hafter
  · rw [List.length_append]
    exact Nat.le_add_right _ _

theorem splitsAtLast_of_colon_not_mem {before after : String} (h : ':' ∉ after.toList) :
    SplitsAtLast (before ++ "::" ++ after) before after where
  text_eq := rfl
  length_le b a heq := by
    have hchars := congrArg String.toList heq
    simp only [String.toList_append, List.append_assoc] at hchars
    rw [← String.length_toList, ← String.length_toList]
    exact length_le_of_append_separator h hchars

/-! ## Splitting -/

/-- How a reference is split that is made of a name and of the names before it. -/
structure IsSplitInto (routine : Routine) (outer : List String) (last : String) : Prop where
  function_eq : routine.function = last
  scope?_eq_none_iff : routine.scope? = none ↔ outer = []
  /-- Without a scope, the reference is its function and has no separator. -/
  of_none : routine.scope? = none →
    routine.text = routine.function ∧ ∀ before after, routine.text ≠ before ++ "::" ++ after
  /-- The scope is a reference too, and stands before the last separator. -/
  of_some : ∀ scope, routine.scope? = some scope →
    scope = "::".intercalate outer ∧ (∃ enclosing, ofText? scope = some enclosing) ∧
      SplitsAtLast routine.text scope routine.function

section

variable {routine : Routine} {outer : List String} {last : String}
  (h : Spells (outer ++ [last]) routine.text)

include h

/-- The reader finds the names that a text is made of. -/
theorem identifiers_of_spells :
    routine.identifiers = outer.map String.toList ++ [last.toList] := by
  have hnames : routine.identifiers = (outer ++ [last]).map String.toList := by
    unfold identifiers
    rw [h.text_eq, toList_intercalate_eq_join, pieces_join]
    · exact fun hnil => h.nonempty (List.map_eq_nil_iff.mp hnil)
    · rw [List.forall_mem_map]
      exact fun name hname => colon_not_mem (mem_identifier_iff.mp (h.isName name hname))
  rw [hnames, List.map_append, List.map_singleton]

theorem function_of_spells : routine.function = last := by
  unfold function
  rw [identifiers_of_spells h, List.getLastD_concat, String.ofList_toList]

theorem scope?_of_spells :
    routine.scope? = if outer = [] then none else some ("::".intercalate outer) := by
  unfold scope?
  rw [identifiers_of_spells h, List.dropLast_concat]
  cases outer with
  | nil => rfl
  | cons name others =>
    rw [if_neg (List.cons_ne_nil _ _)]
    have hjoin := toList_intercalate_eq_join (name :: others)
    rw [List.map_cons] at hjoin
    rw [List.map_cons]
    show some (String.ofList _) = _
    rw [← hjoin, String.ofList_toList]

theorem colon_not_mem_last : ':' ∉ last.toList :=
  colon_not_mem (mem_identifier_iff.mp (h.isName last (by simp)))

theorem isSplitInto_of_spells : routine.IsSplitInto outer last := by
  have hfunction := function_of_spells h
  have hscope := scope?_of_spells h
  by_cases houter : outer = []
  · subst houter
    rw [if_pos rfl] at hscope
    have htext : routine.text = routine.function := by
      rw [hfunction, h.text_eq]
      rfl
    refine { function_eq := hfunction
             scope?_eq_none_iff := iff_of_true hscope rfl
             of_none := fun _ => ⟨htext, fun before after hsplit => ?_⟩
             of_some := fun scope hsome => ?_ }
    · apply colon_not_mem_last h
      rw [← hfunction, ← htext, hsplit]
      simp
    · rw [hscope] at hsome
      cases hsome
  · rw [if_neg houter] at hscope
    have houterSpells : Spells outer ("::".intercalate outer) :=
      { nonempty := houter
        isName := fun name hname => h.isName name (List.mem_append_left _ hname)
        text_eq := rfl }
    refine { function_eq := hfunction
             scope?_eq_none_iff := iff_of_false (by rw [hscope]; simp) houter
             of_none := fun hnone => ?_
             of_some := fun scope hsome => ?_ }
    · rw [hscope] at hnone
      cases hnone
    · obtain rfl : scope = "::".intercalate outer := by
        rw [hscope] at hsome
        exact (Option.some.inj hsome).symm
      refine ⟨rfl, exists_ofText?_iff_spells.mpr ⟨outer, houterSpells⟩, ?_⟩
      have htext : routine.text = "::".intercalate outer ++ "::" ++ last := by
        have hparts := routine.text_eq
        unfold declaration at hparts
        rwa [hscope, hfunction] at hparts
      rw [htext, hfunction]
      exact splitsAtLast_of_colon_not_mem (colon_not_mem_last h)

end

/-- The reader accepts what matches the pattern, that is what is made of names, and keeps it. The
function of a reference is the last of its names and the scope the other ones, and two references
are the same if these are. -/
theorem ofText?_iff_spells (text : String) :
    ((∃ routine, ofText? text = some routine) ↔ ∃ names, Spells names text) ∧
      (text.toList ∈ reference ↔ ∃ names, Spells names text) ∧
      ∀ routine, ofText? text = some routine →
        routine.text = text ∧
          (∀ outer last, Spells (outer ++ [last]) text → routine.IsSplitInto outer last) ∧
          ∀ other : Routine, other.scope? = routine.scope? → other.function = routine.function →
            other = routine := by
  refine ⟨exists_ofText?_iff_spells, mem_reference_iff, fun routine haccepted => ?_⟩
  obtain rfl := ofText?_eq_some_iff.mp haccepted
  refine ⟨rfl, fun outer last hspells => isSplitInto_of_spells hspells, ?_⟩
  intro other hscope hfunction
  exact eq_of_declaration_eq (Prod.ext hscope hfunction)

/-- Behind a separator, a colon begins no name. -/
example : ofText? "kernel:::init" = none := by decide

end BootTable.Routine
