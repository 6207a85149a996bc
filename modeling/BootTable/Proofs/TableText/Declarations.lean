import BootTable.Proofs.Routine
import BootTable.Proofs.Text.Lines
import BootTable.Proofs.Text.Sorted
import BootTable.TableText

/-!
# BootTable — declarations read back

The block of declarations is read line by line: outside of scopes a line declares a top-level
function or opens a scope, inside it declares a function of the scope or closes it. Top-level
functions are accepted in front of the scopes only. What the block of some entries declares is then
compared with the routines that the entries refer to.

* **`ofBlock?_unlines`**: a block is read as what was written; a scope with its lines is one step.
* **`mem_declared_ofRoutines_iff`**: what is declared for some routines. A reference is known by its
  scope and its function, so no two routines share a declaration.
* **`ofRoutines_eq_of_mem_iff`**: the declarations of routines depend on their set alone.
* **`exists_block_of_render`**: the block in the text of the table.
-/

namespace BootTable

open Text

namespace Declarations

/-! ## Reading -/

/-- What the lines of a block that are read so far declare. -/
structure Reading where
  /-- The top-level functions, and the scopes that are closed. -/
  done : Declarations
  /-- The scope that is open, with its functions so far. -/
  current : Option (String × List String)

def Reading.start : Reading := ⟨⟨[], []⟩, none⟩

def outside? (done : Declarations) (line : List Char) : Option Reading :=
  if line = [] then some ⟨done, none⟩
  else
    match between? "namespace " " \x7b" line with
    | some scope => some ⟨done, some (String.ofList scope, [])⟩
    | none =>
      if done.scopes = [] then
        (between? "extern bool " "();" line).map fun function =>
          ⟨{ done with topLevel := done.topLevel ++ [String.ofList function] }, none⟩
      else none

def inside? (done : Declarations) (scope : String × List String) (line : List Char) :
    Option Reading :=
  if line = "\x7d".toList then some ⟨{ done with scopes := done.scopes ++ [scope] }, none⟩
  else
    (between? "\textern bool " "();" line).map fun function =>
      ⟨done, some (scope.1, scope.2 ++ [String.ofList function])⟩

def readLine? (reading : Reading) (line : List Char) : Option Reading :=
  match reading.current with
  | none => outside? reading.done line
  | some scope => inside? reading.done scope line

/-- The declarations of a block in which every scope is closed. -/
def ofBlock? (block : String) : Option Declarations :=
  ((linesOf block).foldlM readLine? .start).bind fun reading =>
    if reading.current = none then some reading.done else none

/-! ## Reading what was written -/

theorem toList_functionLine (function : String) :
    (functionLine function).toList =
      "extern bool ".toList ++ (function.toList ++ "();".toList) := by
  unfold functionLine
  rw [String.toList_append, String.toList_append, List.append_assoc]

theorem readLine?_functionLine (topLevel : List String) (function : String) :
    readLine? ⟨⟨topLevel, []⟩, none⟩ (functionLine function).toList =
      some ⟨⟨topLevel ++ [function], []⟩, none⟩ := by
  have hopens : between? "namespace " " \x7b" (functionLine function).toList = none := by
    rw [toList_functionLine]
    rfl
  have hnonempty : (functionLine function).toList ≠ [] := by
    rw [toList_functionLine]
    exact List.append_ne_nil_of_left_ne_nil (by decide) _
  show outside? ⟨topLevel, []⟩ (functionLine function).toList = _
  unfold outside?
  rw [if_neg hnonempty, hopens, toList_functionLine, between?_append]
  simp

theorem readLine?_opening (done : Declarations) (scope : String) :
    readLine? ⟨done, none⟩ ("namespace " ++ scope ++ " \x7b").toList =
      some ⟨done, some (scope, [])⟩ := by
  have hline : ("namespace " ++ scope ++ " \x7b").toList =
      "namespace ".toList ++ (scope.toList ++ " \x7b".toList) := by
    rw [String.toList_append, String.toList_append, List.append_assoc]
  have hnonempty : "namespace ".toList ++ (scope.toList ++ " \x7b".toList) ≠ [] :=
    List.append_ne_nil_of_left_ne_nil (by decide) _
  rw [hline]
  show outside? done _ = _
  unfold outside?
  rw [if_neg hnonempty, between?_append]
  simp

theorem readLine?_inner (done : Declarations) (scope : String × List String) (function : String) :
    readLine? ⟨done, some scope⟩ ("\t" ++ functionLine function).toList =
      some ⟨done, some (scope.1, scope.2 ++ [function])⟩ := by
  have hline : ("\t" ++ functionLine function).toList =
      "\textern bool ".toList ++ (function.toList ++ "();".toList) := by
    rw [String.toList_append, toList_functionLine]
    rfl
  have hcloses : "\textern bool ".toList ++ (function.toList ++ "();".toList) ≠ "\x7d".toList := by
    intro h
    cases congrArg List.head? h
  rw [hline]
  show inside? done scope _ = _
  unfold inside?
  rw [if_neg hcloses, between?_append]
  simp

theorem foldlM_topLevel (topLevel functions : List String) :
    ((functions.map functionLine).map String.toList).foldlM readLine? ⟨⟨topLevel, []⟩, none⟩ =
      some ⟨⟨topLevel ++ functions, []⟩, none⟩ := by
  induction functions generalizing topLevel with
  | nil => simp
  | cons function others ih =>
    rw [List.map_cons, List.map_cons, List.foldlM_cons, readLine?_functionLine]
    show List.foldlM readLine? _ _ = _
    rw [ih, List.append_assoc]
    rfl

theorem foldlM_inner (done : Declarations) (scope : String × List String)
    (functions : List String) :
    ((functions.map fun function => "\t" ++ functionLine function).map String.toList).foldlM
        readLine? ⟨done, some scope⟩ =
      some ⟨done, some (scope.1, scope.2 ++ functions)⟩ := by
  induction functions generalizing scope with
  | nil => simp
  | cons function others ih =>
    rw [List.map_cons, List.map_cons, List.foldlM_cons, readLine?_inner]
    show List.foldlM readLine? _ _ = _
    rw [ih, List.append_assoc]
    rfl

theorem foldlM_scopeLines (done : Declarations) (scope : String × List String) :
    ((scopeLines scope).map String.toList).foldlM readLine? ⟨done, none⟩ =
      some ⟨{ done with scopes := done.scopes ++ [scope] }, none⟩ := by
  unfold scopeLines
  rw [List.map_append, List.map_append, List.append_assoc, List.foldlM_append]
  simp only [List.map_cons, List.map_nil, List.foldlM_cons, List.foldlM_nil, readLine?_opening,
    bind_pure]
  show List.foldlM readLine? _ _ = _
  rw [List.foldlM_append, foldlM_inner]
  rfl

theorem foldlM_scopes (done : Declarations) (scopes : List (String × List String)) :
    ((scopes.flatMap scopeLines).map String.toList).foldlM readLine? ⟨done, none⟩ =
      some ⟨{ done with scopes := done.scopes ++ scopes }, none⟩ := by
  induction scopes generalizing done with
  | nil => simp
  | cons scope others ih =>
    rw [List.flatMap_cons, List.map_append, List.foldlM_append, foldlM_scopeLines]
    show List.foldlM readLine? _ _ = _
    rw [ih, List.append_assoc]
    rfl

/-- No name goes over several lines. -/
structure OneLine (declarations : Declarations) : Prop where
  topLevel : ∀ function ∈ declarations.topLevel, '\n' ∉ function.toList
  scopes : ∀ scope ∈ declarations.scopes, '\n' ∉ scope.1.toList
  functions : ∀ scope ∈ declarations.scopes, ∀ function ∈ scope.2, '\n' ∉ function.toList

theorem newline_not_mem_functionLine {function : String} (h : '\n' ∉ function.toList) :
    '\n' ∉ (functionLine function).toList :=
  newline_not_mem_append (newline_not_mem_append (by decide) h) (by decide)

/-- What the lines of declarations look like. -/
theorem cases_of_mem_lines {declarations : Declarations} {line : String}
    (h : line ∈ declarations.lines) :
    (∃ function ∈ declarations.topLevel, line = functionLine function) ∨
      ∃ scope ∈ declarations.scopes, line = "namespace " ++ scope.1 ++ " \x7b" ∨
        (∃ function ∈ scope.2, line = "\t" ++ functionLine function) ∨
          line = "\x7d" ∨ line = "" := by
  rcases List.mem_append.mp h with htop | hscopes
  · obtain ⟨function, hmem, rfl⟩ := List.mem_map.mp htop
    exact .inl ⟨function, hmem, rfl⟩
  · obtain ⟨scope, hscope, hin⟩ := List.mem_flatMap.mp hscopes
    refine .inr ⟨scope, hscope, ?_⟩
    unfold scopeLines at hin
    rw [List.mem_append, List.mem_append, List.mem_singleton, List.mem_pair, List.mem_map] at hin
    rcases hin with (hopening | ⟨function, hmem, rfl⟩) | hend
    · exact .inl hopening
    · exact .inr (.inl ⟨function, hmem, rfl⟩)
    · exact .inr (.inr hend)

theorem newline_not_mem_lines {declarations : Declarations} (h : declarations.OneLine) :
    ∀ line ∈ declarations.lines, '\n' ∉ line.toList := by
  intro line hline
  rcases cases_of_mem_lines hline with ⟨function, hmem, rfl⟩ |
    ⟨scope, hscope, rfl | ⟨function, hmem, rfl⟩ | rfl | rfl⟩
  · exact newline_not_mem_functionLine (h.topLevel function hmem)
  · exact newline_not_mem_append (newline_not_mem_append (by decide) (h.scopes scope hscope))
      (by decide)
  · have hfunction := newline_not_mem_functionLine (h.functions scope hscope function hmem)
    exact newline_not_mem_append (by decide) hfunction
  · decide
  · decide

theorem ofBlock?_unlines {declarations : Declarations} (h : declarations.OneLine) :
    ofBlock? (unlines declarations.lines) = some declarations := by
  unfold ofBlock?
  rw [linesOf_unlines (newline_not_mem_lines h)]
  unfold lines Reading.start
  rw [List.map_append, List.foldlM_append, foldlM_topLevel]
  show (List.foldlM readLine? _ _).bind _ = _
  rw [foldlM_scopes]
  rfl

/-! ## The declarations of routines -/

/-- Everything that is declared: the scope, or none at top level, and the function. -/
def declared (declarations : Declarations) : List (Option String × String) :=
  declarations.topLevel.map (fun function => (none, function)) ++
    declarations.scopes.flatMap fun scope => scope.2.map fun function => (some scope.1, function)

/-- Functions and scopes increase strictly, by their bytes. -/
structure InByteOrder (declarations : Declarations) : Prop where
  topLevel : declarations.topLevel.Pairwise fun a b => bytes a < bytes b
  scopes : declarations.scopes.Pairwise fun a b => bytes a.1 < bytes b.1
  functions : ∀ scope ∈ declarations.scopes, scope.2.Pairwise fun a b => bytes a < bytes b

variable {routines : List Routine}

theorem mem_functionsIn_iff {scope? : Option String} {function : String} :
    function ∈ functionsIn scope? routines ↔
      ∃ routine ∈ routines, routine.declaration = (scope?, function) := by
  unfold functionsIn Routine.declaration
  rw [mem_sortDistinct, List.mem_map]
  simp only [List.mem_filter, decide_eq_true_eq, Prod.mk.injEq, and_assoc]

theorem mem_scopes_ofRoutines_iff {scope : String × List String} :
    scope ∈ (ofRoutines routines).scopes ↔
      (∃ routine ∈ routines, routine.scope? = some scope.1) ∧
        scope.2 = functionsIn (some scope.1) routines := by
  unfold ofRoutines
  simp only [List.mem_map, mem_sortDistinct, List.mem_filterMap]
  constructor
  · intro h
    obtain ⟨name, hname, rfl⟩ := h
    exact ⟨hname, rfl⟩
  · intro h
    exact ⟨scope.1, h.1, by rw [← h.2]⟩

theorem mem_declared_ofRoutines_iff {declaration : Option String × String} :
    declaration ∈ (ofRoutines routines).declared ↔
      ∃ routine ∈ routines, routine.declaration = declaration := by
  obtain ⟨scope?, function⟩ := declaration
  unfold declared
  rw [List.mem_append, List.mem_map, List.mem_flatMap]
  cases scope? with
  | none =>
    constructor
    · rintro (⟨other, hmem, heq⟩ | ⟨scope, -, hmem⟩)
      · cases heq
        exact mem_functionsIn_iff.mp hmem
      · obtain ⟨other, -, heq⟩ := List.mem_map.mp hmem
        cases heq
    · intro h
      exact .inl ⟨function, mem_functionsIn_iff.mpr h, rfl⟩
  | some name =>
    constructor
    · rintro (⟨other, -, heq⟩ | ⟨scope, hscope, hmem⟩)
      · cases heq
      · obtain ⟨other, hother, heq⟩ := List.mem_map.mp hmem
        cases heq
        rw [(mem_scopes_ofRoutines_iff.mp hscope).2] at hother
        exact mem_functionsIn_iff.mp hother
    · intro h
      have hscope : (name, functionsIn (some name) routines) ∈ (ofRoutines routines).scopes := by
        obtain ⟨routine, hroutine, heq⟩ := h
        exact mem_scopes_ofRoutines_iff.mpr ⟨⟨routine, hroutine, congrArg Prod.fst heq⟩, rfl⟩
      exact .inr ⟨_, hscope, List.mem_map_of_mem (mem_functionsIn_iff.mpr h)⟩

theorem nodup_functionsIn (scope? : Option String) : (functionsIn scope? routines).Nodup :=
  (pairwise_sortDistinct _).imp fun hlt => hlt.ne

theorem pairwise_scopes_ofRoutines :
    (ofRoutines routines).scopes.Pairwise fun a b => a.1 < b.1 :=
  List.pairwise_map.mpr (pairwise_sortDistinct _)

theorem nodup_declared_ofRoutines : (ofRoutines routines).declared.Nodup := by
  unfold declared
  rw [List.nodup_append]
  refine ⟨(nodup_functionsIn none).map fun _ _ heq => congrArg Prod.snd heq, ?_, ?_⟩
  · rw [List.nodup_flatMap]
    constructor
    · intro scope hscope
      rw [(mem_scopes_ofRoutines_iff.mp hscope).2]
      exact (nodup_functionsIn _).map fun _ _ heq => congrArg Prod.snd heq
    -- No scope is opened twice, and the scope is a part of what is declared in it.
    · refine pairwise_scopes_ofRoutines.imp fun {a b} hlt declaration ha hb => ?_
      obtain ⟨f, -, rfl⟩ := List.mem_map.mp ha
      obtain ⟨g, -, heq⟩ := List.mem_map.mp hb
      exact hlt.ne (Option.some.inj (congrArg Prod.fst heq)).symm
  · rintro declaration htop other hscopes rfl
    obtain ⟨f, -, rfl⟩ := List.mem_map.mp htop
    obtain ⟨scope, -, hmem⟩ := List.mem_flatMap.mp hscopes
    obtain ⟨g, -, heq⟩ := List.mem_map.mp hmem
    cases heq

theorem functionsIn_eq_of_mem_iff {others : List Routine}
    (h : ∀ routine, routine ∈ routines ↔ routine ∈ others) (scope? : Option String) :
    functionsIn scope? routines = functionsIn scope? others := by
  apply sortDistinct_eq_of_mem_iff
  intro function
  simp only [List.mem_map, List.mem_filter, h]

theorem ofRoutines_eq_of_mem_iff {others : List Routine}
    (h : ∀ routine, routine ∈ routines ↔ routine ∈ others) :
    ofRoutines routines = ofRoutines others := by
  have hscopes : sortDistinct (routines.filterMap Routine.scope?) =
      sortDistinct (others.filterMap Routine.scope?) := by
    apply sortDistinct_eq_of_mem_iff
    intro scope
    simp only [List.mem_filterMap, h]
  unfold ofRoutines
  rw [hscopes, functionsIn_eq_of_mem_iff h none]
  simp only [functionsIn_eq_of_mem_iff h]

/-! ### Characters -/

theorem isReferenceChar_of_mem_functionsIn {scope? : Option String} {function : String}
    (h : function ∈ functionsIn scope? routines) {c : Char} (hmem : c ∈ function.toList) :
    Routine.isReferenceChar c = true := by
  obtain ⟨routine, -, heq⟩ := mem_functionsIn_iff.mp h
  cases heq
  exact Routine.isReferenceChar_of_mem_function hmem

theorem isReferenceChar_of_mem_scopes {scope : String × List String}
    (h : scope ∈ (ofRoutines routines).scopes) {c : Char} (hmem : c ∈ scope.1.toList) :
    Routine.isReferenceChar c = true := by
  obtain ⟨⟨routine, -, hscope⟩, -⟩ := mem_scopes_ofRoutines_iff.mp h
  exact Routine.isReferenceChar_of_mem_scope hscope hmem

theorem oneLine_ofRoutines (routines : List Routine) : (ofRoutines routines).OneLine where
  topLevel function h hmem :=
    absurd (isReferenceChar_of_mem_functionsIn h hmem) (by decide)
  scopes scope h hmem := absurd (isReferenceChar_of_mem_scopes h hmem) (by decide)
  functions scope h function hfunction hmem := by
    rw [(mem_scopes_ofRoutines_iff.mp h).2] at hfunction
    exact absurd (isReferenceChar_of_mem_functionsIn hfunction hmem) (by decide)

theorem pairwise_bytes_functionsIn (scope? : Option String) :
    (functionsIn scope? routines).Pairwise fun a b => bytes a < bytes b := by
  have hascii : ∀ function ∈ functionsIn scope? routines, IsAscii function :=
    fun function h c hmem =>
      Routine.toNat_lt_of_isReferenceChar (isReferenceChar_of_mem_functionsIn h hmem)
  exact (pairwise_sortDistinct _).imp_of_mem fun ha hb hlt =>
    bytes_lt_of_lt (hascii _ ha) (hascii _ hb) hlt

theorem inByteOrder_ofRoutines (routines : List Routine) : (ofRoutines routines).InByteOrder where
  topLevel := pairwise_bytes_functionsIn none
  scopes := by
    have hascii : ∀ scope ∈ (ofRoutines routines).scopes, IsAscii scope.1 :=
      fun scope h c hmem =>
        Routine.toNat_lt_of_isReferenceChar (isReferenceChar_of_mem_scopes h hmem)
    exact pairwise_scopes_ofRoutines.imp_of_mem fun ha hb hlt =>
      bytes_lt_of_lt (hascii _ ha) (hascii _ hb) hlt
  functions scope h := by
    rw [(mem_scopes_ofRoutines_iff.mp h).2]
    exact pairwise_bytes_functionsIn _

end Declarations

/-! ## The block in the text of the table -/

/-- Some entry has the routine as that of the bootstrap processor or as that of the others. -/
def Referenced (entries : List Entry) (routine : Routine) : Prop :=
  ∃ entry ∈ entries, ∃ bootstrap ap,
    entry.routines? = some (bootstrap, ap) ∧ (routine = bootstrap ∨ routine = ap)

theorem mem_routinesOf_iff {entries : List Entry} {routine : Routine} :
    routine ∈ routinesOf entries ↔ Referenced entries routine := by
  unfold routinesOf Referenced
  rw [List.mem_flatMap]
  simp only [List.mem_filterMap, List.mem_pair]
  constructor
  · rintro ⟨⟨bootstrap, ap⟩, ⟨entry, hentry, hroutines⟩, hmem⟩
    exact ⟨entry, hentry, bootstrap, ap, hroutines, hmem⟩
  · rintro ⟨entry, hentry, bootstrap, ap, hroutines, hmem⟩
    exact ⟨(bootstrap, ap), ⟨entry, hentry, hroutines⟩, hmem⟩

namespace TableText

/-- The lines of the table below the declarations. -/
def tableLines (entries : List Entry) (config : TableConfig) : List String :=
  ["namespace " ++ config.scope ++ " \x7b",
      "\tconst " ++ config.entryType ++ " " ++ config.tableName ++ "[] = \x7b"]
    ++ entries.map row
    ++ ["\t\t" ++ config.sentinel,
      "\t\x7d;",
      "\tAtomic<bool> " ++ config.completionArray ++ "["
        ++ decimal 1 (entries.length + 1) ++ "];",
      "\x7d"]

theorem lines_eq (entries : List Entry) (config : TableConfig) :
    lines entries config = ["#include <" ++ config.header ++ ">"] ++
      ((Declarations.ofRoutines (routinesOf entries)).lines ++ tableLines entries config) := by
  unfold lines tableLines
  simp only [List.append_assoc]

theorem render_eq (entries : List Entry) (config : TableConfig) :
    render entries config = "#include <" ++ config.header ++ ">\n" ++
      unlines (Declarations.ofRoutines (routinesOf entries)).lines ++
        unlines (tableLines entries config) := by
  have hfirst : unlines ["#include <" ++ config.header ++ ">"] =
      "#include <" ++ config.header ++ ">\n" := by
    unfold unlines
    rw [List.map_singleton, String.join_cons, String.join_nil, String.append_empty,
      String.append_assoc]
    rfl
  show unlines (lines entries config) = _
  rw [lines_eq, unlines_append, unlines_append, hfirst]
  exact String.append_assoc.symm

end TableText

/-- The block of declarations stands between the header and the table. It declares the routines
that the entries refer to, each once, and nothing else: the top-level functions first, then scope
by scope, in the order of their bytes. It is the same for all entries that refer to the same
routines. -/
theorem exists_block_of_render (entries : List Entry) :
    ∃ block declarations, Declarations.ofBlock? block = some declarations ∧
      (∀ others, (∀ routine, Referenced others routine ↔ Referenced entries routine) → ∀ config,
        TableText.render others config = "#include <" ++ config.header ++ ">\n" ++ block ++
          unlines (TableText.tableLines others config)) ∧
      declarations.declared.Nodup ∧
      (∀ routine : Routine,
        routine.declaration ∈ declarations.declared ↔ Referenced entries routine) ∧
      (∀ declaration ∈ declarations.declared,
        ∃ routine : Routine, Referenced entries routine ∧ routine.declaration = declaration) ∧
      declarations.InByteOrder := by
  have hdeclared {declaration : Option String × String} :
      declaration ∈ (Declarations.ofRoutines (routinesOf entries)).declared ↔
        ∃ routine : Routine, Referenced entries routine ∧ routine.declaration = declaration := by
    rw [Declarations.mem_declared_ofRoutines_iff]
    simp only [mem_routinesOf_iff]
  refine ⟨unlines (Declarations.ofRoutines (routinesOf entries)).lines,
    Declarations.ofRoutines (routinesOf entries),
    Declarations.ofBlock?_unlines (Declarations.oneLine_ofRoutines _), ?_,
    Declarations.nodup_declared_ofRoutines, fun routine => ?_, fun declaration => hdeclared.mp,
    Declarations.inByteOrder_ofRoutines _⟩
  · intro others hsame config
    have hblock : Declarations.ofRoutines (routinesOf others) =
        Declarations.ofRoutines (routinesOf entries) := by
      apply Declarations.ofRoutines_eq_of_mem_iff
      intro routine
      rw [mem_routinesOf_iff, mem_routinesOf_iff]
      exact hsame routine
    rw [TableText.render_eq, hblock]
  · rw [hdeclared]
    constructor
    · intro h
      obtain ⟨other, hother, heq⟩ := h
      rw [← Routine.eq_of_declaration_eq heq]
      exact hother
    · intro h
      exact ⟨routine, h, rfl⟩

end BootTable
