import BootTable.Proofs.TableText.Declarations
import BootTable.Proofs.TableText.Rows

/-!
# BootTable — tables read back

The text of a table is read without knowing the entries or the names in it. The declarations above
the table are skipped, as many lines as there are: no line in front of the table begins as the one
that opens it. The rows and the entry that ends the table are indented more than the line that
closes it, so that nothing that stands in them can be taken for that line. The places of the array
are counted behind the last bracket, for its name may have brackets too.

* **`array?_arrayLine`**: the name of the array and its places are told apart.
* **`newline_not_mem_lines`**: every line is one line, so the text has the lines that were written.
* **`contents?_render`**: a text is read as what was written.
* **`exists_contents_of_render`**: so a text says what every entry is, in order.
-/

namespace BootTable

open Text

/-- The names, in the order of their keys. -/
def TableConfig.names (config : TableConfig) : List String :=
  [config.header, config.scope, config.tableName, config.completionArray, config.entryType,
    config.sentinel]

/-- No name goes over several lines. -/
def TableConfig.OneLine (config : TableConfig) : Prop :=
  ∀ name ∈ config.names, '\n' ∉ name.toList

instance (config : TableConfig) : Decidable config.OneLine :=
  inferInstanceAs (Decidable (∀ name ∈ config.names, '\n' ∉ name.toList))

namespace TableText

/-! ## Reading -/

/-- What the text of a table says. -/
structure Contents where
  /-- The rows in front of the entry that ends the table. -/
  rows : List Row
  sentinel : String
  completionArray : String
  /-- The number of places of the completion array. -/
  places : Nat
deriving DecidableEq

def opensTable (line : List Char) : Bool :=
  (after? "\tconst " line).isSome

def closesTable (line : List Char) : Bool :=
  line = "\t\x7d;".toList

/-- Reads the name of an array and its number of places, from the end. -/
def array? (line : List Char) : Option (String × Nat) :=
  (between? "\tAtomic<bool> " "];" line).map fun cs =>
    let (digits, rest) := cs.reverse.span Char.isDigit
    (String.ofList (rest.drop 1).reverse, Nat.ofDigitChars 10 digits.reverse 0)

/-- The lines below the one that opens the table. -/
def belowOpening (lines : List (List Char)) : List (List Char) :=
  (lines.dropWhile fun line => !opensTable line).drop 1

def contents? (text : String) : Option Contents := do
  let (inner, rest) := (belowOpening (linesOf text)).span fun line => !closesTable line
  let rows ← inner.dropLast.mapM row?
  let sentinel ← inner.getLast?.bind (after? "\t\t")
  let (completionArray, places) ← rest[1]?.bind array?
  return { rows, sentinel := String.ofList sentinel, completionArray, places }

/-! ## Reading what was written -/

theorem decimal_one (n : Nat) : (decimal 1 n).toList = Nat.toDigits 10 n := by
  have hlength : 1 - (Nat.toDigits 10 n).length = 0 :=
    Nat.sub_eq_zero_of_le (List.length_pos_of_ne_nil Nat.toDigits_ne_nil)
  unfold decimal zeroFilled
  rw [String.toList_ofList, hlength, List.replicate_zero, List.nil_append]

def arrayLine (name : String) (places : Nat) : String :=
  "\tAtomic<bool> " ++ name ++ "[" ++ decimal 1 places ++ "];"

theorem toList_arrayLine (name : String) (places : Nat) :
    (arrayLine name places).toList =
      "\tAtomic<bool> ".toList ++ ((name.toList ++ '[' :: Nat.toDigits 10 places) ++
        "];".toList) := by
  unfold arrayLine
  simp only [String.toList_append, decimal_one, List.append_assoc]
  rfl

theorem array?_arrayLine (name : String) (places : Nat) :
    array? (arrayLine name places).toList = some (name, places) := by
  have hdigits : ∀ c ∈ (Nat.toDigits 10 places).reverse, c.isDigit = true := by
    intro c hmem
    exact Nat.isDigit_of_mem_toDigits (by decide) (by decide) (List.mem_reverse.mp hmem)
  have hreverse : (name.toList ++ '[' :: Nat.toDigits 10 places).reverse =
      (Nat.toDigits 10 places).reverse ++ '[' :: name.toList.reverse := by
    rw [List.reverse_append, List.reverse_cons, List.append_assoc]
    rfl
  unfold array?
  rw [toList_arrayLine, between?_append, Option.map_some, hreverse, span_append hdigits rfl]
  simp only [List.drop_one, List.tail_cons, List.reverse_reverse, String.ofList_toList,
    Nat.ofDigitChars_ten_toDigits]

theorem newline_not_mem_arrayLine {name : String} (h : '\n' ∉ name.toList) (places : Nat) :
    '\n' ∉ (arrayLine name places).toList := by
  have hdigits : '\n' ∉ Nat.toDigits 10 places := fun hmem =>
    absurd (Nat.isDigit_of_mem_toDigits (by decide) (by decide) hmem) (by decide)
  rw [toList_arrayLine]
  simp only [List.mem_append, List.mem_cons, not_or]
  exact ⟨by decide, ⟨h, by decide, hdigits⟩, by decide⟩

/-! ### Lines -/

/-- The opening of the table. -/
def openingLine (config : TableConfig) : String :=
  "\tconst " ++ config.entryType ++ " " ++ config.tableName ++ "[] = \x7b"

theorem newline_not_mem_lines {config : TableConfig} (h : config.OneLine) (entries : List Entry) :
    ∀ line ∈ lines entries config, '\n' ∉ line.toList := by
  have hnames := h
  unfold TableConfig.OneLine TableConfig.names at hnames
  simp only [List.forall_mem_cons] at hnames
  obtain ⟨hheader, hscope, htable, harray, htype, hsentinel, -⟩ := hnames
  have hfirst : '\n' ∉ ("#include <" ++ config.header ++ ">").toList :=
    newline_not_mem_append (newline_not_mem_append (by decide) hheader) (by decide)
  have hspace : '\n' ∉ ("namespace " ++ config.scope ++ " \x7b").toList :=
    newline_not_mem_append (newline_not_mem_append (by decide) hscope) (by decide)
  have hopening : '\n' ∉ (openingLine config).toList := by
    have htyped := newline_not_mem_append (a := "\tconst ") (by decide) htype
    have hspaced := newline_not_mem_append htyped (b := " ") (by decide)
    exact newline_not_mem_append (newline_not_mem_append hspaced htable) (by decide)
  have hend : '\n' ∉ ("\t\t" ++ config.sentinel).toList :=
    newline_not_mem_append (by decide) hsentinel
  intro line hline
  rw [lines_eq] at hline
  unfold tableLines at hline
  simp only [List.mem_append, List.mem_cons, List.mem_map, List.not_mem_nil, or_false] at hline
  rcases hline with rfl | hdeclared | ((rfl | rfl) | ⟨entry, -, rfl⟩) | rfl | rfl | rfl | rfl
  · exact hfirst
  · exact Declarations.newline_not_mem_lines (Declarations.oneLine_ofRoutines _) line hdeclared
  · exact hspace
  · exact hopening
  · exact newline_not_mem_row entry
  · exact hend
  · decide
  · exact newline_not_mem_arrayLine harray _
  · decide

theorem linesOf_render {config : TableConfig} (h : config.OneLine) (entries : List Entry) :
    linesOf (render entries config) = (lines entries config).map String.toList :=
  linesOf_unlines (newline_not_mem_lines h entries)

theorem row_mem_linesOf_render {config : TableConfig} (h : config.OneLine) {entries : List Entry}
    {entry : Entry} (hmem : entry ∈ entries) :
    (row entry).toList ∈ linesOf (render entries config) := by
  rw [linesOf_render h]
  refine List.mem_map_of_mem ?_
  unfold lines
  exact List.mem_append_left _ (List.mem_append_right _ (List.mem_map_of_mem hmem))

/-- No line in front of the table opens it. -/
theorem not_opensTable_of_mem_lines {declarations : Declarations} {line : String}
    (h : line ∈ declarations.lines) : opensTable line.toList = false := by
  rcases Declarations.cases_of_mem_lines h with ⟨function, -, rfl⟩ |
    ⟨scope, -, rfl | ⟨function, -, rfl⟩ | rfl | rfl⟩
  · rw [Declarations.toList_functionLine]
    rfl
  · rw [String.append_assoc, String.toList_append]
    rfl
  · rw [String.toList_append, Declarations.toList_functionLine]
    rfl
  · rfl
  · rfl

theorem opensTable_openingLine (config : TableConfig) :
    opensTable (openingLine config).toList = true := by
  have hline : (openingLine config).toList = "\tconst ".toList ++
      (config.entryType ++ " " ++ config.tableName ++ "[] = \x7b").toList := by
    unfold openingLine
    simp only [String.toList_append, List.append_assoc]
  unfold opensTable
  rw [hline, after?_append]
  rfl

theorem not_closesTable_row (entry : Entry) : closesTable (row entry).toList = false := by
  rw [toList_row]
  rfl

theorem not_closesTable_sentinel (sentinel : String) :
    closesTable ("\t\t" ++ sentinel).toList = false := by
  rw [String.toList_append]
  rfl

theorem belowOpening_append {front : List String}
    (h : ∀ line ∈ front, opensTable line.toList = false) (config : TableConfig)
    (rest : List (List Char)) :
    belowOpening (front.map String.toList ++ (openingLine config).toList :: rest) = rest := by
  have hfront : ∀ line ∈ front.map String.toList, (!opensTable line) = true := by
    intro line hline
    obtain ⟨text, htext, rfl⟩ := List.mem_map.mp hline
    rw [h text htext, Bool.not_false]
  unfold belowOpening
  rw [List.dropWhile_append_of_pos hfront, List.dropWhile_cons_of_neg, List.drop_one,
    List.tail_cons]
  rw [opensTable_openingLine, Bool.not_true]
  exact Bool.false_ne_true

theorem belowOpening_lines (entries : List Entry) (config : TableConfig) :
    belowOpening ((lines entries config).map String.toList) =
      (entries.map row ++ ["\t\t" ++ config.sentinel]).map String.toList ++
        "\t\x7d;".toList ::
          [(arrayLine config.completionArray (entries.length + 1)).toList, "\x7d".toList] := by
  -- Only the first characters of a line count, and no name stands there.
  have hfront : ∀ line ∈ ["#include <" ++ config.header ++ ">"] ++
      (Declarations.ofRoutines (routinesOf entries)).lines ++
        ["namespace " ++ config.scope ++ " \x7b"], opensTable line.toList = false := by
    intro line hline
    rw [List.mem_append, List.mem_append, List.mem_singleton, List.mem_singleton] at hline
    rcases hline with (rfl | hdeclared) | rfl
    · rw [String.append_assoc, String.toList_append]
      rfl
    · exact not_opensTable_of_mem_lines hdeclared
    · rw [String.append_assoc, String.toList_append]
      rfl
  have hlines : lines entries config = (["#include <" ++ config.header ++ ">"] ++
      (Declarations.ofRoutines (routinesOf entries)).lines ++
        ["namespace " ++ config.scope ++ " \x7b"]) ++
      openingLine config :: ((entries.map row ++ ["\t\t" ++ config.sentinel]) ++
        ["\t\x7d;", arrayLine config.completionArray (entries.length + 1), "\x7d"]) := by
    unfold lines openingLine arrayLine
    simp only [List.append_assoc, List.cons_append, List.nil_append]
  rw [hlines, List.map_append, List.map_cons, belowOpening_append hfront, List.map_append]
  rfl

theorem mapM_row? (entries : List Entry) :
    ((entries.map row).map String.toList).mapM row? = some (entries.map Row.ofEntry) := by
  induction entries with
  | nil => rfl
  | cons entry others ih =>
    rw [List.map_cons, List.map_cons, List.mapM_cons, row?_row, ih]
    rfl

theorem contents?_render {config : TableConfig} (h : config.OneLine) (entries : List Entry) :
    contents? (render entries config) =
      some {
        rows := entries.map Row.ofEntry
        sentinel := config.sentinel
        completionArray := config.completionArray
        places := entries.length + 1 } := by
  have hinner : ∀ line ∈ (entries.map row ++ ["\t\t" ++ config.sentinel]).map String.toList,
      (!closesTable line) = true := by
    intro line hline
    rw [List.mem_map] at hline
    obtain ⟨text, htext, rfl⟩ := hline
    rw [List.mem_append, List.mem_map, List.mem_singleton] at htext
    rcases htext with ⟨entry, -, rfl⟩ | rfl
    · rw [not_closesTable_row, Bool.not_false]
    · rw [not_closesTable_sentinel, Bool.not_false]
  have hsentinel : after? "\t\t" ("\t\t" ++ config.sentinel).toList =
      some config.sentinel.toList := by
    rw [String.toList_append, after?_append]
  unfold contents?
  rw [linesOf_render h, belowOpening_lines, span_append hinner (by decide)]
  simp only [List.map_append, List.map_cons, List.map_nil, List.dropLast_concat, mapM_row?,
    List.getLast?_concat, List.getElem?_cons_succ, List.getElem?_cons_zero, Option.bind_eq_bind,
    Option.bind_some, hsentinel, array?_arrayLine]
  rw [String.ofList_toList]
  rfl

end TableText

end BootTable
