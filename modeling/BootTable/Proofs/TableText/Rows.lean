import BootTable.Proofs.Routine
import BootTable.Proofs.TableText.Literal
import BootTable.Proofs.Text.Lines
import BootTable.TableText

/-!
# BootTable — rows read back

A row says what an entry is called, which routines it refers to, which flags it has and how
important it is. A row is read from the left to the right without knowing the entry. The name is
the only field that may hold anything; but it stands in a literal, whose end can be told from what
stands in it. No other field has a comma.

* **`EntryFlags.ofExpression_text`**: flags are known by the names of the constants.
* **`row?_row`**: a row is read as what was written.
* **`newline_not_mem_row`**: a row is one line, whatever its entry is called.
-/

namespace BootTable

open Text

/-- A character that neither ends a field nor a line. -/
def isPlain (c : Char) : Bool :=
  c ≠ ',' && c ≠ '\n'

theorem ne_comma_of_isPlain {c : Char} (h : isPlain c = true) : c ≠ ',' := by
  unfold isPlain at h
  rw [Bool.and_eq_true, decide_eq_true_iff, decide_eq_true_iff] at h
  exact h.1

/-! ## Flags -/

namespace EntryFlags

/-- The flags whose constants are among the given words. -/
def ofWords (words : List (List Char)) : EntryFlags :=
  (constants.filter fun constant => constant.2.toList ∈ words).foldl
    (fun flags constant => flags.union constant.1) empty

/-- Reads an expression of the kernel's constants, word by word. -/
def ofExpression (expression : List Char) : EntryFlags :=
  ofWords (expression.splitOn ' ')

theorem mem_splitOn_intercalate_iff {names : List String} (hne : names ≠ [])
    (h : ∀ name ∈ names, ' ' ∉ name.toList) {word : List Char} (hword : word ≠ ['|']) :
    word ∈ (" | ".intercalate names).toList.splitOn ' ' ↔ word ∈ names.map String.toList := by
  induction names with
  | nil => exact absurd rfl hne
  | cons name others ih =>
    rw [List.forall_mem_cons] at h
    by_cases hlast : others = []
    · rw [hlast, String.intercalate_singleton, List.splitOn_eq_singleton h.1]
      rfl
    · -- Between two names stand two spaces with a bar of its own between them.
      have hsplit : (" | ".intercalate (name :: others)).toList =
          name.toList ++ ' ' :: (['|'] ++ ' ' :: (" | ".intercalate others).toList) := by
        rw [String.intercalate_cons_of_ne_nil hlast, String.toList_append, String.toList_append,
          List.append_assoc]
        rfl
      rw [hsplit, List.splitOn_append_cons_self_of_not_mem h.1,
        List.splitOn_append_cons_self_of_not_mem (by decide), List.mem_cons, List.mem_cons,
        ih hlast h.2, List.map_cons, List.mem_cons]
      simp [hword]

theorem constants_named_apart :
    ∀ a ∈ constants, ∀ b ∈ constants, a.2.toList = b.2.toList → a = b := by
  decide

theorem name_is_word : ∀ constant ∈ constants, constant.2.toList ≠ ['|'] ∧
    constant.2.toList ≠ "CF_NONE".toList ∧ ' ' ∉ constant.2.toList ∧
      constant.2.toList.all isPlain = true := by
  decide

theorem exists_constant_of_mem_names {flags : EntryFlags} {name : String} (h : name ∈ flags.names) :
    ∃ constant ∈ constants, flags.contains constant.1 = true ∧ constant.2 = name := by
  obtain ⟨constant, hmem, hname⟩ := List.mem_map.mp h
  obtain ⟨hconstant, hcontains⟩ := List.mem_filter.mp hmem
  exact ⟨constant, hconstant, hcontains, hname⟩

/-- The name of a constant is a word of the expression exactly if the flag is set. -/
theorem mem_words_text_iff {flags : EntryFlags} {constant : EntryFlags × String}
    (h : constant ∈ constants) :
    constant.2.toList ∈ flags.text.toList.splitOn ' ' ↔ flags.contains constant.1 = true := by
  obtain ⟨hbar, hnone, -⟩ := name_is_word constant h
  have hnames : constant.2.toList ∈ flags.names.map String.toList ↔
      flags.contains constant.1 = true := by
    rw [List.mem_map]
    constructor
    · intro hmem
      obtain ⟨name, hname, heq⟩ := hmem
      obtain ⟨other, hother, hcontains, rfl⟩ := exists_constant_of_mem_names hname
      rw [← constants_named_apart other hother constant h heq]
      exact hcontains
    · intro hcontains
      exact ⟨constant.2, List.mem_map_of_mem (List.mem_filter.mpr ⟨h, hcontains⟩), rfl⟩
  rw [← hnames]
  unfold text
  by_cases hempty : flags.names = []
  · rw [hempty]
    have hword : "CF_NONE".toList.splitOn ' ' = ["CF_NONE".toList] :=
      List.splitOn_eq_singleton (by decide)
    show constant.2.toList ∈ "CF_NONE".toList.splitOn ' ' ↔ constant.2.toList ∈ []
    rw [hword, List.mem_singleton]
    exact iff_of_false hnone List.not_mem_nil
  · have hspaces : ∀ name ∈ flags.names, ' ' ∉ name.toList := by
      intro name hname hspace
      obtain ⟨other, hother, -, rfl⟩ := exists_constant_of_mem_names hname
      exact (name_is_word other hother).2.2.1 hspace
    rw [if_neg (by simpa using hempty)]
    exact mem_splitOn_intercalate_iff hempty hspaces hbar

theorem foldl_union_eq_known : ∀ bits : BitVec 8,
    (constants.filter fun constant => (EntryFlags.mk bits).contains constant.1).foldl
      (fun flags constant => flags.union constant.1) empty = (EntryFlags.mk bits).known := by
  decide +kernel

theorem ofExpression_text (flags : EntryFlags) : ofExpression flags.text.toList = flags.known := by
  have hfilter : (constants.filter fun constant =>
      constant.2.toList ∈ flags.text.toList.splitOn ' ') =
        constants.filter fun constant => flags.contains constant.1 := by
    apply List.filter_congr
    intro constant hconstant
    exact Bool.eq_iff_iff.mpr (by rw [decide_eq_true_iff, mem_words_text_iff hconstant])
  unfold ofExpression ofWords
  rw [hfilter]
  exact foldl_union_eq_known flags.bits

theorem mem_intercalate {mark : String} {names : List String} {c : Char}
    (h : c ∈ (mark.intercalate names).toList) :
    c ∈ mark.toList ∨ ∃ name ∈ names, c ∈ name.toList := by
  induction names with
  | nil => exact absurd h (by simp)
  | cons name others ih =>
    by_cases hlast : others = []
    · rw [hlast, String.intercalate_singleton] at h
      exact .inr ⟨name, List.mem_cons_self, h⟩
    · rw [String.intercalate_cons_of_ne_nil hlast, String.toList_append, String.toList_append,
        List.mem_append, List.mem_append] at h
      rcases h with (hname | hmark) | hothers
      · exact .inr ⟨name, List.mem_cons_self, hname⟩
      · exact .inl hmark
      · rcases ih hothers with hmark | ⟨other, hother, hin⟩
        · exact .inl hmark
        · exact .inr ⟨other, List.mem_cons_of_mem _ hother, hin⟩

theorem isPlain_of_mem_text {flags : EntryFlags} {c : Char} (h : c ∈ flags.text.toList) :
    isPlain c = true := by
  have hnone : "CF_NONE".toList.all isPlain = true := by decide
  have hbar : " | ".toList.all isPlain = true := by decide
  unfold text at h
  split at h
  · exact List.all_eq_true.mp hnone c h
  · rcases mem_intercalate h with hmark | ⟨name, hname, hin⟩
    · exact List.all_eq_true.mp hbar c hmark
    · obtain ⟨constant, hconstant, -, rfl⟩ := exists_constant_of_mem_names hname
      exact List.all_eq_true.mp (name_is_word constant hconstant).2.2.2 c hin

end EntryFlags

namespace TableText

/-! ## Rows -/

/-- What a row says about its entry. -/
structure Row where
  name : String
  /-- The reference to the routine of the bootstrap processor, or the null pointer. -/
  bootstrap : String
  /-- The reference to the routine of the others, or the null pointer. -/
  ap : String
  /-- Bits that no flag has do not show. -/
  flags : EntryFlags
  importance : Importance
deriving DecidableEq

def Row.ofEntry (entry : Entry) : Row :=
  { name := entry.name
    bootstrap := (references entry).1
    ap := (references entry).2
    flags := entry.flags.known
    importance := entry.importance }

/-- Reads a field that ends before the next comma. -/
def field? (mark : String) (cs : List Char) : Option (List Char × List Char) :=
  (after? mark cs).map fun rest => rest.span (· ≠ ',')

def row? (line : List Char) : Option Row := do
  let rest ← after? "\t\t\x7b .name = \x22" line
  let (name, rest) := CString.readBody rest
  let (bootstrap, rest) ← field? "\x22, .bootstrap_initializer = " rest
  let (ap, rest) ← field? ", .ap_initializer = " rest
  let (flags, rest) ← field? ", .flags = " rest
  let key ← between? ", .logging_importance = LoggingImportance::" " \x7d," rest
  let importance ← Importance.ofKey? (String.ofList key)
  return {
    name := String.ofList name
    bootstrap := String.ofList bootstrap
    ap := String.ofList ap
    flags := EntryFlags.ofExpression flags
    importance }

theorem isPlain_of_mem_references {entry : Entry} {c : Char}
    (h : c ∈ (references entry).1.toList ∨ c ∈ (references entry).2.toList) :
    isPlain c = true := by
  have hnull : "nullptr".toList.all isPlain = true := by decide
  have hplain {routine : Routine} (hmem : c ∈ routine.text.toList) : isPlain c = true := by
    have hchar := Routine.isReferenceChar_of_mem_text hmem
    unfold isPlain
    rw [Bool.and_eq_true, decide_eq_true_iff, decide_eq_true_iff]
    constructor
    · rintro rfl
      exact absurd hchar (by decide)
    · rintro rfl
      exact absurd hchar (by decide)
  unfold references at h
  split at h
  · rcases h with hmem | hmem
    · exact List.all_eq_true.mp hnull c hmem
    · exact List.all_eq_true.mp hnull c hmem
  · rcases h with hmem | hmem
    · exact hplain hmem
    · exact hplain hmem

/-- A field is read up to the mark of the next one, which begins with a comma. -/
theorem field?_append (mark next : String) (hnext : next.toList.head? = some ',') {cs : List Char}
    (hplain : ∀ c ∈ cs, c ≠ ',') (rest : List Char) :
    field? mark (mark.toList ++ (cs ++ (next.toList ++ rest))) =
      some (cs, next.toList ++ rest) := by
  obtain ⟨marks, hmarks⟩ := List.head?_eq_some_iff.mp hnext
  have hall : ∀ c ∈ cs, (decide (c ≠ ',')) = true := fun c hmem => decide_eq_true (hplain c hmem)
  unfold field?
  rw [after?_append, Option.map_some, hmarks, List.cons_append, span_append hall rfl]

/-- A row, field by field. -/
theorem toList_row (entry : Entry) :
    (row entry).toList =
      "\t\t\x7b .name = \x22".toList ++ (entry.name.toList.flatMap CString.escapeChar ++
        ("\x22, .bootstrap_initializer = ".toList ++ ((references entry).1.toList ++
          (", .ap_initializer = ".toList ++ ((references entry).2.toList ++
            (", .flags = ".toList ++ (entry.flags.text.toList ++
              (", .logging_importance = LoggingImportance::".toList ++
                (entry.importance.key.toList ++ " \x7d,".toList))))))))) := by
  unfold row CString.escape
  simp only [String.toList_append, String.toList_ofList, List.append_assoc]

theorem row?_row (entry : Entry) : row? (row entry).toList = some (Row.ofEntry entry) := by
  have hname (rest : List Char) : CString.readBody
      (entry.name.toList.flatMap CString.escapeChar ++
        ("\x22, .bootstrap_initializer = ".toList ++ rest)) =
        (entry.name.toList, "\x22, .bootstrap_initializer = ".toList ++ rest) :=
    CString.readBody_escape_append _ _ rfl
  have hbootstrap : ∀ c ∈ (references entry).1.toList, c ≠ ',' := fun c hmem =>
    ne_comma_of_isPlain (isPlain_of_mem_references (.inl hmem))
  have hap : ∀ c ∈ (references entry).2.toList, c ≠ ',' := fun c hmem =>
    ne_comma_of_isPlain (isPlain_of_mem_references (.inr hmem))
  have hflags : ∀ c ∈ entry.flags.text.toList, c ≠ ',' := fun c hmem =>
    ne_comma_of_isPlain (EntryFlags.isPlain_of_mem_text hmem)
  unfold row?
  rw [toList_row, after?_append, Option.bind_eq_bind, Option.bind_some, hname]
  simp only [Option.bind_eq_bind]
  rw [field?_append _ ", .ap_initializer = " (by decide) hbootstrap, Option.bind_some]
  simp only
  rw [field?_append _ ", .flags = " (by decide) hap, Option.bind_some]
  simp only
  rw [field?_append _ ", .logging_importance = LoggingImportance::" (by decide) hflags,
    Option.bind_some]
  simp only
  rw [between?_append, Option.bind_some]
  simp only [String.ofList_toList, Importance.ofKey?_key, Option.bind_some,
    EntryFlags.ofExpression_text]
  rfl

theorem newline_not_mem_row (entry : Entry) : '\n' ∉ (row entry).toList := by
  have hname : '\n' ∉ entry.name.toList.flatMap CString.escapeChar := by
    intro hmem
    obtain ⟨c, -, hescape⟩ := List.mem_flatMap.mp hmem
    exact absurd (CString.isControl_of_mem_escapeChar hescape) (by decide)
  have hreferences : ¬('\n' ∈ (references entry).1.toList ∨ '\n' ∈ (references entry).2.toList) :=
    fun hmem => absurd (isPlain_of_mem_references hmem) (by decide)
  have hflags : '\n' ∉ entry.flags.text.toList := fun hmem =>
    absurd (EntryFlags.isPlain_of_mem_text hmem) (by decide)
  have hkey : '\n' ∉ entry.importance.key.toList := by
    cases entry.importance <;> decide
  rw [not_or] at hreferences
  rw [toList_row]
  simp only [List.mem_append, not_or]
  exact ⟨by decide, hname, by decide, hreferences.1, by decide, hreferences.2, by decide, hflags,
    by decide, hkey, by decide⟩

end TableText

end BootTable
