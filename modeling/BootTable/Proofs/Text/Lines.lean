import Mathlib.Data.List.Basic
import Mathlib.Data.List.TakeDrop

/-!
# BootTable — lines read back

Readers of texts work line by line, and on a line from the left to the right: a mark is taken off
its front, or everything up to a stop. On what was written with the same marks each of these
readers takes off exactly what was written, whatever stands behind it.

* **`linesOf_unlines`**: the lines of a text that was written line by line.
* **`after?_append`**, **`between?_append`**, **`span_append`**: the steps of a reader.
-/

namespace BootTable.Text

/-- The lines of a text, without their ends. What stands behind the last end is no line. -/
def linesOf (text : String) : List (List Char) :=
  (text.toList.splitOn '\n').dropLast

def unlines (lines : List String) : String :=
  String.join (lines.map fun line => line ++ "\n")

theorem unlines_append (as bs : List String) : unlines (as ++ bs) = unlines as ++ unlines bs := by
  unfold unlines
  rw [List.map_append, String.join_append]

theorem newline_not_mem_append {a b : String} (ha : '\n' ∉ a.toList) (hb : '\n' ∉ b.toList) :
    '\n' ∉ (a ++ b).toList := by
  rw [String.toList_append, List.mem_append, not_or]
  exact ⟨ha, hb⟩

theorem splitOn_unlines {lines : List String} (h : ∀ line ∈ lines, '\n' ∉ line.toList) :
    (unlines lines).toList.splitOn '\n' = lines.map String.toList ++ [[]] := by
  induction lines with
  | nil => rfl
  | cons line others ih =>
    rw [List.forall_mem_cons] at h
    have hstep : (unlines (line :: others)).toList =
        line.toList ++ '\n' :: (unlines others).toList := by
      unfold unlines
      rw [List.map_cons, String.join_cons, String.toList_append, String.toList_append,
        List.append_assoc]
      rfl
    rw [hstep, List.splitOn_append_cons_self_of_not_mem h.1, ih h.2]
    rfl

theorem linesOf_unlines {lines : List String} (h : ∀ line ∈ lines, '\n' ∉ line.toList) :
    linesOf (unlines lines) = lines.map String.toList := by
  unfold linesOf
  rw [splitOn_unlines h, List.dropLast_concat]

/-! ## Steps on a line -/

/-- What stands behind a mark, if the mark stands in front. -/
def after? (mark : String) (cs : List Char) : Option (List Char) :=
  cs.dropPrefix? mark.toList

/-- What stands between two marks at the ends of a line. -/
def between? (opening closing : String) (line : List Char) : Option (List Char) :=
  (after? opening line).bind fun rest => rest.dropSuffix? closing.toList

theorem after?_append (mark : String) (rest : List Char) :
    after? mark (mark.toList ++ rest) = some rest :=
  List.dropPrefix?_append_of_beq rest (beq_self_eq_true _)

theorem between?_append (opening closing : String) (cs : List Char) :
    between? opening closing (opening.toList ++ (cs ++ closing.toList)) = some cs := by
  unfold between?
  rw [after?_append, Option.bind_some, List.dropSuffix?_eq_some_iff]
  exact ⟨closing.toList, rfl, beq_self_eq_true _⟩

theorem span_append {α : Type} {p : α → Bool} {as : List α} (hall : ∀ a ∈ as, p a = true)
    {stop : α} (hstop : p stop = false) (rest : List α) :
    (as ++ stop :: rest).span p = (as, stop :: rest) := by
  rw [List.span_eq_takeWhile_dropWhile, List.takeWhile_append_of_pos hall,
    List.dropWhile_append_of_pos hall]
  simp [hstop]

end BootTable.Text
