/-!
# BootTable — texts in increasing order

Lists a set of texts once each in strictly increasing order. Texts are compared by code points,
which is the order of their UTF-8 bytes. Main statement: `mem_sortDistinct`.
-/

namespace BootTable.Text

/-- Puts a text into a strictly increasing list, unless it is there already. -/
def insertDistinct (text : String) : List String → List String
  | [] => [text]
  | other :: others =>
    if text < other then text :: other :: others
    else if text = other then other :: others
    else other :: insertDistinct text others

/-- The texts of a list, once each, in strictly increasing order. -/
def sortDistinct (texts : List String) : List String :=
  texts.foldr insertDistinct []

@[simp] theorem mem_insertDistinct {a text : String} {texts : List String} :
    a ∈ insertDistinct text texts ↔ a = text ∨ a ∈ texts := by
  induction texts with
  | nil => simp [insertDistinct]
  | cons b bs ih =>
    unfold insertDistinct
    split
    · simp
    · split
      · rename_i h
        subst h
        simp
      · simp only [List.mem_cons, ih]
        constructor
        · rintro (h | h | h) <;> simp [h]
        · rintro (h | h | h) <;> simp [h]

@[simp] theorem mem_sortDistinct {a : String} {texts : List String} :
    a ∈ sortDistinct texts ↔ a ∈ texts := by
  induction texts with
  | nil => simp [sortDistinct]
  | cons b bs ih =>
    rw [sortDistinct, List.foldr_cons, mem_insertDistinct, ← sortDistinct, ih, List.mem_cons]

end BootTable.Text
