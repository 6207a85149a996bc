import BootTable.Text.Sorted
import Mathlib.Data.List.Sort
import Mathlib.Data.String.Basic

/-!
# BootTable — one list for every set of texts

The sorted list of some texts is strictly increasing, so it depends on nothing but the set of the
texts. For texts of ASCII the order of code points is seen in the bytes: each character is one byte.

* **`pairwise_sortDistinct`**, **`sortDistinct_eq_of_mem_iff`**: order and uniqueness.
* **`bytes_lt_of_lt`**: the order by bytes.
-/

namespace BootTable.Text

theorem pairwise_insertDistinct {texts : List String} (h : texts.Pairwise (· < ·)) (text : String) :
    (insertDistinct text texts).Pairwise (· < ·) := by
  induction texts with
  | nil => exact List.pairwise_singleton _ _
  | cons other others ih =>
    obtain ⟨hbefore, hothers⟩ := List.pairwise_cons.mp h
    unfold insertDistinct
    split
    · rename_i hlt
      refine List.pairwise_cons.mpr ⟨fun later hmem => ?_, h⟩
      rcases List.mem_cons.mp hmem with rfl | hin
      · exact hlt
      · exact hlt.trans (hbefore later hin)
    · split
      · exact h
      · rename_i hnot hne
        have hgt : other < text := lt_of_le_of_ne (not_lt.mp hnot) fun heq => hne heq.symm
        refine List.pairwise_cons.mpr ⟨fun later hmem => ?_, ih hothers⟩
        rcases mem_insertDistinct.mp hmem with rfl | hin
        · exact hgt
        · exact hbefore later hin

theorem pairwise_sortDistinct (texts : List String) : (sortDistinct texts).Pairwise (· < ·) := by
  induction texts with
  | nil => exact List.Pairwise.nil
  | cons text others ih => exact pairwise_insertDistinct ih text

theorem sortDistinct_eq_of_mem_iff {as bs : List String} (h : ∀ text, text ∈ as ↔ text ∈ bs) :
    sortDistinct as = sortDistinct bs := by
  apply (pairwise_sortDistinct as).eq_of_mem_iff (pairwise_sortDistinct bs)
  intro text
  rw [mem_sortDistinct, mem_sortDistinct]
  exact h text

/-! ## Bytes -/

/-- The bytes of a text in UTF-8. -/
def bytes (text : String) : List UInt8 :=
  text.toUTF8.data.toList

def IsAscii (text : String) : Prop :=
  ∀ c ∈ text.toList, c.toNat < 0x80

theorem flatMap_utf8EncodeChar {cs : List Char} (h : ∀ c ∈ cs, c.toNat < 0x80) :
    cs.flatMap String.utf8EncodeChar = cs.map fun c => c.val.toUInt8 := by
  induction cs with
  | nil => rfl
  | cons c others ih =>
    rw [List.forall_mem_cons] at h
    have hone : c.utf8Size = 1 := by
      rw [Char.utf8Size_eq_one_iff, UInt32.le_iff_toNat_le]
      exact Nat.le_of_lt_succ h.1
    rw [List.flatMap_cons, String.utf8EncodeChar_eq_singleton hone, ih h.2]
    rfl

theorem bytes_eq_map {text : String} (h : IsAscii text) :
    bytes text = text.toList.map fun c => c.val.toUInt8 := by
  have hencode : text.toUTF8 = (text.toList.flatMap String.utf8EncodeChar).toByteArray := by
    rw [String.toUTF8_eq_toByteArray, ← String.utf8Encode_toList]
    rfl
  unfold bytes
  rw [hencode, List.toList_data_toByteArray, flatMap_utf8EncodeChar h]

theorem toUInt8_lt_of_lt {c d : Char} (hc : c.toNat < 0x80) (hd : d.toNat < 0x80) (h : c < d) :
    c.val.toUInt8 < d.val.toUInt8 := by
  have hlt : c.val.toNat < d.val.toNat := h
  have hc' : c.val.toNat < 0x80 := hc
  have hd' : d.val.toNat < 0x80 := hd
  rw [UInt8.lt_iff_toNat_lt, UInt32.toNat_toUInt8, UInt32.toNat_toUInt8]
  omega

theorem map_toUInt8_lt_of_lt {cs ds : List Char} (hcs : ∀ c ∈ cs, c.toNat < 0x80)
    (hds : ∀ d ∈ ds, d.toNat < 0x80) (h : cs < ds) :
    (cs.map fun c => c.val.toUInt8) < ds.map fun d => d.val.toUInt8 := by
  induction cs generalizing ds with
  | nil =>
    cases ds with
    | nil => exact absurd h (List.not_lt_nil _)
    | cons d others => exact List.nil_lt_cons _ _
  | cons c cs ih =>
    cases ds with
    | nil => exact absurd h (List.not_lt_nil _)
    | cons d ds =>
      rw [List.forall_mem_cons] at hcs hds
      rw [List.map_cons, List.map_cons]
      rcases List.cons_lt_cons_iff.mp h with hlt | ⟨rfl, hlt⟩
      · exact List.cons_lt_cons_iff.mpr (.inl (toUInt8_lt_of_lt hcs.1 hds.1 hlt))
      · exact List.cons_lt_cons_iff.mpr (.inr ⟨rfl, ih hcs.2 hds.2 hlt⟩)

theorem bytes_lt_of_lt {a b : String} (ha : IsAscii a) (hb : IsAscii b) (h : a < b) :
    bytes a < bytes b := by
  rw [bytes_eq_map ha, bytes_eq_map hb]
  exact map_toUInt8_lt_of_lt ha hb (String.lt_iff_toList_lt.mp h)

end BootTable.Text
