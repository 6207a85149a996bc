import BootTable.TableText.CString
import Mathlib.Algebra.Ring.Parity
import Mathlib.Data.List.DropRight
import Mathlib.Data.List.TakeWhile

/-!
# BootTable — literals read back

A string literal is read from its opening quote on, character by character, up to its closing quote
or the end of its line. After a backslash stands either one of five simple escapes or an octal
escape, which takes as many digits as there are, up to three. An escape that was written with three
digits therefore ends where it was written to end, whatever stands behind it.

* **`Written`**: the ways in which a character is written; proofs about single characters go through
  its cases.
* **`character?_escapeChar_append`**: what is written for a character is read as this character.
* **`readBody_escape_append`**: what is written for a text is read as this text, if the literal
  ends there.
* **`exists_split_of_quote`**: a quote stands in a literal only as the escape of a quote.
* **`isBodyOf_escape`**: between its quotes, what is written for a text is a literal of this text.
-/

namespace BootTable.CString

/-! ## Reading -/

/-- The character that a letter or a sign stands for behind a backslash. -/
def simpleEscape? : Char → Option Char
  | '\\' => some '\\'
  | '\x22' => some '\x22'
  | 'n' => some '\n'
  | 'r' => some '\r'
  | 't' => some '\t'
  | _ => none

def isOctalDigit (c : Char) : Bool :=
  '0' ≤ c && c ≤ '7'

/-- The digits of an octal escape: as many as there are, but at most three. -/
def octalDigits (cs : List Char) : List Char :=
  (cs.take 3).takeWhile isOctalDigit

def octalCode (cs : List Char) : Nat :=
  Nat.ofDigitChars 8 (octalDigits cs) 0

/-- Reads an octal escape behind its backslash. One beyond ASCII stands for a byte of its own and
for no character. -/
def octalEscape? (cs : List Char) : Option (Char × List Char) :=
  if octalDigits cs = [] ∨ 0x7f < octalCode cs then none
  else some (Char.ofNat (octalCode cs), cs.drop (octalDigits cs).length)

def escape? : List Char → Option (Char × List Char)
  | [] => none
  | c :: rest =>
    match simpleEscape? c with
    | some meant => some (meant, rest)
    | none => octalEscape? (c :: rest)

/-- Reads one character of a literal. There is none at its closing quote and at the end of its
line. -/
def character? : List Char → Option (Char × List Char)
  | [] => none
  | c :: rest =>
    if c = '\x22' ∨ c = '\n' then none
    else if c = '\\' then escape? rest
    else some (c, rest)

theorem length_lt_of_octalEscape? {cs rest : List Char} {c : Char}
    (h : octalEscape? cs = some (c, rest)) : rest.length < cs.length := by
  unfold octalEscape? at h
  split at h
  · cases h
  · rename_i hdigits
    rw [not_or] at hdigits
    have hrest : cs.drop (octalDigits cs).length = rest := congrArg Prod.snd (Option.some.inj h)
    have hpositive : 0 < (octalDigits cs).length := List.length_pos_iff.mpr hdigits.1
    have hcs : cs ≠ [] := by
      rintro rfl
      exact hdigits.1 rfl
    have hlength : 0 < cs.length := List.length_pos_iff.mpr hcs
    rw [← hrest, List.length_drop]
    omega

theorem length_lt_of_character? {cs rest : List Char} {c : Char}
    (h : character? cs = some (c, rest)) : rest.length < cs.length := by
  unfold character? escape? at h
  split at h
  · cases h
  · split at h
    · cases h
    · split at h
      · split at h
        · cases h
        · split at h
          · cases h
            simp only [List.length_cons]
            omega
          · have hlt := length_lt_of_octalEscape? h
            simp only [List.length_cons] at hlt ⊢
            omega
      · cases h
        exact Nat.lt_succ_self _

/-- Reads the characters of a literal, and answers what stands behind the last one that it can
read. -/
def readBody (cs : List Char) : List Char × List Char :=
  match _h : character? cs with
  | none => ([], cs)
  | some (c, rest) => (c :: (readBody rest).1, (readBody rest).2)
termination_by cs.length
decreasing_by all_goals exact length_lt_of_character? ‹_›

theorem readBody_of_none {cs : List Char} (h : character? cs = none) : readBody cs = ([], cs) := by
  rw [readBody]
  split
  · rfl
  · rename_i hsome
    rw [h] at hsome
    cases hsome

theorem readBody_of_some {cs rest : List Char} {c : Char} (h : character? cs = some (c, rest)) :
    readBody cs = (c :: (readBody rest).1, (readBody rest).2) := by
  rw [readBody]
  split
  · rename_i hnone
    rw [h] at hnone
    cases hnone
  · rename_i hsome
    rw [h] at hsome
    cases hsome
    rfl

/-! ## Reading what was written -/

/-- The three digits of a code of ASCII are octal digits, begin no simple escape and spell the
code. -/
theorem octal_spells : ∀ code < 0x80, simpleEscape? (Nat.digitChar (code / 64 % 8)) = none ∧
    (octal code).all isOctalDigit = true ∧ Nat.ofDigitChars 8 (octal code) 0 = code := by
  decide

theorem isControl_iff {c : Char} : isControl c = true ↔ c.toNat < 0x20 ∨ c.toNat = 0x7f := by
  simp [isControl]

theorem octalEscape?_octal_append {code : Nat} (h : code < 0x80) (rest : List Char) :
    octalEscape? (octal code ++ rest) = some (Char.ofNat code, rest) := by
  obtain ⟨-, hall, hcode⟩ := octal_spells code h
  have htake : (octal code ++ rest).take 3 = octal code := List.take_left' rfl
  -- All three digits are octal, so none is left over, and no digit behind them is taken.
  have hdigits : octalDigits (octal code ++ rest) = octal code := by
    unfold octalDigits
    rw [htake]
    exact List.takeWhile_eq_self_iff.mpr fun digit hdigit => List.all_eq_true.mp hall digit hdigit
  unfold octalEscape? octalCode
  rw [hdigits, hcode]
  have hne : ¬(octal code = [] ∨ 0x7f < code) := by
    rintro (hnil | hlt)
    · cases hnil
    · omega
  rw [if_neg hne, List.drop_left]

/-- The ways in which a character is written. -/
inductive Written (c : Char) : List Char → Prop
  | simple {sign : Char} (hsign : simpleEscape? sign = some c) : Written c ['\\', sign]
  | octal (hcontrol : isControl c = true) : Written c ('\\' :: octal c.toNat)
  | plain (hbackslash : c ≠ '\\') (hquote : c ≠ '\x22') (hcontrol : isControl c = false) :
    Written c [c]

theorem written_escapeChar (c : Char) : Written c (escapeChar c) := by
  unfold escapeChar
  split_ifs with hbackslash hquote hnewline hreturn htab hcontrol
  · exact .simple (congrArg some hbackslash.symm)
  · exact .simple (congrArg some hquote.symm)
  · exact .simple (congrArg some hnewline.symm)
  · exact .simple (congrArg some hreturn.symm)
  · exact .simple (congrArg some htab.symm)
  · exact .octal hcontrol
  · exact .plain hbackslash hquote (Bool.eq_false_iff.mpr hcontrol)

theorem toNat_lt_of_isControl {c : Char} (h : isControl c = true) : c.toNat < 0x80 := by
  have := isControl_iff.mp h
  omega

theorem character?_escapeChar_append (c : Char) (rest : List Char) :
    character? (escapeChar c ++ rest) = some (c, rest) := by
  have hwritten := written_escapeChar c
  generalize escapeChar c = cs at hwritten ⊢
  cases hwritten with
  | @simple sign hsign =>
    show escape? (sign :: rest) = some (c, rest)
    rw [escape?, hsign]
  | octal hcontrol =>
    have hcode := toNat_lt_of_isControl hcontrol
    have hescape := octalEscape?_octal_append hcode rest
    rw [Char.ofNat_toNat] at hescape
    show escape? (octal c.toNat ++ rest) = some (c, rest)
    unfold escape? octal
    rw [List.cons_append]
    simp only [(octal_spells c.toNat hcode).1]
    exact hescape
  | plain hbackslash hquote hcontrol =>
    have hnewline : c ≠ '\n' := by
      rintro rfl
      exact absurd hcontrol (by decide)
    show character? (c :: rest) = some (c, rest)
    unfold character?
    simp [hquote, hnewline, hbackslash]

/-- Where a literal ends, it is read as the text that it was written for. -/
theorem readBody_escape_append (text rest : List Char) (hend : character? rest = none) :
    readBody (text.flatMap escapeChar ++ rest) = (text, rest) := by
  induction text with
  | nil => exact readBody_of_none hend
  | cons c cs ih =>
    have hfirst := character?_escapeChar_append c (cs.flatMap escapeChar ++ rest)
    rw [List.flatMap_cons, List.append_assoc, readBody_of_some hfirst, ih]

theorem all_not_isControl_octal :
    ∀ code < 0x80, ((octal code).all fun digit => !isControl digit) = true := by
  decide

theorem isControl_of_simpleEscape? {sign c : Char} (h : simpleEscape? sign = some c) :
    isControl sign = false := by
  unfold simpleEscape? at h
  split at h
  · rfl
  · rfl
  · rfl
  · rfl
  · rfl
  · cases h

/-- No control character stands in a literal as it is. -/
theorem isControl_of_mem_escapeChar {c d : Char} (h : d ∈ escapeChar c) : isControl d = false := by
  have hwritten := written_escapeChar c
  generalize escapeChar c = cs at h hwritten
  cases hwritten with
  | simple hsign =>
    rcases List.mem_pair.mp h with rfl | rfl
    · rfl
    · exact isControl_of_simpleEscape? hsign
  | octal hcontrol =>
    rcases List.mem_cons.mp h with rfl | hdigit
    · rfl
    · have hall := all_not_isControl_octal c.toNat (toNat_lt_of_isControl hcontrol)
      exact (Bool.not_eq_true' _).mp (List.all_eq_true.mp hall d hdigit)
  | plain hbackslash hquote hcontrol =>
    rw [List.mem_singleton.mp h]
    exact hcontrol

/-! ## Quotes in a literal -/

/-- What is written for a character other than a quote has no quote. -/
theorem eq_quote_of_mem_escapeChar {c : Char} (h : '\x22' ∈ escapeChar c) : c = '\x22' := by
  have hwritten := written_escapeChar c
  generalize escapeChar c = cs at h hwritten
  cases hwritten with
  | @simple sign hsign =>
    obtain rfl : '\x22' = sign := by simpa using h
    exact (Option.some.inj hsign).symm
  | octal hcontrol => simp [octal] at h
  | plain hbackslash hquote hcontrol => exact (List.mem_singleton.mp h).symm

/-- What is written for a character other than a backslash does not end with a backslash. -/
theorem exists_concat_escapeChar {c : Char} (h : c ≠ '\\') :
    ∃ front last, escapeChar c = front ++ [last] ∧ last ≠ '\\' := by
  have hwritten := written_escapeChar c
  generalize escapeChar c = cs at hwritten ⊢
  cases hwritten with
  | @simple sign hsign =>
    refine ⟨['\\'], sign, rfl, ?_⟩
    rintro rfl
    exact h (Option.some.inj hsign).symm
  | octal hcontrol =>
    exact ⟨['\\', Nat.digitChar (c.toNat / 64 % 8), Nat.digitChar (c.toNat / 8 % 8)],
      Nat.digitChar (c.toNat % 8), rfl, by simp⟩
  | plain hbackslash hquote hcontrol => exact ⟨[], c, rfl, hbackslash⟩

/-- Where a quote stands in what was written for a character, this is the escape of a quote. -/
theorem eq_of_escapeChar_eq_append {c : Char} {before after : List Char}
    (h : escapeChar c = before ++ '\x22' :: after) : c = '\x22' ∧ before = ['\\'] ∧ after = [] := by
  have hmem : '\x22' ∈ escapeChar c := by
    rw [h]
    exact List.mem_append_right _ List.mem_cons_self
  obtain rfl := eq_quote_of_mem_escapeChar hmem
  have hpair : before ++ '\x22' :: after = ['\\', '\x22'] := h.symm
  match before with
  | [] => exact absurd (List.cons.inj hpair).1 (by decide)
  | [first] =>
    obtain ⟨rfl, hafter⟩ := List.cons.inj hpair
    exact ⟨rfl, rfl, (List.cons.inj hafter).2⟩
  | _ :: _ :: _ =>
    have hlength := congrArg List.length hpair
    simp at hlength

/-- Where a quote stands in what was written for a text, a quote of the text was written. -/
theorem exists_split_of_quote {text before after : List Char}
    (h : text.flatMap escapeChar = before ++ '\x22' :: after) :
    ∃ earlier later, text = earlier ++ '\x22' :: later ∧
      before = earlier.flatMap escapeChar ++ ['\\'] ∧ after = later.flatMap escapeChar := by
  induction text generalizing before with
  | nil =>
    have hlength := congrArg List.length h
    simp at hlength
  | cons c cs ih =>
    rw [List.flatMap_cons] at h
    -- The quote stands behind what was written for the first character, or in it.
    have hcases : (∃ rest, before = escapeChar c ++ rest ∧
        cs.flatMap escapeChar = rest ++ '\x22' :: after) ∨
        ∃ rest, escapeChar c = before ++ '\x22' :: rest ∧
          after = rest ++ cs.flatMap escapeChar := by
      rcases List.append_eq_append_iff.mp h with ⟨rest, hbefore, hcs⟩ | ⟨rest, hfirst, hcs⟩
      · exact .inl ⟨rest, hbefore, hcs⟩
      · cases rest with
        | nil => exact .inl ⟨[], by simpa using hfirst.symm, hcs.symm⟩
        | cons quote rest =>
          obtain ⟨rfl, hafter⟩ := List.cons.inj hcs
          exact .inr ⟨rest, hfirst, hafter⟩
    rcases hcases with ⟨rest, rfl, hcs⟩ | ⟨rest, hfirst, rfl⟩
    · obtain ⟨earlier, later, rfl, rfl, rfl⟩ := ih hcs
      exact ⟨c :: earlier, later, rfl, by simp, rfl⟩
    · obtain ⟨rfl, rfl, rfl⟩ := eq_of_escapeChar_eq_append hfirst
      exact ⟨[], cs, rfl, rfl, rfl⟩

/-- The number of backslashes that end a text. -/
def trailingBackslashes (cs : List Char) : Nat :=
  (cs.rtakeWhile fun c => c = '\\').length

theorem trailingBackslashes_concat (cs : List Char) (c : Char) :
    trailingBackslashes (cs ++ [c]) = if c = '\\' then trailingBackslashes cs + 1 else 0 := by
  unfold trailingBackslashes
  rw [List.rtakeWhile_concat]
  by_cases h : c = '\\'
  · simp [h]
  · simp [h]

/-- No backslash at the end of what was written for a text is left to escape what follows. -/
theorem even_trailingBackslashes (text : List Char) :
    Even (trailingBackslashes (text.flatMap escapeChar)) := by
  induction text using List.reverseRecOn with
  | nil => exact Even.zero
  | append_singleton text c ih =>
    rw [List.flatMap_append, List.flatMap_singleton]
    by_cases hbackslash : c = '\\'
    · subst hbackslash
      show Even (trailingBackslashes (text.flatMap escapeChar ++ ['\\', '\\']))
      rw [List.append_cons, trailingBackslashes_concat, trailingBackslashes_concat, if_pos rfl,
        if_pos rfl]
      exact (Even.add_one ih).add_one
    · obtain ⟨front, last, hc, hlast⟩ := exists_concat_escapeChar hbackslash
      rw [hc, ← List.append_assoc, trailingBackslashes_concat, if_neg hlast]
      exact Even.zero

/-! ## Literals as a whole -/

/-- The text that a literal stands for, given what stands between its quotes. There is none if the
literal ends before, or has an escape that stands for no character. -/
def textOf? (body : String) : Option String :=
  match readBody body.toList with
  | (text, []) => some (String.ofList text)
  | (_, _ :: _) => none

/-- What stands between the quotes of a literal of a text. -/
structure IsBodyOf (body text : String) : Prop where
  /-- It is read as the text. -/
  textOf?_eq : textOf? body = some text
  /-- With a quote behind it, the literal ends at this quote, whatever else follows. -/
  readBody_append : ∀ rest, readBody (body.toList ++ '\x22' :: rest) = (text.toList, '\x22' :: rest)
  /-- No control character of ASCII stands in it. -/
  visible : ∀ c ∈ body.toList, 0x20 ≤ c.toNat ∧ c.toNat ≠ 0x7f
  /-- Every quote in it is escaped: the backslashes before it do not pair up. -/
  escaped : ∀ before after, body.toList = before ++ '\x22' :: after →
    Odd (trailingBackslashes before)

theorem toList_escape (text : String) :
    (escape text).toList = text.toList.flatMap escapeChar :=
  String.toList_ofList

theorem textOf?_escape (text : String) : textOf? (escape text) = some text := by
  have hread := readBody_escape_append text.toList [] rfl
  rw [List.append_nil] at hread
  unfold textOf?
  rw [toList_escape, hread]
  simp

/-- What is written for a text is the body of a literal of this text, and of no other text. -/
theorem isBodyOf_escape : (∀ text, IsBodyOf (escape text) text) ∧ Function.Injective escape := by
  refine ⟨fun text => ?body, fun a b hsame => ?injective⟩
  case body =>
    refine { textOf?_eq := textOf?_escape text
             readBody_append := fun rest => ?_
             visible := fun c hc => ?_
             escaped := fun before after h => ?_ }
    · rw [toList_escape]
      exact readBody_escape_append text.toList _ rfl
    · rw [toList_escape] at hc
      obtain ⟨d, -, hmem⟩ := List.mem_flatMap.mp hc
      have hcontrol := Bool.eq_false_iff.mp (isControl_of_mem_escapeChar hmem)
      rw [Ne, isControl_iff] at hcontrol
      omega
    · rw [toList_escape] at h
      obtain ⟨earlier, -, -, rfl, -⟩ := exists_split_of_quote h
      rw [trailingBackslashes_concat, if_pos rfl]
      exact Even.add_one (even_trailingBackslashes earlier)
  case injective =>
    apply Option.some.inj
    rw [← textOf?_escape a, ← textOf?_escape b, hsame]

/-- The digit behind the escape does not become a part of it. -/
example : escape "\x071" = "\\0071" := by decide

end BootTable.CString
