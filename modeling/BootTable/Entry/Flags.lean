/-!
# BootTable — entry flags

The flag set that a table entry carries. The bit values are those of the kernel's constants; the
table itself refers to the constants by name. Bits that no flag has are kept where a set is combined
with another one.
-/

namespace BootTable

/-- A set of flags, as eight bits. -/
structure EntryFlags where
  bits : BitVec 8
deriving DecidableEq, Repr

namespace EntryFlags

/-- The needs of the component are mandatory. -/
def required : EntryFlags := ⟨0x01#8⟩

/-- The component runs on the bootstrap processor and again on every other one. -/
def perCpu : EntryFlags := ⟨0x02#8⟩

/-- The entry opens a phase and is no component. -/
def phaseMarker : EntryFlags := ⟨0x04#8⟩

/-- From this entry on, processors are numbered. -/
def apIdAvailable : EntryFlags := ⟨0x08#8⟩

/-- The set without flags. -/
def empty : EntryFlags := ⟨0x00#8⟩

/-- The set of all flags. -/
def all : EntryFlags := ⟨0x0f#8⟩

/-- The bits of both sets. -/
def union (a b : EntryFlags) : EntryFlags := ⟨a.bits ||| b.bits⟩

/-- The bits of the first set that the second one lacks. -/
def difference (a b : EntryFlags) : EntryFlags := ⟨a.bits &&& ~~~b.bits⟩

/-- The bits of exactly one of the sets. -/
def symmetricDifference (a b : EntryFlags) : EntryFlags := ⟨a.bits ^^^ b.bits⟩

/-- The bits that both sets have. -/
def intersection (a b : EntryFlags) : EntryFlags := ⟨a.bits &&& b.bits⟩

/-- The set without the bits that no flag has. -/
def known (flags : EntryFlags) : EntryFlags := ⟨flags.bits &&& all.bits⟩

/-- The flags that the set lacks. -/
def complement (flags : EntryFlags) : EntryFlags := known ⟨~~~flags.bits⟩

/-- The set has every bit of the other one. -/
def contains (flags other : EntryFlags) : Bool :=
  flags.bits &&& other.bits = other.bits

/-- Adds the bits of another set or takes them out. -/
def set (flags other : EntryFlags) (present : Bool) : EntryFlags :=
  if present then flags.union other else flags.difference other

/-- The set of the given bits, if each of them is that of a flag. -/
def ofBits? (bits : BitVec 8) : Option EntryFlags :=
  if known ⟨bits⟩ = ⟨bits⟩ then some ⟨bits⟩ else none

/-- The flags and the kernel's names for them, in bit order. -/
def constants : List (EntryFlags × String) :=
  [(required, "CF_REQUIRED"), (perCpu, "CF_PER_CPU"), (phaseMarker, "CF_PHASE_MARKER"),
    (apIdAvailable, "CF_AP_ID_AVAILABLE")]

/-- The names of the flags of a set, in bit order. -/
def names (flags : EntryFlags) : List String :=
  (constants.filter fun constant => flags.contains constant.1).map Prod.snd

/-- The set as an expression of the kernel's constants. -/
def text (flags : EntryFlags) : String :=
  if flags.names.isEmpty then "CF_NONE" else " | ".intercalate flags.names

/-! ## What combined sets contain -/

theorem contains_union_self (flags other : EntryFlags) :
    (flags.union other).contains other = true := by
  apply decide_eq_true
  show (flags.bits ||| other.bits) &&& other.bits = other.bits
  ext i
  simp +contextual

theorem contains_union_of_disjoint {added other : EntryFlags}
    (h : added.bits &&& other.bits = 0#8) (flags : EntryFlags) :
    (flags.union added).contains other = flags.contains other := by
  have hbits : (flags.bits ||| added.bits) &&& other.bits = flags.bits &&& other.bits := by
    ext i hi
    have hbit : (added.bits &&& other.bits)[i] = false := by simp [h]
    rw [BitVec.getElem_and] at hbit
    simp [Bool.and_or_distrib_right, hbit]
  unfold contains union
  rw [hbits]

theorem contains_difference_self {other : EntryFlags} (h : other.bits ≠ 0#8)
    (flags : EntryFlags) : (flags.difference other).contains other = false := by
  have hbits : (flags.bits &&& ~~~other.bits) &&& other.bits = 0#8 := by
    ext i
    simp
  apply decide_eq_false
  show ¬(flags.bits &&& ~~~other.bits) &&& other.bits = other.bits
  rw [hbits]
  exact h.symm

theorem contains_difference_of_disjoint {removed other : EntryFlags}
    (h : removed.bits &&& other.bits = 0#8) (flags : EntryFlags) :
    (flags.difference removed).contains other = flags.contains other := by
  have hbits : (flags.bits &&& ~~~removed.bits) &&& other.bits = flags.bits &&& other.bits := by
    ext i hi
    have hbit : (removed.bits &&& other.bits)[i] = false := by simp [h]
    rw [BitVec.getElem_and] at hbit
    cases hother : other.bits[i] with
    | false => simp [hother]
    | true =>
      rw [hother, Bool.and_true] at hbit
      simp [hother, hbit]
  unfold contains difference
  rw [hbits]

/-- To set a flag says what the flag is then. -/
theorem contains_set_self {other : EntryFlags} (h : other.bits ≠ 0#8) (flags : EntryFlags)
    (present : Bool) : (flags.set other present).contains other = present := by
  cases present with
  | true => exact contains_union_self flags other
  | false => exact contains_difference_self h flags

/-- To set a flag leaves the others as they are. -/
theorem contains_set_of_disjoint {changed other : EntryFlags}
    (h : changed.bits &&& other.bits = 0#8) (flags : EntryFlags) (present : Bool) :
    (flags.set changed present).contains other = flags.contains other := by
  cases present with
  | true => exact contains_union_of_disjoint h flags
  | false => exact contains_difference_of_disjoint h flags

end EntryFlags

end BootTable
