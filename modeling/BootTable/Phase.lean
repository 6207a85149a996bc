/-!
# BootTable — boot phases

The five initialization phases of the kernel. They are totally ordered: every component of one
phase completes before any component of the next phase starts.
-/

namespace BootTable

/-- One of the five initialization phases, listed in precedence order. -/
inductive Phase where
  /-- Global constructors and the language runtime. -/
  | cppInit
  /-- Bring-up of the bootstrap processor. -/
  | processorEarly
  /-- Physical and virtual memory management. -/
  | memoryManagement
  /-- Timers, interrupt controllers and other core devices. -/
  | coreDevices
  /-- Start-up of the application processors. -/
  | smpBringup
deriving DecidableEq, Repr

namespace Phase

/-- Every phase, in precedence order. -/
def all : List Phase := [cppInit, processorEarly, memoryManagement, coreDevices, smpBringup]

/-- The place of a phase in the precedence order, counted from zero. -/
def rank : Phase → Nat
  | cppInit => 0
  | processorEarly => 1
  | memoryManagement => 2
  | coreDevices => 3
  | smpBringup => 4

instance : LT Phase := ⟨fun p q => p.rank < q.rank⟩

instance : LE Phase := ⟨fun p q => p.rank ≤ q.rank⟩

instance (p q : Phase) : Decidable (p < q) := inferInstanceAs (Decidable (p.rank < q.rank))

instance (p q : Phase) : Decidable (p ≤ q) := inferInstanceAs (Decidable (p.rank ≤ q.rank))

/-- The key that names the phase in definition files. -/
def key : Phase → String
  | cppInit => "cpp_init"
  | processorEarly => "processor_early"
  | memoryManagement => "memory_management"
  | coreDevices => "core_devices"
  | smpBringup => "smp_bringup"

/-- The name the kernel shows when the phase starts. -/
def displayName : Phase → String
  | cppInit => "C++ Initialization"
  | processorEarly => "Early Processor Bringup"
  | memoryManagement => "Memory Management"
  | coreDevices => "Core Devices"
  | smpBringup => "SMP Bringup"

/-- The phase that a definition-file key names, if it names one. -/
def ofKey? (key : String) : Option Phase :=
  all.find? fun phase => phase.key = key

/-- Components of the phase complete before application processors start. -/
def precedesSmp (phase : Phase) : Bool :=
  phase < smpBringup

/-! ## The order and the keys -/

theorem lt_iff_rank_lt {p q : Phase} : p < q ↔ p.rank < q.rank := Iff.rfl

theorem le_iff_rank_le {p q : Phase} : p ≤ q ↔ p.rank ≤ q.rank := Iff.rfl

theorem rank_injective {p q : Phase} (h : p.rank = q.rank) : p = q := by
  cases p <;> cases q <;> simp_all [rank]

theorem mem_all (phase : Phase) : phase ∈ all := by
  cases phase <;> simp [all]

theorem ofKey?_key (phase : Phase) : ofKey? phase.key = some phase := by
  cases phase <;> decide

end Phase

end BootTable
