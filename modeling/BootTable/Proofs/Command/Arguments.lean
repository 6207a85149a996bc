import BootTable.Command.Arguments

/-!
# BootTable — what an accepted command line asks for

The items of a command line are taken into settings one after the other. Where that ends in a job,
no option was given twice and nothing was left out, so the job can be read off the items.

* **`Settings.Completes`**: what the settings so far and the items to come make of a job.
* **`takes_of_interpret`**: what one item changes, and **`completes_of_interpret`** the run over all
  of them, by induction on the items.
* **`asks_of_ofArguments`**: the same of a whole command line.
-/

namespace BootTable.Command

/-- The definition file that an item names. -/
def Item.definition? : Item → Option String
  | .definition path => some path
  | _ => none

/-- What a job and the file named for writing have to do with the items of a command line. -/
structure Asks (items : List Item) (output : Option String) (job : Job) : Prop where
  output_iff : ∀ path, output = some path ↔ .value .output path ∈ items
  config_iff : ∀ path, job.config = some path ↔ .value .config path ∈ items
  /-- Every definition file, in the order of the items. -/
  definitions_eq : job.definitions = items.filterMap Item.definition?
  /-- Nothing is written where the definitions are only to be checked. -/
  destination_eq : job.destination = if .flag .check ∈ items then none else output

/-- The same with what was taken from earlier items. -/
structure Settings.Completes (settings : Settings) (items : List Item) (output : Option String)
    (job : Job) : Prop where
  output_iff : ∀ path,
    output = some path ↔ settings.output = some path ∨ .value .output path ∈ items
  config_iff : ∀ path,
    job.config = some path ↔ settings.config = some path ∨ .value .config path ∈ items
  definitions_eq : job.definitions = settings.definitions ++ items.filterMap Item.definition?
  destination_eq :
    job.destination = if settings.check = true ∨ .flag .check ∈ items then none else output

variable {settings next : Settings} {output : Option String} {job : Job}

theorem completes_of_finish (h : settings.finish = .ok ⟨output, .compile job⟩) :
    settings.Completes [] output job := by
  unfold Settings.finish at h
  split at h
  · cases h
  · split at h
    · cases h
    · cases h
      exact ⟨by simp, by simp, by simp, by simp⟩

/-- An option that is taken was not given before. -/
theorem takeValue_eq_ok_iff {text : String} {option : ValueOption} :
    settings.takeValue text option = .ok next ↔
      (option = .output ∧ settings.output = none ∧ next = { settings with output := some text }) ∨
        (option = .config ∧ text ≠ "" ∧ settings.config = none ∧
          next = { settings with config := some text }) := by
  cases option with
  | output =>
    unfold Settings.takeValue
    cases settings.output <;> simp [eq_comm]
  | config =>
    unfold Settings.takeValue
    by_cases htext : text = ""
    · simp [htext]
    · cases settings.config <;> simp [htext, eq_comm]

/-- What one item changes in the settings. -/
structure Settings.Takes (settings : Settings) (item : Item) (next : Settings) : Prop where
  output_iff : ∀ path,
    next.output = some path ↔ settings.output = some path ∨ .value .output path = item
  config_iff : ∀ path,
    next.config = some path ↔ settings.config = some path ∨ .value .config path = item
  definitions_eq : next.definitions = settings.definitions ++ [item].filterMap Item.definition?
  check_iff : next.check = true ↔ settings.check = true ∨ .flag .check = item

theorem takes_of_interpret {item : Item} {others : List Item}
    (h : settings.interpret (item :: others) = .ok ⟨output, .compile job⟩) :
    ∃ next, settings.Takes item next ∧ next.interpret others = .ok ⟨output, .compile job⟩ := by
  -- Items that end the run there, or repeat what may stand once, lead to no job.
  cases item with
  | refused cause => cases h
  | definition path =>
    rw [Settings.interpret] at h
    split at h
    · cases h
    · exact ⟨{ settings with definitions := settings.definitions ++ [path] },
        ⟨by simp, by simp, rfl, by simp⟩, h⟩
  | value option text =>
    rw [Settings.interpret] at h
    cases htake : settings.takeValue text option with
    | error cause =>
      rw [htake] at h
      cases h
    | ok next =>
      rw [htake] at h
      refine ⟨next, ?_, h⟩
      rcases takeValue_eq_ok_iff.mp htake with ⟨rfl, hnone, rfl⟩ | ⟨rfl, -, hnone, rfl⟩
      · exact ⟨by simp [hnone, eq_comm], by simp, (List.append_nil _).symm, by simp⟩
      · exact ⟨by simp, by simp [hnone, eq_comm], (List.append_nil _).symm, by simp⟩
  | flag flag =>
    cases flag with
    | version => cases h
    | help => cases h
    | verbose =>
      exact ⟨{ settings with verbosity := settings.verbosity + 1 },
        ⟨by simp, by simp, (List.append_nil _).symm, by simp⟩, h⟩
    | check =>
      rw [Settings.interpret] at h
      split at h
      · cases h
      · exact ⟨{ settings with check := true },
          ⟨by simp, by simp, (List.append_nil _).symm, by simp⟩, h⟩

theorem Settings.Takes.completes {item : Item} {others : List Item}
    (htakes : settings.Takes item next) (h : next.Completes others output job) :
    settings.Completes (item :: others) output job where
  output_iff path := by rw [h.output_iff, htakes.output_iff, List.mem_cons, or_assoc]
  config_iff path := by rw [h.config_iff, htakes.config_iff, List.mem_cons, or_assoc]
  definitions_eq := by
    rw [h.definitions_eq, htakes.definitions_eq, List.append_assoc, ← List.filterMap_append]
    rfl
  destination_eq := by
    rw [h.destination_eq]
    simp only [htakes.check_iff, List.mem_cons, or_assoc]

theorem completes_of_interpret {items : List Item}
    (h : settings.interpret items = .ok ⟨output, .compile job⟩) :
    settings.Completes items output job := by
  -- The settings vary: what is left to complete depends on what earlier items have said.
  induction items generalizing settings with
  | nil => exact completes_of_finish h
  | cons item others ih =>
    obtain ⟨next, htakes, hothers⟩ := takes_of_interpret h
    exact htakes.completes (ih hothers)

theorem asks_of_ofArguments {arguments : List String}
    (h : Invocation.ofArguments arguments = .ok ⟨output, .compile job⟩) :
    Asks (items arguments) output job := by
  obtain ⟨houtput, hconfig, hdefinitions, hdestination⟩ := completes_of_interpret h
  exact ⟨by simpa [Settings.start] using houtput, by simpa [Settings.start] using hconfig,
    by simpa [Settings.start] using hdefinitions, by simpa [Settings.start] using hdestination⟩

end BootTable.Command
