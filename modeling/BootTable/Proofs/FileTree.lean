import BootTable.FileTree
import BootTable.Log
import BootTable.Proofs.PairList

/-!
# BootTable — replacing a file

Replacing a file puts a text at the place that its path leads to. No directory stands there, so no
path leads on through that place, and every path leads after the replacement to where it led before.

* **`node?_put`**: what stands at each place after a change.
* **`locate_of_target`**: a file is replaced where its path leads.
* **`locate_of_directories_kept`**: a path leads to the same place while the directories stay.
* **`replaced_of_replace`**: the path reads as the new text, and every other place is as before.
-/

namespace BootTable.FileTree

variable {tree after : FileTree}

/-! ## Places -/

theorem node?_eq_lookup {place : Location} (hplace : place ≠ []) :
    tree.node? place = tree.nodes.lookup place := by
  unfold node?
  rw [if_neg hplace]

/-- A change of one place leaves all others as they are. -/
theorem node?_put {place : Location} (hplace : place ≠ []) (node : Node) (other : Location) :
    (tree.put place node).node? other =
      if other = place then some node else tree.node? other := by
  by_cases hroot : other = []
  · have hne : other ≠ place := fun heq => hplace (heq.symm.trans hroot)
    rw [if_neg hne, hroot]
    rfl
  · rw [node?_eq_lookup hroot, node?_eq_lookup hroot]
    show ((place, node) :: _).lookup other = _
    rw [lookup_cons_eq_ite]
    by_cases h : other = place
    · rw [if_pos h, if_pos h]
    · rw [if_neg h, if_neg h, lookup_filter_fst_ne h]

/-! ## Following paths -/

theorem enter_eq_ok_iff {place here : Location} :
    tree.enter place = .ok here ↔ tree.node? place = some .directory ∧ here = place := by
  unfold enter
  cases tree.node? place with
  | none => simp
  | some node =>
    cases node with
    | directory => simp [eq_comm]
    | file content => simp

theorem follow_of_directory_kept {place next : Location} {segment : String}
    (hkept : tree.node? place = some .directory → after.node? place = some .directory)
    (h : tree.follow place segment = .ok next) : after.follow place segment = .ok next := by
  unfold follow at h ⊢
  obtain ⟨here, henter, hnext⟩ := bind_eq_ok_iff.mp h
  obtain ⟨hdirectory, rfl⟩ := enter_eq_ok_iff.mp henter
  exact bind_eq_ok_iff.mpr ⟨here, enter_eq_ok_iff.mpr ⟨hkept hdirectory, rfl⟩, hnext⟩

/-- What a path must be to lead anywhere. -/
theorem textFault?_eq_none_iff {path : String} : textFault? path = none ↔
    '\x00' ∉ path.toList ∧ path ≠ "" ∧ path.utf8ByteSize ≤ pathLimit := by
  unfold textFault?
  rw [String.contains_char_eq]
  by_cases hnul : '\x00' ∈ path.toList
  · simp [hnul]
  · by_cases hempty : path = ""
    · simp [hempty]
    · simp [hnul, hempty]

theorem locate_eq_foldlM (tree : FileTree) {path : String}
    (h : '\x00' ∉ path.toList ∧ path ≠ "" ∧ path.utf8ByteSize ≤ pathLimit) :
    tree.locate path = (Path.segments path).foldlM tree.follow (tree.start path) := by
  unfold locate
  rw [textFault?_eq_none_iff.mpr h]

theorem locate_of_directories_kept {path : String} {place : Location}
    (horigin : after.origin = tree.origin)
    (hkept : ∀ other, tree.node? other = some .directory → after.node? other = some .directory)
    (h : tree.locate path = .ok place) : after.locate path = .ok place := by
  -- Each step from a directory leads on as before, whichever directory it starts from.
  have hsegments (segments : List String) (start : Location)
      (h : segments.foldlM tree.follow start = .ok place) :
      segments.foldlM after.follow start = .ok place := by
    induction segments generalizing start with
    | nil => exact h
    | cons segment others ih =>
      rw [List.foldlM_cons] at h ⊢
      obtain ⟨next, hnext, hothers⟩ := bind_eq_ok_iff.mp h
      exact bind_eq_ok_iff.mpr ⟨next, follow_of_directory_kept (hkept start) hnext, ih next hothers⟩
  have hstart : after.start path = tree.start path := by
    unfold start
    rw [horigin]
  unfold locate at h ⊢
  rw [hstart]
  cases hfault : textFault? path with
  | some fault =>
    rw [hfault] at h
    cases h
  | none =>
    rw [hfault] at h
    exact hsegments _ _ h

/-! ## Replacing -/

/-- Where a file can be put is where its path leads, and no directory is there. -/
theorem locate_of_target {path : String} {place : Location} (h : tree.target path = .ok place) :
    tree.locate path = .ok place ∧ tree.node? place ≠ some .directory := by
  unfold target at h
  unfold locate
  cases hfault : textFault? path with
  | some fault =>
    rw [hfault] at h
    cases h
  | none =>
    simp only [hfault] at h ⊢
    cases hlast : (((Path.segments path).reverse.dropWhile (· = "")).reverse).getLast? with
    | none =>
      rw [hlast] at h
      cases h
    | some last =>
      rw [hlast] at h
      obtain ⟨directory, hdirectory, hrest⟩ := bind_eq_ok_iff.mp h
      obtain ⟨there, hthere, hchecks⟩ := bind_eq_ok_iff.mp hrest
      by_cases hidle : last = Path.self ∨ last = Path.above
      · rw [if_pos hidle] at hchecks
        cases hchecks
      by_cases hnamed :
          ((Path.segments path).reverse.dropWhile (· = "")).reverse = Path.segments path
      · rw [if_neg hidle, if_neg (not_not.mpr hnamed)] at hchecks
        rw [hnamed] at hlast hdirectory
        have hplace : there = place ∧ tree.node? there ≠ some .directory := by
          cases hnode : tree.node? there with
          | none =>
            rw [hnode] at hchecks
            cases hchecks
            exact ⟨rfl, nofun⟩
          | some node =>
            rw [hnode] at hchecks
            cases node with
            | directory => cases hchecks
            | file content =>
              cases hchecks
              exact ⟨rfl, nofun⟩
        obtain ⟨rfl, hfree⟩ := hplace
        refine ⟨?_, hfree⟩
        rw [← List.dropLast_append_getLast? last hlast, List.foldlM_append]
        refine bind_eq_ok_iff.mpr ⟨directory, hdirectory, ?_⟩
        rw [List.foldlM_cons, hthere]
        rfl
      · rw [if_neg hidle, if_pos hnamed] at hchecks
        cases hchecks

/-- A tree after the file with a path was replaced: only what is where the path leads has changed,
and it is the text. -/
structure Replaced (path text : String) (tree after : FileTree) : Prop where
  origin_eq : after.origin = tree.origin
  only_there : ∃ place, tree.locate path = .ok place ∧ tree.node? place ≠ some .directory ∧
    ∀ other, after.node? other = if other = place then some (.file text.toUTF8) else tree.node? other
  read_eq : after.read path = .ok text

theorem textAt_eq_ok_of_utf8 {place : Location} {text : String}
    (h : tree.node? place = some (.file text.toUTF8)) : tree.textAt place = .ok text := by
  have hvalid : String.fromUTF8? text.toUTF8 = some text := by
    have hutf8 : text.toUTF8.IsValidUTF8 := text.isValidUTF8
    unfold String.fromUTF8?
    rw [dif_pos hutf8]
    rfl
  unfold textAt
  simp only [h, hvalid]

theorem replace_eq_ok_iff {path text : String} :
    tree.replace path text = .ok after ↔
      (∃ draft, tree.draft path = .ok draft) ∧
        ∃ place, tree.target path = .ok place ∧ after = tree.put place (.file text.toUTF8) := by
  unfold replace
  rw [bind_eq_ok_iff]
  constructor
  · rintro ⟨draft, hdraft, hrest⟩
    obtain ⟨place, hplace, hput⟩ := bind_eq_ok_iff.mp hrest
    cases hput
    exact ⟨⟨draft, hdraft⟩, place, hplace, rfl⟩
  · rintro ⟨⟨draft, hdraft⟩, place, hplace, rfl⟩
    exact ⟨draft, hdraft, bind_eq_ok_iff.mpr ⟨place, hplace, rfl⟩⟩

theorem replaced_of_replace {path text : String} (h : tree.replace path text = .ok after) :
    Replaced path text tree after := by
  obtain ⟨-, place, htarget, rfl⟩ := replace_eq_ok_iff.mp h
  obtain ⟨hlocate, hfree⟩ := locate_of_target htarget
  have hroot : place ≠ [] := by
    rintro rfl
    exact hfree rfl
  -- The new file stands in no path's way: no directory was there.
  have hkept (other : Location) (hdirectory : tree.node? other = some .directory) :
      (tree.put place (.file text.toUTF8)).node? other = some .directory := by
    have hne : other ≠ place := by
      rintro rfl
      exact hfree hdirectory
    rw [node?_put hroot, if_neg hne, hdirectory]
  have horigin : (tree.put place (.file text.toUTF8)).origin = tree.origin := rfl
  have hthere := locate_of_directories_kept horigin hkept hlocate
  refine ⟨horigin, ⟨place, hlocate, hfree, node?_put hroot _⟩, ?_⟩
  unfold read
  rw [hthere]
  exact textAt_eq_ok_of_utf8 (by rw [node?_put hroot, if_pos rfl])

end BootTable.FileTree
