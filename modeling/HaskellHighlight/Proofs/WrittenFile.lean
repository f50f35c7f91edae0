import HaskellHighlight.File.Tree

/-! A file is read as it was written. What a write puts into a tree stands where no directory was,
so that every path leads through the same directories as before. -/
namespace HaskellHighlight

namespace FileTree
variable {tree after : FileTree} {place : Location} {path : String} {content : ByteArray}

theorem entryAt_of_enter {name : List Char} {next : Location}
    (h : tree.enter place name = .ok next) : tree.entryAt? place = some .directory := by
  rw [enter] at h
  split at h
  · contradiction
  · contradiction
  · assumption

/-- What is put where no directory stands leaves every step from place to place as it is. -/
theorem enter_put {entry : Entry} {other next : Location} {name : List Char}
    (free : tree.entryAt? place ≠ some .directory) (h : tree.enter other name = .ok next) :
    (tree.put place entry).enter other name = .ok next := by
  have directory := entryAt_of_enter h
  have same : (tree.put place entry).entryAt? other = tree.entryAt? other := by
    rw [entryAt_put, directory]
    split
    · rfl
    · rw [if_neg (by rintro rfl; exact free directory)]
  rw [← h, enter, enter, same]

/-- What is put where no directory stands leaves every way as it is. -/
theorem resolve_put {entry : Entry} (free : tree.entryAt? place ≠ some .directory)
    {names : List (List Char)} {start last : Location}
    (h : names.foldlM tree.enter start = .ok last) :
    names.foldlM (tree.put place entry).enter start = .ok last := by
  induction names generalizing start with
  | nil => exact h
  | cons name names ih =>
    rw [List.foldlM_cons] at h ⊢
    cases step : tree.enter start name with
    | error error =>
      rw [step] at h
      contradiction
    | ok next =>
      rw [step] at h
      rw [enter_put free step]
      exact ih h

/-- A write that succeeds puts a file where the path leads, and no directory was there. -/
theorem write_eq_ok (h : tree.write path content = .ok after) :
    ∃ parts place, names path = .ok parts ∧ tree.resolve parts = .ok place ∧
      tree.entryAt? place ≠ some .directory ∧ lastPart path ≠ [] ∧ lastPart path ≠ ['.'] ∧
      after = tree.put place (.file content) := by
  simp only [write, bind, Except.bind] at h
  split at h
  · contradiction
  rename_i parts named
  split at h
  · contradiction
  rename_i place led
  split at h
  · contradiction
  rename_i whole
  have put (free : tree.entryAt? place ≠ some .directory) {error : FileError}
      (h : (if lastPart path = ['.'] then Except.error error
        else .ok (tree.put place (.file content))) = .ok after) :
      ∃ parts place, names path = .ok parts ∧ tree.resolve parts = .ok place ∧
        tree.entryAt? place ≠ some .directory ∧ lastPart path ≠ [] ∧ lastPart path ≠ ['.'] ∧
        after = tree.put place (.file content) := by
    split at h
    · contradiction
    · cases h
      exact ⟨parts, place, named, led, free, whole, ‹_›, rfl⟩
  split at h
  · contradiction
  · rename_i here
    exact put (by simp [here]) h
  · rename_i here
    exact put (by simp [here]) h

/-- A file that was written is read with what was written to it. -/
theorem read_of_write (written : tree.write path content = .ok after) :
    after.read path = .ok content := by
  obtain ⟨parts, place, named, led, free, whole, no_dot, rfl⟩ := write_eq_ok written
  have led : (tree.put place (.file content)).resolve parts = .ok place := resolve_put free led
  have below : place ≠ [] := by
    rintro rfl
    exact free rfl
  have found : (tree.put place (.file content)).entryAt? place = some (.file content) := by
    rw [entryAt_put, if_neg below, if_pos rfl]
  rw [read, named]
  change ((tree.put place (.file content)).resolve parts).bind _ = _
  rw [led]
  simp [Except.bind, found, whole, no_dot]

theorem read_of_save (saved : tree.save path content = (after, .ok ())) :
    after.read path = .ok content := by
  rw [save] at saved
  split at saved
  · cases saved
  split at saved
  · cases saved
  split at saved
  · cases saved
  · rename_i written
    cases saved
    exact read_of_write written

end FileTree

end HaskellHighlight
