import HaskellHighlight.File.Basic

/-! The extensions that paths have. A file name with a dot inside has the extension behind its last
dot, so that no extension has a dot or a slash in it, and every other text is the extension of some
path. -/
namespace HaskellHighlight.File

variable {separator : Char} {text part : List Char}

theorem splitOn_of_not_mem (h : separator ∉ text) : splitOn separator text = [text] := by
  induction text with
  | nil => rfl
  | cons c rest ih =>
    rw [List.mem_cons, not_or] at h
    rw [splitOn, if_neg (Ne.symm h.1), ih h.2]

theorem not_mem_of_mem_splitOn (h : part ∈ splitOn separator text) : separator ∉ part := by
  induction text generalizing part with
  | nil =>
    obtain rfl := List.mem_singleton.mp h
    exact List.not_mem_nil
  | cons c rest ih =>
    rw [splitOn] at h
    split at h
    · rcases List.mem_cons.mp h with rfl | later
      · exact List.not_mem_nil
      · exact ih later
    · rename_i other
      split at h
      · obtain rfl := List.mem_singleton.mp h
        exact fun mem => other (List.mem_singleton.mp mem).symm
      · rename_i first parts whole
        rcases List.mem_cons.mp h with rfl | later
        · intro mem
          rcases List.mem_cons.mp mem with rfl | mem
          · exact other rfl
          · exact ih (whole ▸ List.mem_cons_self) mem
        · exact ih (whole ▸ List.mem_cons_of_mem first later)

/-- A path without slashes is the name of a file, unless it only leads through directories. -/
theorem name?_of_not_mem {path : String} (slashless : '/' ∉ path.toList)
    (named : path.toList ≠ [] ∧ path.toList ≠ ['.'] ∧ path.toList ≠ ['.', '.']) :
    name? path = some path.toList := by
  obtain ⟨nonempty, here, parent⟩ := named
  rw [name?, components, splitOn_of_not_mem slashless]
  simp [nonempty, here, parent]

/-- The extension behind the last dot of a name that does not start with that dot. -/
theorem nameExtension?_append {stem extension : List Char} (nonempty : stem ≠ [])
    (no_dot : '.' ∉ extension) : nameExtension? (stem ++ '.' :: extension) = some extension := by
  have other : ∀ c ∈ extension.reverse, (decide (c ≠ '.')) = true := by
    intro c mem
    exact decide_eq_true fun dot => no_dot (dot ▸ List.mem_reverse.mp mem)
  obtain ⟨c, rest, reversed⟩ :=
    List.exists_cons_of_ne_nil fun none => nonempty (List.reverse_eq_nil_iff.mp none)
  have backwards : (stem ++ '.' :: extension).reverse = extension.reverse ++ '.' :: c :: rest := by
    simp [← reversed]
  have behind : (extension.reverse ++ '.' :: c :: rest).takeWhile (· ≠ '.') =
      extension.reverse := by
    rw [List.takeWhile_append_of_pos other, List.takeWhile_cons_of_neg (by simp), List.append_nil]
  have front : (extension.reverse ++ '.' :: c :: rest).dropWhile (· ≠ '.') = '.' :: c :: rest := by
    rw [List.dropWhile_append_of_pos other, List.dropWhile_cons_of_neg (by simp)]
  simp only [nameExtension?, backwards, behind, front, List.reverse_reverse]

/-- A file name made of a stem, a dot and a text without dots and slashes has that text as its
extension. -/
theorem extension?_append {stem extension : String} (nonempty : stem ≠ "")
    (slashless : '/' ∉ stem.toList) (some_char : extension ≠ "")
    (plain : '.' ∉ extension.toList ∧ '/' ∉ extension.toList) :
    extension? (stem ++ "." ++ extension) = some extension := by
  have stem_nonempty : stem.toList ≠ [] := fun none => nonempty (String.toList_eq_nil_iff.mp none)
  have whole : (stem ++ "." ++ extension).toList = stem.toList ++ '.' :: extension.toList := by
    simp
  have inside : '/' ∉ (stem ++ "." ++ extension).toList := by
    rw [whole]
    simp [slashless, plain.2]
  have long : 2 < (stem ++ "." ++ extension).toList.length := by
    have before := List.length_pos_iff.mpr stem_nonempty
    have behind := List.length_pos_iff.mpr
      fun none => some_char (String.toList_eq_nil_iff.mp none)
    rw [whole, List.length_append, List.length_cons]
    omega
  have name : name? (stem ++ "." ++ extension) = some (stem ++ "." ++ extension).toList := by
    refine name?_of_not_mem inside ⟨?_, ?_, ?_⟩ <;> intro short <;> rw [short] at long <;>
      exact absurd long (by decide)
  rw [extension?, name, Option.bind_some, whole, nameExtension?_append stem_nonempty plain.1,
    Option.map_some, String.ofList_toList]

theorem not_mem_of_name? {path : String} {name : List Char} (h : name? path = some name) :
    '/' ∉ name := by
  have last := (Option.filter_eq_some_iff.mp h).1
  have part := (List.mem_filter.mp (List.mem_of_getLast? last)).1
  exact not_mem_of_mem_splitOn part

/-- The extension of a file name is a part of the name without a dot in it. -/
theorem not_mem_of_nameExtension? {name extension : List Char}
    (h : nameExtension? name = some extension) :
    '.' ∉ extension ∧ ∀ c ∈ extension, c ∈ name := by
  simp only [nameExtension?] at h
  split at h
  · obtain rfl := Option.some.inj h
    constructor
    · intro mem
      have other := List.all_eq_true.mp List.all_takeWhile '.' (List.mem_reverse.mp mem)
      exact absurd other (by decide)
    · intro c mem
      exact List.mem_reverse.mp (List.takeWhile_subset _ (List.mem_reverse.mp mem))
  · contradiction

/-- No path has an extension with a dot or a slash in it. -/
theorem not_mem_of_extension? {path extension : String} (h : extension? path = some extension) :
    '.' ∉ extension.toList ∧ '/' ∉ extension.toList := by
  obtain ⟨name, named, found⟩ := Option.bind_eq_some_iff.mp h
  obtain ⟨part, behind, rfl⟩ := Option.map_eq_some_iff.mp found
  obtain ⟨no_dot, inside⟩ := not_mem_of_nameExtension? behind
  rw [String.toList_ofList]
  exact ⟨no_dot, fun slash => not_mem_of_name? named (inside '/' slash)⟩

end HaskellHighlight.File
