import HaskellHighlight.Proofs.Registrations
import Mathlib

/-! Whether a file reaches the type that is registered for its extension. Paths have extensions
without dots and slashes only, but any text can be registered, so that one with a dot or a slash in
it is listed and never looked up. -/
namespace HaskellHighlight

namespace Registry
variable {registry : Registry} {extension : String}

/-- Nothing but a letter has a given character that is no letter as its lower case. -/
theorem eq_of_toLower_eq {c d : Char} (h : c.toLower = d) (other : d.isAlpha = false) : c = d := by
  have plain : c.isAlpha = false := by rw [← Char.isAlpha_toLower_eq_isAlpha, h, other]
  have not_upper : ¬ c.isUpper = true := fun upper => by simp [Char.isAlpha, upper] at plain
  rw [← h, Char.toLower_eq_of_not_isUpper not_upper]

theorem head?_normalize_ne (extension : String) :
    (normalize extension).toList.head? ≠ some '.' := by
  obtain ⟨dots, rest, -, -, head, lower⟩ := isBoundAs_iff.mpr (rfl : normalize extension = _)
  rw [lower, List.head?_map]
  intro dot
  obtain ⟨c, first, eq⟩ := Option.map_eq_some_iff.mp dot
  exact head (by rw [first, eq_of_toLower_eq eq (by decide)])

theorem normalize_normalize (extension : String) :
    normalize (normalize extension) = normalize extension := by
  have lower (text : String) : text.toLower = text.map Char.toLower := rfl
  rw [normalize_of_head? (head?_normalize_ne extension), lower, ← String.toList_inj,
    String.toList_map, normalize, String.toList_ofList, List.map_map]
  simp [Function.comp_def]

/-- What no path has as an extension is not looked up for any path. -/
theorem normalize_ne_of_extension? {path found : String} (h : File.extension? path = some found)
    (mem : '.' ∈ extension.toList ∨ '/' ∈ extension.toList) : normalize found ≠ extension := by
  have lower : found.toLower = found.map Char.toLower := rfl
  rintro rfl
  rw [normalize_of_extension? h, lower, String.toList_map] at mem
  obtain ⟨no_dot, no_slash⟩ := File.not_mem_of_extension? h
  rcases mem with dot | slash
  · obtain ⟨c, inside, eq⟩ := List.mem_map.mp dot
    exact no_dot (eq_of_toLower_eq eq (by decide) ▸ inside)
  · obtain ⟨c, inside, eq⟩ := List.mem_map.mp slash
    exact no_slash (eq_of_toLower_eq eq (by decide) ▸ inside)

/-- A listed extension is bound, normalised and not empty. -/
theorem Records.of_mem_extensions {history : List (Registration × Answer)}
    (h : Records registry history) (listed : extension ∈ registry.extensions) :
    (∃ type, registry.fileTypes.get? extension = some type) ∧ normalize extension = extension ∧
      extension ≠ "" := by
  obtain ⟨type, bound⟩ := Option.isSome_iff_exists.mp ((NameMap.mem_names_iff _ _).mp listed)
  obtain ⟨-, creator, -, rfl, -⟩ := (h.bound_iff extension type).mp bound
  refine ⟨⟨type, bound⟩, normalize_normalize _, ?_⟩
  intro empty
  rw [empty, h.named] at bound
  contradiction

/-- A file with a stem and a normalised extension without dots and slashes has the type that the
extension is bound to. -/
theorem fileTypeFor?_append (registry : Registry) {stem : String} (nonempty : stem ≠ "")
    (slashless : '/' ∉ stem.toList) (normal : normalize extension = extension)
    (some_char : extension ≠ "") (plain : '.' ∉ extension.toList ∧ '/' ∉ extension.toList) :
    registry.fileTypeFor? (stem ++ "." ++ extension) = registry.fileTypes.get? extension := by
  rw [fileTypeFor?, File.extension?_append nonempty slashless some_char plain, Option.bind_some,
    normal]

end Registry

/-- Which listed extensions files are routed by. Every listed extension is bound to a file type. If
it has no dot and no slash in it, then every file with a stem and that extension has the type;
otherwise no path at all is looked up under it. -/
theorem listed_extension_routes (start : Start) (first : Registry)
    (opened : start.registry = .ok first) (requests : List Registration) (extension : String)
    (listed : extension ∈ (first.run requests).extensions) :
    let last := first.run requests
    ∃ type, last.fileTypes.get? extension = some type ∧
      ('.' ∉ extension.toList ∧ '/' ∉ extension.toList →
        ∀ stem : String, stem ≠ "" → '/' ∉ stem.toList →
          last.fileTypeFor? (stem ++ "." ++ extension) = some type) ∧
      ('.' ∈ extension.toList ∨ '/' ∈ extension.toList →
        ∀ path found, File.extension? path = some found → Registry.normalize found ≠ extension)
        := by
  intro last
  obtain ⟨run_start, start_answers⟩ := start.run_requests opened
  have records := Registry.Records.run (start.requests ++ requests)
  rw [Registry.run_append, run_start] at records
  obtain ⟨⟨type, bound⟩, normal, some_char⟩ := records.of_mem_extensions listed
  refine ⟨type, bound, ?_, ?_⟩
  · intro plain stem nonempty slashless
    rw [last.fileTypeFor?_append nonempty slashless normal some_char plain, bound]
  · intro mem path found h
    exact Registry.normalize_ne_of_extension? h mem

/-- A stem that is a dot, and an extension that another type asked for in vain. -/
theorem listed_extension_routes_of_dot_stem :
    let other : FileType := ⟨"Other file", "Other file", "oth", ⟨"Other", "Other", false⟩⟩
    let requests := [Registration.further "hsc" other]
    ∃ first, (Start.extended ["..HSC"]).registry = .ok first ∧
      "hsc" ∈ (first.run requests).extensions ∧
      ∃ type, (first.run requests).fileTypes.get? "hsc" = some type ∧
        (first.run requests).fileTypeFor? ("." ++ "." ++ "hsc") = some type := by
  intro other requests
  have opened : (Start.extended ["..HSC"]).registry =
      .ok (Registry.builtin.bind "hsc" .haskell) := by decide +kernel
  have listed : "hsc" ∈ ((Registry.builtin.bind "hsc" .haskell).run requests).extensions := by
    decide +kernel
  obtain ⟨type, bound, routes, -⟩ := listed_extension_routes _ _ opened requests "hsc" listed
  exact ⟨_, opened, listed, type, bound, routes (by decide) "." (by decide) (by decide)⟩

/-- An extension with a dot inside is registered and listed, but a file with it has no type. -/
theorem dotted_extension_unrouted :
    ∃ first, (Start.extended ["hs.in"]).registry = .ok first ∧ "hs.in" ∈ first.extensions ∧
      first.fileTypes.get? "hs.in" = some .haskell ∧
      first.fileTypeFor? ("Main" ++ "." ++ "hs.in") = none := by
  have opened : (Start.extended ["hs.in"]).registry =
      .ok (Registry.builtin.bind "hs.in" .haskell) := by decide +kernel
  exact ⟨_, opened, by decide +kernel, by decide +kernel, by decide +kernel⟩

end HaskellHighlight
