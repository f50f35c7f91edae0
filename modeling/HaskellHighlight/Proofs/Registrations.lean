import HaskellHighlight.Proofs.PathExtension
import HaskellHighlight.Proofs.RegistryHistory

/-! Registrations from every start of a registry: how each is answered, and which file types,
extensions and languages are found afterwards. -/
namespace HaskellHighlight

/-- Ways to start a registry: without file types, with Haskell files, or with Haskell files under
further extensions too. -/
inductive Start where
  | empty
  | builtin
  | extended (extensions : List String)
  deriving DecidableEq, Repr

def Start.registry : Start → Except RegistryError Registry
  | empty => .ok .empty
  | builtin => .ok .builtin
  | extended extensions => Registry.withExtensions extensions

def Start.requests : Start → List Registration
  | empty => []
  | builtin => [.usual .haskell]
  | extended extensions => .usual .haskell :: extensions.map (.further · .haskell)

namespace Registry
variable {registry : Registry}

/-- A binding never changes and never disappears. -/
theorem get?_run_of_bound {extension : String} {type : FileType}
    (bound : registry.fileTypes.get? extension = some type) (requests : List Registration) :
    (registry.run requests).fileTypes.get? extension = some type := by
  induction requests generalizing registry with
  | nil => exact bound
  | cons request requests ih =>
    refine @ih (registry.perform request).1 ?_
    rcases perform_cases registry request with ⟨-, eq⟩ | ⟨-, _, -, -, eq⟩ | ⟨-, -, eq⟩ |
      ⟨-, free, eq⟩
    · rwa [eq]
    · rwa [eq]
    · rwa [eq]
    · have other : extension ≠ request.key := by
        rintro rfl
        rw [free] at bound
        contradiction
      rwa [eq, get?_bind, if_neg other]

/-- The answers, and when the registry stays as it is. -/
theorem perform_spec (named : registry.fileTypes.get? "" = none) (request : Registration) :
    let answer := (registry.perform request).2
    let bound? := registry.fileTypes.get? request.key
    (answer = .error .emptyExtension ↔ request.key = "") ∧
    (∀ extension name, answer = .error (.extensionTaken extension name) ↔
      extension = request.key ∧
        ∃ existing, bound? = some existing ∧ existing ≠ request.type ∧ name = existing.name) ∧
    (answer = .ok () ↔
      request.key ≠ "" ∧ ∀ existing, bound? = some existing → existing = request.type) ∧
    (answer ≠ .ok () ∨ bound? = some request.type → (registry.perform request).1 = registry) := by
  intro answer bound?
  rcases perform_cases registry request with ⟨empty, eq⟩ | ⟨nonempty, existing, bound, other, eq⟩ |
    ⟨nonempty, bound, eq⟩ | ⟨nonempty, free, eq⟩
  · have free : bound? = none := by rw [← named, ← empty]
    simp [answer, eq, empty, free]
  · have bound : bound? = some existing := bound
    simp [answer, eq, nonempty, bound, other, eq_comm]
  · have bound : bound? = some request.type := bound
    simp [answer, eq, nonempty, bound, eq_comm]
  · have free : bound? = none := free
    simp [answer, eq, nonempty, free]

private theorem dropWhile_of_head? {text : List Char} (h : text.head? ≠ some '.') :
    text.dropWhile (· = '.') = text := by
  cases text with
  | nil => rfl
  | cons c rest =>
    have other : c ≠ '.' := fun dot => h (by rw [dot]; rfl)
    exact List.dropWhile_cons_of_neg (by simpa using other)

/-- What an extension is bound as: without the dots in front of it, and with the letters of ASCII
in lower case. -/
def IsBoundAs (extension key : String) : Prop :=
  ∃ dots rest, extension.toList = dots ++ rest ∧ (∀ c ∈ dots, c = '.') ∧
    rest.head? ≠ some '.' ∧ key.toList = rest.map Char.toLower

theorem isBoundAs_iff {extension key : String} :
    IsBoundAs extension key ↔ normalize extension = key := by
  rw [normalize, ← String.toList_inj, String.toList_ofList]
  constructor
  · rintro ⟨dots, rest, split, all, head, lower⟩
    rw [split, List.dropWhile_append_of_pos (by simpa using all), dropWhile_of_head? head, lower]
  · intro lower
    refine ⟨_, _, List.takeWhile_append_dropWhile.symm, fun c mem => ?_, fun dot => ?_, lower.symm⟩
    · simpa using List.all_eq_true.mp List.all_takeWhile c mem
    · have behind := List.head?_dropWhile_not (· = '.') extension.toList
      rw [dot] at behind
      contradiction

theorem normalize_of_head? {extension : String} (h : extension.toList.head? ≠ some '.') :
    normalize extension = extension.toLower := by
  have lower : extension.toLower.toList = extension.toList.map Char.toLower := String.toList_map
  exact isBoundAs_iff.mp ⟨[], extension.toList, rfl, nofun, h, lower⟩

/-- The extension of a path has no dots in front that could be dropped. -/
theorem normalize_of_extension? {path extension : String}
    (h : File.extension? path = some extension) : normalize extension = extension.toLower :=
  normalize_of_head? fun dot => (File.not_mem_of_extension? h).1 (List.mem_of_mem_head? dot)

theorem fileTypeFor?_eq (registry : Registry) (path : String) :
    registry.fileTypeFor? path =
      (File.extension? path).bind fun extension => registry.fileTypes.get? extension.toLower := by
  rw [fileTypeFor?]
  cases found : File.extension? path with
  | none => rfl
  | some extension => rw [Option.bind_some, Option.bind_some, normalize_of_extension? found]

private theorem run_of_foldlM {extensions : List String} {last : Registry}
    (h : extensions.foldlM (·.registerExtension · .haskell) registry = .ok last) :
    registry.run (extensions.map (.further · .haskell)) = last ∧
      registry.history (extensions.map (.further · .haskell)) =
        extensions.map fun extension => (.further extension .haskell, .ok ()) := by
  induction extensions generalizing registry with
  | nil => exact ⟨Except.ok.inj h, rfl⟩
  | cons extension extensions ih =>
    rw [List.foldlM_cons] at h
    cases next : registry.registerExtension extension .haskell with
    | error error =>
      rw [next] at h
      contradiction
    | ok after =>
      rw [next] at h
      have performed : registry.perform (.further extension .haskell) = (after, .ok ()) := by
        rw [perform, attempt_eq]
        simp only [Registration.extension, Registration.type, next]
      obtain ⟨reached, answers⟩ := ih h
      refine ⟨?_, ?_⟩
      · rw [← reached, List.map_cons, run, List.foldl_cons, performed, run]
      · rw [List.map_cons, List.map_cons, history, performed, answers]

private theorem perform_haskell :
    Registry.empty.perform (.usual .haskell) = (.builtin, .ok ()) := by decide

end Registry

/-- A start is a run of the requests that it stands for, all of which succeed. -/
theorem Start.run_requests {start : Start} {first : Registry} (opened : start.registry = .ok first) :
    Registry.empty.run start.requests = first ∧
      Registry.empty.history start.requests = start.requests.map fun request => (request, .ok ())
        := by
  cases start with
  | empty => exact ⟨Except.ok.inj opened, rfl⟩
  | builtin =>
    obtain rfl := Except.ok.inj opened
    rw [requests, Registry.run, List.foldl_cons, Registry.history, Registry.perform_haskell]
    exact ⟨rfl, rfl⟩
  | extended extensions =>
    obtain ⟨reached, answers⟩ := Registry.run_of_foldlM opened
    rw [requests, Registry.run, List.foldl_cons, Registry.history, Registry.perform_haskell]
    refine ⟨reached, ?_⟩
    rw [answers, List.map_cons, List.map_map]
    rfl

/-- What any requests do to a registry. Their extensions are bound without the dots in front of them
and in lower case. Each is answered by what its extension is bound to at that time, and leaves
everything as it is when it fails or repeats a binding. Bindings stay, so that a file type is bound
to an extension by the first success for it; the languages are those of the latest creation for
their id, and those of bound file types are all there. The extensions are listed in ascending order,
and a path belongs to the file type of its extension in lower case. -/
theorem registrations_recorded (start : Start) (first : Registry)
    (opened : start.registry = .ok first) (requests : List Registration) :
    let reached (k : Nat) := first.run (requests.take k)
    let history := start.requests.map (·, .ok ()) ++ first.history requests
    let last := first.run requests
    (∀ request : Registration, Registry.IsBoundAs request.extension request.key) ∧
    (∀ k (h : k < requests.length),
      let answer := ((reached k).perform requests[k]).2
      let bound? := (reached k).fileTypes.get? requests[k].key
      (answer = .error .emptyExtension ↔ requests[k].key = "") ∧
      (∀ extension name, answer = .error (.extensionTaken extension name) ↔
        extension = requests[k].key ∧
          ∃ existing, bound? = some existing ∧ existing ≠ requests[k].type ∧
            name = existing.name) ∧
      (answer = .ok () ↔
        requests[k].key ≠ "" ∧ ∀ existing, bound? = some existing → existing = requests[k].type) ∧
      (answer ≠ .ok () ∨ bound? = some requests[k].type → reached (k + 1) = reached k)) ∧
    (∀ j k, j ≤ k → ∀ extension type, (reached j).fileTypes.get? extension = some type →
      (reached k).fileTypes.get? extension = some type) ∧
    (∀ extension type, last.fileTypes.get? extension = some type ↔
      ∃ place creator, Creates history place creator ∧ creator.key = extension ∧
        creator.type = type) ∧
    (last.extensions.Pairwise (· < ·) ∧
      ∀ extension, extension ∈ last.extensions ↔ (last.fileTypes.get? extension).isSome) ∧
    (∀ path, last.fileTypeFor? path =
      (File.extension? path).bind fun extension => last.fileTypes.get? extension.toLower) ∧
    (∀ id language, last.language? id = some language ↔
      ∃ place creator, Creates history place creator ∧ creator.type.language.id = id ∧
        creator.type.language = language ∧
        ∀ after latter, place < after → Creates history after latter →
          latter.type.language.id ≠ id) ∧
    (∀ extension type, last.fileTypes.get? extension = some type →
      (last.language? type.language.id).isSome) := by
  intro reached history last
  obtain ⟨run_start, start_answers⟩ := start.run_requests opened
  have records (requests : List Registration) : Registry.Records (first.run requests)
      (start.requests.map (·, .ok ()) ++ first.history requests) := by
    have all := Registry.Records.run (start.requests ++ requests)
    rwa [Registry.run_append, Registry.history_append, run_start, start_answers] at all
  have next {k : Nat} (h : k < requests.length) :
      reached (k + 1) = ((reached k).perform requests[k]).1 := by
    rw [← Registry.run_concat, ← List.take_succ_eq_append_getElem h]
  refine ⟨fun request => Registry.isBoundAs_iff.mpr rfl, fun k h => ?_,
    fun j k le extension type bound => ?_, (records requests).bound_iff,
    ⟨NameMap.names_ascending _, NameMap.mem_names_iff _⟩, Registry.fileTypeFor?_eq last,
    (records requests).language_iff, (records requests).resolves⟩
  · rw [next h]
    exact Registry.perform_spec (records (requests.take k)).named requests[k]
  · have split : requests.take k = requests.take j ++ (requests.drop j).take (k - j) := by
      rw [← List.take_add, Nat.add_sub_cancel' le]
    change (first.run (requests.take k)).fileTypes.get? extension = some type
    rw [split, Registry.run_append]
    exact Registry.get?_run_of_bound bound _

/-- A type of file that does not get the extension of Haskell files, but one of its own. -/
theorem registrations_recorded_of_conflict :
    let other : FileType := ⟨"Other file", "Other file", ".OTH", ⟨"Other", "Other", false⟩⟩
    ∃ first, (Start.extended [".hsc"]).registry = .ok first ∧
      (first.perform (.further "HS" other)).2 =
        .error (.extensionTaken "hs" FileType.haskell.name) ∧
      (first.run [.further "HS" other, .usual other]).fileTypeFor? "a.b.Oth" = some other ∧
      (first.run [.further "HS" other, .usual other]).fileTypes.get? "hsc" =
        some .haskell := by
  intro other
  have opened : (Start.extended [".hsc"]).registry =
      .ok (Registry.builtin.bind "hsc" .haskell) := by decide
  obtain ⟨-, answers, stay, -, -, paths, -⟩ := registrations_recorded (.extended [".hsc"]) _ opened
    [.further "HS" other, .usual other]
  refine ⟨_, opened, ?_, ?_, stay 0 2 (Nat.zero_le _) "hsc" .haskell (by decide)⟩
  · exact ((answers 0 (by decide)).2.1 "hs" _).mpr ⟨by decide, .haskell, by decide, by decide, rfl⟩
  · have extension : File.extension? "a.b.Oth" = some "Oth" := by decide
    have lower : "Oth".toLower = "oth" := by
      change "Oth".map Char.toLower = "oth"
      rw [← String.toList_inj, String.toList_map]
      decide
    rw [paths, extension, Option.bind_some, lower]
    decide

end HaskellHighlight
