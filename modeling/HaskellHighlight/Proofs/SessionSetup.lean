import HaskellHighlight.Proofs.ByteOrder
import HaskellHighlight.Proofs.Registrations
import HaskellHighlight.Session

/-! What becomes of settings: the one error that is reported for them, or the session that they
give. -/
namespace HaskellHighlight

namespace Registry
variable {registry : Registry} {names : List String}

def HaskellUnder (registry : Registry) (names : List String) : Prop :=
  ∀ extension type, registry.fileTypes.get? extension = some type ↔
    type = .haskell ∧ extension ∈ names

theorem haskellUnder_builtin : builtin.HaskellUnder ["hs"] := by
  intro extension type
  have key : normalize FileType.haskell.extension = "hs" := by decide
  rw [builtin, key, get?_bind, List.mem_singleton]
  split
  · rename_i same
    simp [same, eq_comm]
  · rename_i other
    simp [other, empty]

theorem HaskellUnder.bind (under : registry.HaskellUnder names) (extension : String) :
    (registry.bind extension .haskell).HaskellUnder (names ++ [extension]) := by
  intro other type
  rw [get?_bind, List.mem_append, List.mem_singleton]
  split
  · rename_i same
    simp [same, eq_comm]
  · rename_i different
    rw [under]
    simp [different]

/-- The step lemma: one more extension of Haskell files is refused only if nothing is left of it
without the dots in front. -/
theorem HaskellUnder.registerExtension (under : registry.HaskellUnder names) (extension : String) :
    (normalize extension = "" ∧
      registry.registerExtension extension .haskell = .error .emptyExtension) ∨
    (normalize extension ≠ "" ∧ ∃ next,
      registry.registerExtension extension .haskell = .ok next ∧
        next.HaskellUnder (names ++ [normalize extension])) := by
  rw [Registry.registerExtension]
  by_cases empty : normalize extension = ""
  · exact Or.inl ⟨empty, if_pos empty⟩
  refine Or.inr ⟨empty, ?_⟩
  simp only [if_neg empty]
  cases bound : registry.fileTypes.get? (normalize extension) with
  | none => exact ⟨_, rfl, under.bind _⟩
  | some existing =>
    obtain ⟨rfl, mem⟩ := (under _ _).mp bound
    refine ⟨registry, if_pos rfl, fun other type => ?_⟩
    rw [under, List.mem_append, List.mem_singleton]
    refine and_congr_right fun _ => ⟨Or.inl, ?_⟩
    rintro (listed | rfl)
    · exact listed
    · exact mem

/-- The run lemma: the extensions are all bound, or one of them is refused. -/
theorem HaskellUnder.foldlM_registerExtension (under : registry.HaskellUnder names)
    (extensions : List String) :
    ("" ∈ extensions.map normalize ∧
      extensions.foldlM (·.registerExtension · .haskell) registry = .error .emptyExtension) ∨
    ("" ∉ extensions.map normalize ∧ ∃ last,
      extensions.foldlM (·.registerExtension · .haskell) registry = .ok last ∧
        last.HaskellUnder (names ++ extensions.map normalize)) := by
  induction extensions generalizing registry names with
  | nil =>
    refine Or.inr ⟨List.not_mem_nil, registry, rfl, ?_⟩
    rwa [List.map_nil, List.append_nil]
  | cons extension extensions ih =>
    rw [List.map_cons, List.foldlM_cons, List.append_cons]
    rcases under.registerExtension extension with ⟨empty, failed⟩ | ⟨some_char, next, ok, more⟩
    · rw [failed]
      exact Or.inl ⟨empty ▸ List.mem_cons_self, rfl⟩
    · rw [ok]
      rcases ih more with ⟨empty, failed⟩ | ⟨some_chars, last, reached, all⟩
      · exact Or.inl ⟨List.mem_cons_of_mem _ empty, failed⟩
      · have outside := List.not_mem_cons_of_ne_of_not_mem some_char.symm some_chars
        exact Or.inr ⟨outside, last, reached, all⟩

theorem withExtensions_cases (extensions : List String) :
    ("" ∈ extensions.map normalize ∧ withExtensions extensions = .error .emptyExtension) ∨
    ("" ∉ extensions.map normalize ∧ ∃ registry, withExtensions extensions = .ok registry ∧
      registry.HaskellUnder ("hs" :: extensions.map normalize)) :=
  haskellUnder_builtin.foldlM_registerExtension extensions

theorem HaskellUnder.mem_extensions_iff (under : registry.HaskellUnder names) {extension : String} :
    extension ∈ registry.extensions ↔ extension ∈ names := by
  rw [extensions, NameMap.mem_names_iff, Option.isSome_iff_exists]
  simp [under extension]

theorem normalize_eq_empty_iff {extension : String} :
    normalize extension = "" ↔ extension.toList.dropWhile (· = '.') = [] := by
  rw [normalize, ← String.toList_inj, String.toList_ofList, String.toList_empty,
    List.map_eq_nil_iff]

end Registry

/-- What is wrong with an entry of the colours: no key has its name, whatever its text, or its text
is no colour. -/
inductive EntryFault : String → String → SessionError → Prop where
  | unknownKey {name text : String} (unknown : ∀ key : Key, name ≠ key.name) :
      EntryFault name text (.unknownKey name)
  | invalidColor {name text : String} {key : Key} (named : name = key.name)
      (unreadable : Rgb.parse? text = none) : EntryFault name text (.invalidColor text)

namespace EntryFault
variable {name text : String} {a b : SessionError}

theorem unreadable {key : Key} (fault : EntryFault name text a) (named : name = key.name) :
    Rgb.parse? text = none := by
  cases fault with
  | unknownKey unknown => exact absurd named (unknown key)
  | invalidColor _ unreadable => exact unreadable

theorem unique (ha : EntryFault name text a) (hb : EntryFault name text b) : a = b := by
  cases ha with
  | unknownKey unknown =>
    cases hb with
    | unknownKey => rfl
    | invalidColor named => exact absurd named (unknown _)
  | invalidColor named =>
    cases hb with
    | unknownKey unknown => exact absurd named (unknown _)
    | invalidColor => rfl

end EntryFault

/-- The error is the fault of the entry with the least name among those with a fault, in the order
of UTF-8 bytes. -/
def FirstFault (colors : NameMap String) (error : SessionError) : Prop :=
  ∃ name text, colors.get? name = some text ∧ EntryFault name text error ∧
    ∀ other shown fault, colors.get? other = some shown → EntryFault other shown fault →
      utf8Bytes name ≤ utf8Bytes other

namespace Scheme
variable {scheme last : Scheme} {config : Config} {error : SessionError} {name text : String}
  {entries : List (String × String)}

theorem overrideNamed_eq_ok_iff :
    scheme.overrideNamed (name, text) = .ok last ↔
      ∃ key color, name = key.name ∧ Rgb.parse? text = some color ∧
        last = scheme.override key color := by
  simp only [overrideNamed, ← Key.ofName?_eq_some_iff]
  cases Key.ofName? name with
  | none => simp
  | some key => cases Rgb.parse? text <;> simp [eq_comm]

theorem overrideNamed_eq_error_iff :
    scheme.overrideNamed (name, text) = .error error ↔ EntryFault name text error := by
  constructor
  · intro failed
    rw [overrideNamed] at failed
    cases found : Key.ofName? name with
    | none =>
      rw [found] at failed
      obtain rfl := Except.error.inj failed
      refine .unknownKey fun key same => ?_
      rw [Key.ofName?_eq_some_iff.mpr same] at found
      contradiction
    | some key =>
      rw [found] at failed
      cases read : Rgb.parse? text with
      | none =>
        rw [read] at failed
        obtain rfl := Except.error.inj failed
        exact .invalidColor (Key.ofName?_eq_some_iff.mp found) read
      | some color =>
        rw [read] at failed
        contradiction
  · intro fault
    rw [overrideNamed]
    cases fault with
    | unknownKey unknown =>
      cases found : Key.ofName? name with
      | none => rfl
      | some key => exact absurd (Key.ofName?_eq_some_iff.mp found) (unknown key)
    | invalidColor named unreadable => simp [named, Key.ofName?_name, unreadable]

/-- The first fault ends a run over entries. -/
theorem exists_of_foldlM_error (failed : entries.foldlM overrideNamed scheme = .error error) :
    ∃ before name text after, entries = before ++ (name, text) :: after ∧
      EntryFault name text error ∧
      ∀ entry ∈ before, ∀ fault, ¬ EntryFault entry.1 entry.2 fault := by
  induction entries generalizing scheme with
  | nil => contradiction
  | cons entry entries ih =>
    obtain ⟨name, text⟩ := entry
    rw [List.foldlM_cons] at failed
    cases step : scheme.overrideNamed (name, text) with
    | error fault =>
      rw [step] at failed
      obtain rfl := Except.error.inj failed
      exact ⟨[], name, text, entries, rfl, overrideNamed_eq_error_iff.mp step, by simp⟩
    | ok next =>
      rw [step] at failed
      obtain ⟨before, other, shown, after, rfl, fault, good⟩ := ih failed
      refine ⟨(name, text) :: before, other, shown, after, rfl, fault, ?_⟩
      intro entry mem fault wrong
      rcases List.mem_cons.mp mem with rfl | mem
      · rw [overrideNamed_eq_error_iff.mpr wrong] at step
        contradiction
      · exact good entry mem fault wrong

/-- A run over entries that succeeds gives a colour at the first one and goes on from there. -/
theorem exists_of_foldlM_ok
    (ok : ((name, text) :: entries).foldlM overrideNamed scheme = .ok last) :
    ∃ key color, name = key.name ∧ Rgb.parse? text = some color ∧
      entries.foldlM overrideNamed (scheme.override key color) = .ok last := by
  rw [List.foldlM_cons] at ok
  cases step : scheme.overrideNamed (name, text) with
  | error fault =>
    rw [step] at ok
    contradiction
  | ok next =>
    rw [step] at ok
    obtain ⟨key, color, named, read, rfl⟩ := overrideNamed_eq_ok_iff.mp step
    exact ⟨key, color, named, read, ok⟩

theorem theme_of_foldlM (ok : entries.foldlM overrideNamed scheme = .ok last) :
    last.theme = scheme.theme := by
  induction entries generalizing scheme with
  | nil => rw [Except.ok.inj ok]
  | cons entry entries ih =>
    obtain ⟨key, color, -, -, rest⟩ := exists_of_foldlM_ok ok
    rw [ih rest, override]

/-- A key keeps its colour in a run over entries that do not name it. -/
theorem overrides_of_foldlM {key : Key} (unnamed : key.name ∉ entries.map Prod.fst)
    (ok : entries.foldlM overrideNamed scheme = .ok last) :
    last.overrides key = scheme.overrides key := by
  induction entries generalizing scheme with
  | nil => rw [Except.ok.inj ok]
  | cons entry entries ih =>
    obtain ⟨other, color, named, -, rest⟩ := exists_of_foldlM_ok ok
    rw [List.map_cons, List.mem_cons, not_or] at unnamed
    have different : key ≠ other := by
      rintro rfl
      exact unnamed.1 named.symm
    rw [ih unnamed.2 rest, overrides_override, if_neg different]

/-- A run over entries with different names gives each key that is named the colour there. -/
theorem parse?_of_foldlM (distinct : (entries.map Prod.fst).Nodup)
    (ok : entries.foldlM overrideNamed scheme = .ok last) {key : Key}
    (mem : (key.name, text) ∈ entries) :
    ∃ color, Rgb.parse? text = some color ∧ last.overrides key = some color := by
  induction entries generalizing scheme with
  | nil => contradiction
  | cons entry entries ih =>
    obtain ⟨other, color, named, read, rest⟩ := exists_of_foldlM_ok ok
    rw [List.map_cons, List.nodup_cons] at distinct
    rcases List.mem_cons.mp mem with rfl | mem
    · obtain rfl := Key.name_inj.mp named
      refine ⟨color, read, ?_⟩
      rw [overrides_of_foldlM distinct.1 rest, overrides_override, if_pos rfl]
    · exact ih distinct.2 rest mem

/-- A run over entries fails if one of them has a fault. -/
theorem good_of_foldlM (ok : entries.foldlM overrideNamed scheme = .ok last)
    (mem : (name, text) ∈ entries) : ¬ EntryFault name text error := by
  induction entries generalizing scheme with
  | nil => contradiction
  | cons entry entries ih =>
    obtain ⟨key, color, named, read, rest⟩ := exists_of_foldlM_ok ok
    rcases List.mem_cons.mp mem with rfl | mem
    · rintro fault
      rw [fault.unreadable named] at read
      contradiction
    · exact ih rest mem

theorem ofConfig_eq_error (failed : Scheme.ofConfig config = .error error) :
    FirstFault config.colors error := by
  obtain ⟨before, name, text, after, split, fault, good⟩ := exists_of_foldlM_error failed
  have mem : (name, text) ∈ config.colors.entries := by rw [split]; simp
  refine ⟨name, text, NameMap.get?_eq_some_iff.mpr mem, fault, ?_⟩
  intro other shown error found wrong
  have ascending := config.colors.ascending
  have mem := NameMap.get?_eq_some_iff.mp found
  rw [split, List.pairwise_append, List.pairwise_cons] at ascending
  rw [split, List.mem_append, List.mem_cons] at mem
  rcases mem with earlier | here | later
  · exact absurd wrong (good _ earlier error)
  · obtain ⟨rfl, rfl⟩ := Prod.mk.inj here
    exact List.le_refl _
  · exact List.le_of_lt (utf8Bytes_lt_iff.mpr (ascending.2.1.1 _ later))

end Scheme

theorem FirstFault.unique {colors : NameMap String} {a b : SessionError}
    (ha : FirstFault colors a) (hb : FirstFault colors b) : a = b := by
  obtain ⟨name, text, found, fault, least⟩ := ha
  obtain ⟨other, shown, found_other, fault_other, least_other⟩ := hb
  have not_below := least other shown b found_other fault_other
  have not_above := least_other name text a found fault
  rw [← List.not_lt, utf8Bytes_lt_iff, String.not_lt] at not_below not_above
  obtain rfl := String.le_antisymm not_below not_above
  obtain rfl := Option.some.inj (found.symm.trans found_other)
  exact fault.unique fault_other

/-- What a session made of settings is: Haskell files have the extension `hs` and the further ones,
which are listed in the order of their UTF-8 bytes and once each, and a key has the colour of the
entry under its name, or else the one that it inherits from the theme. -/
structure Session.Realizes (session : Session) (config : Config) : Prop where
  settings : session.config = config
  ascending : session.registry.extensions.Pairwise (utf8Bytes · < utf8Bytes ·)
  listed : ∀ extension, extension ∈ session.registry.extensions ↔
    extension = "hs" ∨ ∃ extra ∈ config.extraExtensions, Registry.IsBoundAs extra extension
  bound : ∀ extension ∈ session.registry.extensions,
    session.registry.fileTypes.get? extension = some .haskell
  named : ∀ (key : Key) text, config.colors.get? key.name = some text →
    Rgb.parse? text = some (session.scheme.colorFor key)
  inherited : ∀ key : Key, config.colors.get? key.name = none →
    session.scheme.colorFor key = config.highlight.theme.color key.fallback

theorem Session.realizes {config : Config} {registry : Registry} {scheme : Scheme}
    (under : registry.HaskellUnder ("hs" :: config.extraExtensions.map Registry.normalize))
    (ok : Scheme.ofConfig config = .ok scheme) :
    Session.Realizes ⟨config, registry, scheme⟩ config where
  settings := rfl
  ascending := (NameMap.names_ascending _).imp utf8Bytes_lt_iff.mpr
  listed extension := by
    simp only [under.mem_extensions_iff, List.mem_cons, List.mem_map, Registry.isBoundAs_iff]
  bound extension mem := (under _ _).mpr ⟨rfl, under.mem_extensions_iff.mp mem⟩
  named key text found := by
    obtain ⟨color, read, own⟩ := Scheme.parse?_of_foldlM config.colors.names_nodup ok
      (NameMap.get?_eq_some_iff.mp found)
    rw [read, Scheme.colorFor, own, Option.getD_some]
  inherited key free := by
    have unnamed : key.name ∉ config.colors.names := by
      rw [NameMap.mem_names_iff, free]
      exact Bool.false_ne_true
    have none : scheme.overrides key = none := Scheme.overrides_of_foldlM unnamed ok
    have theme : scheme.theme = config.highlight.theme := Scheme.theme_of_foldlM ok
    rw [Scheme.colorFor, none, theme, Option.getD_none]

/-- All that can become of settings: an extension is refused, an entry of the colours has a fault,
or there is a session. -/
theorem Session.ofConfig_cases (config : Config) :
    ("" ∈ config.extraExtensions.map Registry.normalize ∧
      Session.ofConfig config = .error (.registry .emptyExtension)) ∨
    ("" ∉ config.extraExtensions.map Registry.normalize ∧ ∃ error,
      FirstFault config.colors error ∧ Session.ofConfig config = .error error) ∨
    ("" ∉ config.extraExtensions.map Registry.normalize ∧
      (∀ name text fault, config.colors.get? name = some text → ¬ EntryFault name text fault) ∧
      ∃ session, session.Realizes config ∧ Session.ofConfig config = .ok session) := by
  rw [Session.ofConfig]
  rcases Registry.withExtensions_cases config.extraExtensions with ⟨empty, failed⟩ |
    ⟨some_chars, registry, opened, under⟩
  · exact Or.inl ⟨empty, by rw [failed]⟩
  rw [opened]
  cases built : Scheme.ofConfig config with
  | error error => exact Or.inr (Or.inl ⟨some_chars, error, Scheme.ofConfig_eq_error built, rfl⟩)
  | ok scheme =>
    refine Or.inr (Or.inr ⟨some_chars, ?_, _, Session.realizes under built, rfl⟩)
    intro name text fault found
    exact Scheme.good_of_foldlM built (NameMap.get?_eq_some_iff.mp found)

/-- What becomes of settings. They are refused for an extension exactly if one of the further ones
is empty without the dots in front, whatever the colours are; no extension is ever taken. Otherwise
they are refused exactly if an entry of the colours has a fault, with the fault of the entry that
comes first in the order of UTF-8 bytes; and otherwise there is a session that stands for them. -/
theorem session_checked (config : Config) :
    let refused := ∃ extra ∈ config.extraExtensions, extra.toList.dropWhile (· = '.') = []
    let faulty := ∃ name text fault, config.colors.get? name = some text ∧
      EntryFault name text fault
    (∀ error, Session.ofConfig config = .error (.registry error) ↔
      refused ∧ error = .emptyExtension) ∧
    (¬ refused → ∀ error, Session.ofConfig config = .error error ↔
      FirstFault config.colors error) ∧
    ((∃ session, Session.ofConfig config = .ok session) ↔ ¬ refused ∧ ¬ faulty) ∧
    ∀ session, Session.ofConfig config = .ok session → session.Realizes config := by
  intro refused faulty
  have refused_iff : refused ↔ "" ∈ config.extraExtensions.map Registry.normalize := by
    simp only [refused, List.mem_map, Registry.normalize_eq_empty_iff]
  have fault_of_first {error : SessionError} : FirstFault config.colors error → faulty := by
    rintro ⟨name, text, found, fault, -⟩
    exact ⟨name, text, error, found, fault⟩
  have not_registry {error : RegistryError} : ¬ FirstFault config.colors (.registry error) := by
    rintro ⟨name, text, found, fault, -⟩
    cases fault
  rw [refused_iff]
  rcases Session.ofConfig_cases config with ⟨empty, eq⟩ | ⟨some_chars, fault, first, eq⟩ |
    ⟨some_chars, good, session, realizes, eq⟩
  · rw [eq]
    refine ⟨fun error => ?_, fun unrefused => absurd empty unrefused, ?_, nofun⟩
    · simp [empty, eq_comm]
    · simp [empty]
  · rw [eq]
    refine ⟨fun error => ?_, fun _ error => ?_, ?_, nofun⟩
    · refine ⟨?_, fun h => absurd h.1 some_chars⟩
      rintro ⟨⟩
      exact absurd first not_registry
    · constructor
      · rintro ⟨⟩
        exact first
      · intro other
        rw [first.unique other]
    · refine ⟨nofun, fun h => absurd (fault_of_first first) h.2⟩
  · rw [eq]
    have unfaulty : ¬ faulty := by
      rintro ⟨name, text, fault, found, wrong⟩
      exact good name text fault found wrong
    refine ⟨fun error => ⟨nofun, fun h => absurd h.1 some_chars⟩, fun _ error => ⟨nofun, ?_⟩,
      ⟨fun _ => ⟨some_chars, unfaulty⟩, fun _ => ⟨session, rfl⟩⟩, ?_⟩
    · exact fun first => absurd (fault_of_first first) unfaulty
    · rintro _ ⟨⟩
      exact realizes

example : Scheme.ofConfig ⟨.standard,
    .ofList [("HS_STRING", "#12"), ("Z", "#000000"), ("HS_BRACE", "red")], []⟩ =
      .error (.invalidColor "red") := by decide

end HaskellHighlight
