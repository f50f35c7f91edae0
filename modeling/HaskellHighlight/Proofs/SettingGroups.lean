import HaskellHighlight.Config.Decode
import HaskellHighlight.Proofs.DocumentTables
import Mathlib.Data.List.Sort

/-! Settings are taken from a table one by one. Where no name is given twice, every setting is what its
own name gives, or the standard value where that is missing. -/
namespace HaskellHighlight

/-- A map is known by its values. -/
theorem NameMap.ext_get? {α : Type} {a b : NameMap α} (same : ∀ name, a.get? name = b.get? name) :
    a = b := by
  have irreflexive : Std.Irrefl fun x y : String × α => x.1 < y.1 := ⟨fun _ => String.lt_irrefl _⟩
  have entries : a.entries = b.entries := by
    refine a.ascending.eq_of_mem_iff b.ascending fun entry => ?_
    rw [← NameMap.get?_eq_some_iff, ← NameMap.get?_eq_some_iff, same]
  obtain ⟨_, _⟩ := a
  obtain ⟨_, _⟩ := b
  cases entries
  rfl

namespace Config
open Toml Entries

def taken {α : Type} (decode : Decoder α) (standard : α) : Option Value → Except DecodeError α
  | none => .ok standard
  | some value => decode value

def setAll {σ : Type} (set : Setter σ) (entries : Entries) (start : σ) : Except DecodeError σ :=
  entries.foldlM (fun group entry => set group entry.1 entry.2) start

/-- A setter decodes the value of one name into one part of the settings, and changes this part for no
other name. -/
structure Sets {σ α : Type} (set : Setter σ) (name : String) (decode : Decoder α) (part : σ → α) :
    Prop where
  sets : ∀ {group later value}, set group name value = .ok later → decode value = .ok (part later)
  keeps : ∀ {group later other value}, other ≠ name → set group other value = .ok later →
    part later = part group

theorem exists_of_bind {ε α β : Type} {x : Except ε α} {f : α → Except ε β} {result : β}
    (h : x >>= f = .ok result) : ∃ a, x = .ok a ∧ f a = .ok result := by
  cases x with
  | error error => contradiction
  | ok a => exact ⟨a, rfl, h⟩

section setters
variable {σ α : Type} {set : Setter σ} {name : String} {decode : Decoder α} {part : σ → α}
  {entries : Entries} {start last : σ}

private theorem Sets.keeps_all (sets : Sets set name decode part) (absent : find? name entries = none)
    (run : setAll set entries start = .ok last) : part last = part start := by
  induction entries generalizing start with
  | nil =>
    cases run
    rfl
  | cons entry entries ih =>
    rw [setAll, List.foldlM_cons] at run
    obtain ⟨group, first, rest⟩ := exists_of_bind run
    rw [find?] at absent
    split at absent
    · contradiction
    · rename_i different
      rw [ih absent rest, sets.keeps (Ne.symm different) first]

/-- After all values were taken, the part is what its own name gives. -/
theorem Sets.taken (sets : Sets set name decode part) (distinct : Distinct entries)
    (run : setAll set entries start = .ok last) :
    taken decode (part start) (find? name entries) = .ok (part last) := by
  induction entries generalizing start with
  | nil =>
    cases run
    rfl
  | cons entry entries ih =>
    obtain ⟨other, value⟩ := entry
    obtain ⟨fresh, distinct_rest⟩ := List.nodup_cons.mp distinct
    rw [setAll, List.foldlM_cons] at run
    obtain ⟨group, first, rest⟩ := exists_of_bind run
    rw [find?]
    split
    · rename_i same
      subst same
      rw [sets.keeps_all (find?_eq_none_iff.mpr fresh) rest]
      exact sets.sets first
    · rename_i different
      rw [← sets.keeps (Ne.symm different) first]
      exact ih distinct_rest rest

/-- Values that can be taken one by one can be taken together. -/
theorem exists_setAll {accepts : String → Value → Prop}
    (each : ∀ group name value, accepts name value → ∃ later, set group name value = .ok later)
    (all : ∀ entry ∈ entries, accepts entry.1 entry.2) (start : σ) :
    ∃ last, setAll set entries start = .ok last := by
  induction entries generalizing start with
  | nil => exact ⟨start, rfl⟩
  | cons entry entries ih =>
    obtain ⟨first, others⟩ := List.forall_mem_cons.mp all
    obtain ⟨group, set_first⟩ := each start _ _ first
    obtain ⟨last, rest⟩ := ih others group
    refine ⟨last, ?_⟩
    rw [setAll, List.foldlM_cons, set_first]
    exact rest

/-- What is taken for a name was decoded from every value of it. -/
theorem decode_of_taken (distinct : Distinct entries) {standard setting : α}
    (given : Config.taken decode standard (find? name entries) = .ok setting) {entry : String × Value}
    (mem : entry ∈ entries) (named : entry.1 = name) : decode entry.2 = .ok setting := by
  subst named
  rwa [(find?_eq_some_iff distinct).mpr mem] at given

/-- Decodes the value of one name and puts it where it belongs; other names go to another setter. -/
def pick (name : String) (decode : Decoder α) (put : σ → α → σ) (rest : Setter σ) : Setter σ :=
  fun group other value =>
    if other = name then do return put group (← decode value) else rest group other value

def stop : Setter σ := fun group _ _ => .ok group

def Keeps (set : Setter σ) (part : σ → α) : Prop :=
  ∀ group later name value, set group name value = .ok later → part later = part group

/-- A setter takes the values that are accepted. -/
def Takes (set : Setter σ) (accepted : String → Value → Prop) : Prop :=
  ∀ group name value, accepted name value → ∃ later, set group name value = .ok later

theorem Keeps.stop (part : σ → α) : Keeps stop part := fun _ _ _ _ set =>
  congrArg part (Except.ok.inj set).symm

theorem Takes.stop : Takes (stop : Setter σ) fun _ _ => True := fun group _ _ _ => ⟨group, rfl⟩

variable {β : Type} {first : String} {decode' : Decoder β} {put : σ → β → σ} {rest : Setter σ}

theorem Keeps.pick (keeps : Keeps rest part) (other_part : ∀ group setting,
    part (put group setting) = part group) : Keeps (pick first decode' put rest) part := by
  intro group later name value set
  rw [Config.pick] at set
  split at set
  · obtain ⟨setting, -, same⟩ := exists_of_bind set
    cases same
    exact other_part group setting
  · exact keeps _ _ _ _ set

theorem Takes.pick {accepted : String → Value → Prop} (takes : Takes rest accepted) :
    Takes (pick first decode' put rest) fun name value =>
      (name = first → ∃ setting, decode' value = .ok setting) ∧ accepted name value := by
  intro group name value both
  rw [Config.pick]
  split
  · obtain ⟨setting, decoded⟩ := both.1 ‹_›
    exact ⟨put group setting, by rw [decoded]; rfl⟩
  · exact takes group name value both.2

/-- The first name of a chain sets its own part. -/
theorem Sets.here {put : σ → α → σ} (own_part : ∀ group setting, part (put group setting) = setting)
    (keeps : Keeps rest part) : Sets (pick name decode put rest) name decode part where
  sets set := by
    rw [pick, if_pos rfl] at set
    obtain ⟨setting, decoded, same⟩ := exists_of_bind set
    cases same
    rw [own_part, decoded]
  keeps different set := by
    rw [pick, if_neg different] at set
    exact keeps _ _ _ _ set

/-- A later name of a chain sets its own part. -/
theorem Sets.later (sets : Sets rest name decode part) (different : name ≠ first)
    (other_part : ∀ group setting, part (put group setting) = part group) :
    Sets (pick first decode' put rest) name decode part where
  sets set := by
    rw [pick, if_neg different] at set
    exact sets.sets set
  keeps other set := by
    rw [pick] at set
    split at set
    · obtain ⟨setting, -, same⟩ := exists_of_bind set
      cases same
      exact other_part _ setting
    · exact sets.keeps other set

end setters

theorem setHighlight_eq : setHighlight =
    pick "enabled" decodeBoolean (fun settings enabled => { settings with enabled })
      (pick "merge_adjacent" decodeBoolean (fun settings mergeAdjacent =>
          { settings with mergeAdjacent })
        (pick "theme" decodeTheme (fun settings theme => { settings with theme }) stop)) := rfl

theorem setFiles_eq : setFiles =
    pick "extra_extensions" decodeStrings (fun _ extensions => extensions) stop := by
  funext extensions name value
  rw [setFiles, pick]
  cases decodeStrings value <;> rfl

theorem setGroup_eq : setGroup =
    pick "highlight" (decodeGroup .highlightSettings ["enabled", "merge_adjacent", "theme"]
        setHighlight .standard) (fun config highlight => { config with highlight })
      (pick "colors" decodeColors (fun config colors => { config with colors })
        (pick "files" (decodeGroup .fileSettings ["extra_extensions"] setFiles [])
          (fun config extraExtensions => { config with extraExtensions }) stop)) := rfl

def setColor : Setter (NameMap String) := fun colors name value => do
  return colors.insert name (← decodeString value)

theorem sets_color (name : String) :
    Sets setColor name (fun value => some <$> decodeString value) (·.get? name) where
  sets set := by
    obtain ⟨text, decoded, same⟩ := exists_of_bind set
    cases same
    simp only [decoded, NameMap.get?_insert, if_true]
    rfl
  keeps different set := by
    obtain ⟨text, -, same⟩ := exists_of_bind set
    cases same
    rw [NameMap.get?_insert, if_neg (Ne.symm different)]

/-- Colours are taken one after another. -/
theorem decodeColors_table (origin : Origin) (entries : Entries) :
    decodeColors (.table origin entries) = setAll setColor entries .empty := by
  have from_any (colors : NameMap String) :
      (do
        let named ← entries.mapM fun entry => return (entry.1, ← decodeString entry.2)
        return named.foldl (fun map entry => map.insert entry.1 entry.2) colors) =
      setAll setColor entries colors := by
    induction entries generalizing colors with
    | nil => rfl
    | cons entry entries ih =>
      obtain ⟨name, value⟩ := entry
      rw [List.mapM_cons, setAll, List.foldlM_cons]
      simp only [setColor]
      cases decodeString value with
      | error error => rfl
      | ok text =>
        refine Eq.trans ?_ (ih (colors.insert name text))
        simp only [pure_bind, bind_assoc, List.foldl_cons]
        rfl
  exact from_any .empty

theorem sets_enabled : Sets setHighlight "enabled" decodeBoolean HighlightSettings.enabled := by
  rw [setHighlight_eq]
  exact .here (fun _ _ => rfl) (.pick (.pick (.stop _) fun _ _ => rfl) fun _ _ => rfl)

theorem sets_mergeAdjacent :
    Sets setHighlight "merge_adjacent" decodeBoolean HighlightSettings.mergeAdjacent := by
  rw [setHighlight_eq]
  exact .later (.here (fun _ _ => rfl) (.pick (.stop _) fun _ _ => rfl)) (by decide) fun _ _ => rfl

theorem sets_theme : Sets setHighlight "theme" decodeTheme HighlightSettings.theme := by
  rw [setHighlight_eq]
  exact .later (.later (.here (fun _ _ => rfl) (.stop _)) (by decide) fun _ _ => rfl) (by decide)
    fun _ _ => rfl

theorem takes_highlight : Takes setHighlight fun name value =>
    (name = "enabled" → ∃ setting, decodeBoolean value = .ok setting) ∧
    (name = "merge_adjacent" → ∃ setting, decodeBoolean value = .ok setting) ∧
    (name = "theme" → ∃ setting, decodeTheme value = .ok setting) ∧ True := by
  rw [setHighlight_eq]
  exact .pick (.pick (.pick .stop))

theorem sets_extensions : Sets setFiles "extra_extensions" decodeStrings id := by
  rw [setFiles_eq]
  exact .here (fun _ _ => rfl) (.stop _)

theorem takes_files : Takes setFiles fun name value =>
    (name = "extra_extensions" → ∃ setting, decodeStrings value = .ok setting) ∧ True := by
  rw [setFiles_eq]
  exact .pick .stop

theorem sets_highlight : Sets setGroup "highlight" (decodeGroup .highlightSettings
    ["enabled", "merge_adjacent", "theme"] setHighlight .standard) Config.highlight := by
  rw [setGroup_eq]
  exact .here (fun _ _ => rfl) (.pick (.pick (.stop _) fun _ _ => rfl) fun _ _ => rfl)

theorem sets_colors : Sets setGroup "colors" decodeColors Config.colors := by
  rw [setGroup_eq]
  exact .later (.here (fun _ _ => rfl) (.pick (.stop _) fun _ _ => rfl)) (by decide) fun _ _ => rfl

theorem sets_files : Sets setGroup "files"
    (decodeGroup .fileSettings ["extra_extensions"] setFiles []) Config.extraExtensions := by
  rw [setGroup_eq]
  exact .later (.later (.here (fun _ _ => rfl) (.stop _)) (by decide) fun _ _ => rfl) (by decide)
    fun _ _ => rfl

theorem takes_group : Takes setGroup fun name value =>
    (name = "highlight" → ∃ setting, decodeGroup .highlightSettings
      ["enabled", "merge_adjacent", "theme"] setHighlight .standard value = .ok setting) ∧
    (name = "colors" → ∃ setting, decodeColors value = .ok setting) ∧
    (name = "files" → ∃ setting, decodeGroup .fileSettings ["extra_extensions"] setFiles [] value =
      .ok setting) ∧ True := by
  rw [setGroup_eq]
  exact .pick (.pick (.pick .stop))

/-- Settings come of a table exactly if they are what their names give. -/
theorem setAll_eq_ok_iff {σ : Type} {set : Setter σ} {accepted : String → Value → Prop}
    {entries : Entries} {start settings : σ} {Given : σ → Prop} (takes : Takes set accepted)
    (given : ∀ {last}, setAll set entries start = .ok last → Given last)
    (accepts : Given settings → ∀ entry ∈ entries, accepted entry.1 entry.2)
    (same : ∀ {last}, Given last → Given settings → last = settings) :
    setAll set entries start = .ok settings ↔ Given settings := by
  refine ⟨given, fun holds => ?_⟩
  obtain ⟨last, run⟩ := exists_setAll takes (accepts holds) start
  rw [run, same (given run) holds]

/-- Settings of how to highlight that are what their names give. -/
structure HighlightGiven (entries : Entries) (settings : HighlightSettings) : Prop where
  enabled : taken decodeBoolean true (find? "enabled" entries) = .ok settings.enabled
  mergeAdjacent :
    taken decodeBoolean true (find? "merge_adjacent" entries) = .ok settings.mergeAdjacent
  theme : taken decodeTheme .dark (find? "theme" entries) = .ok settings.theme

theorem setHighlight_eq_ok_iff {entries : Entries} (distinct : Distinct entries)
    {settings : HighlightSettings} :
    setAll setHighlight entries .standard = .ok settings ↔ HighlightGiven entries settings := by
  refine setAll_eq_ok_iff takes_highlight ?_ ?_ ?_
  · intro last run
    exact ⟨sets_enabled.taken distinct run, sets_mergeAdjacent.taken distinct run,
      sets_theme.taken distinct run⟩
  · intro given entry mem
    exact ⟨fun named => ⟨_, decode_of_taken distinct given.enabled mem named⟩,
      fun named => ⟨_, decode_of_taken distinct given.mergeAdjacent mem named⟩,
      fun named => ⟨_, decode_of_taken distinct given.theme mem named⟩, trivial⟩
  · rintro ⟨_, _, _⟩ one other
    cases Except.ok.inj (one.enabled.symm.trans other.enabled)
    cases Except.ok.inj (one.mergeAdjacent.symm.trans other.mergeAdjacent)
    cases Except.ok.inj (one.theme.symm.trans other.theme)
    rfl

theorem setFiles_eq_ok_iff {entries : Entries} (distinct : Distinct entries)
    {extensions : List String} :
    setAll setFiles entries [] = .ok extensions ↔
      taken decodeStrings [] (find? "extra_extensions" entries) = .ok extensions := by
  refine setAll_eq_ok_iff takes_files (fun run => sets_extensions.taken distinct run) ?_ ?_
  · intro given entry mem
    exact ⟨fun named => ⟨_, decode_of_taken distinct given mem named⟩, trivial⟩
  · intro last one other
    exact Except.ok.inj (one.symm.trans other)

theorem takes_color : Takes setColor fun _ value => ∃ text, decodeString value = .ok text := by
  rintro colors name value ⟨text, decoded⟩
  exact ⟨colors.insert name text, by rw [setColor, decoded]; rfl⟩

/-- Colours are what their names give. -/
theorem setColor_eq_ok_iff {entries : Entries} (distinct : Distinct entries)
    {colors : NameMap String} :
    setAll setColor entries .empty = .ok colors ↔ ∀ name,
      taken (fun value => some <$> decodeString value) none (find? name entries) =
        .ok (colors.get? name) := by
  refine setAll_eq_ok_iff takes_color (fun run name => (sets_color name).taken distinct run) ?_ ?_
  · intro given entry mem
    have decoded := decode_of_taken distinct (given entry.1) mem rfl
    cases found : decodeString entry.2 with
    | error error =>
      rw [found] at decoded
      contradiction
    | ok text => exact ⟨text, rfl⟩
  · intro last one other
    exact NameMap.ext_get? fun name => Except.ok.inj ((one name).symm.trans (other name))

/-- Groups of settings that are what their names give. -/
structure GroupsGiven (entries : Entries) (config : Config) : Prop where
  highlight : taken (decodeGroup .highlightSettings ["enabled", "merge_adjacent", "theme"]
    setHighlight .standard) .standard (find? "highlight" entries) = .ok config.highlight
  colors : taken decodeColors .empty (find? "colors" entries) = .ok config.colors
  files : taken (decodeGroup .fileSettings ["extra_extensions"] setFiles []) []
    (find? "files" entries) = .ok config.extraExtensions

theorem decode_eq_ok_iff {entries : Entries} (distinct : Distinct entries) {config : Config} :
    decode entries = .ok config ↔ GroupsGiven entries config := by
  refine setAll_eq_ok_iff takes_group ?_ ?_ ?_
  · intro last run
    exact ⟨sets_highlight.taken distinct run, sets_colors.taken distinct run,
      sets_files.taken distinct run⟩
  · intro given entry mem
    exact ⟨fun named => ⟨_, decode_of_taken distinct given.highlight mem named⟩,
      fun named => ⟨_, decode_of_taken distinct given.colors mem named⟩,
      fun named => ⟨_, decode_of_taken distinct given.files mem named⟩, trivial⟩
  · rintro ⟨_, _, _⟩ one other
    cases Except.ok.inj (one.highlight.symm.trans other.highlight)
    cases Except.ok.inj (one.colors.symm.trans other.colors)
    cases Except.ok.inj (one.files.symm.trans other.files)
    rfl

end Config

end HaskellHighlight
