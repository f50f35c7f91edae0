import HaskellHighlight.Proofs.TableSteps

/-! What keys and sections leave in the tables of a document, at the top and one level below. They
never change a value that is no table, and no table gets a name twice. -/
namespace HaskellHighlight.Toml

/-- A value that is no table and no array of tables with headers. -/
def Value.IsLeaf (value : Value) : Prop :=
  (∀ origin inner, value ≠ .table origin inner) ∧ ∀ items, value ≠ .tables items

def Value.inner : Value → Entries
  | .table _ inner => inner
  | _ => []

namespace Entries

def tableAt (name : String) (entries : Entries) : Entries :=
  ((find? name entries).map Value.inner).getD []

def valueAt? (table name : String) (entries : Entries) : Option Value :=
  find? name (tableAt table entries)

/-- No name is given twice, neither here nor in a table here. -/
structure WellNamed (entries : Entries) : Prop where
  own : Distinct entries
  tables : ∀ name, Distinct (tableAt name entries)

def OnlyTable (name : String) (entries : Entries) : Prop :=
  ∀ value, find? name entries = some value → ∃ origin inner, value = .table origin inner

section steps
variable {step : Entries → Entries → Prop} {name parent : String} {parents : List String}
  {entries later : Entries} {value : Value} {path : Path} {values : List (Path × Value)}

theorem Goes.puts (goes : Goes step parent entries later) :
    ∃ value, ¬value.IsLeaf ∧ Puts parent value entries later := by
  cases goes with
  | table before made puts => exact ⟨_, fun leaf => leaf.1 _ _ rfl, puts⟩
  | tables before puts => exact ⟨_, fun leaf => leaf.2 _ rfl, puts⟩

theorem Goes.imp {weaker : Entries → Entries → Prop} (goes : Goes step parent entries later)
    (implies : ∀ held inner, step held inner → weaker held inner) :
    Goes weaker parent entries later := by
  cases goes with
  | table before made puts => exact .table before (implies _ _ made) puts
  | tables before puts => exact .tables before puts

theorem Goes.distinct (goes : Goes step parent entries later) : Distinct later := by
  obtain ⟨_, -, puts⟩ := goes.puts
  exact puts.distinct

/-- A step into a table leaves all values that are no tables. -/
theorem Goes.leaf (goes : Goes step parent entries later) (leaf : value.IsLeaf) :
    find? name later = some value ↔ find? name entries = some value := by
  obtain ⟨put, no_leaf, puts⟩ := goes.puts
  rw [puts.found]
  split
  · rename_i same
    subst same
    constructor
    · rintro ⟨⟩
      exact absurd leaf no_leaf
    · intro found
      cases goes with
      | table before =>
        rw [found] at before
        cases value with
        | table origin inner => exact absurd rfl (leaf.1 origin inner)
        | _ => contradiction
      | tables before =>
        obtain ⟨items, rfl⟩ := before value found
        exact absurd rfl (leaf.2 items)
  · rfl

theorem addAt_distinct {own : Bool} (distinct : Distinct entries)
    (added : addAt own name value parents entries = some later) : Distinct later := by
  cases parents with
  | nil =>
    obtain ⟨absent, rfl⟩ := addAt_nil added
    exact (puts_append distinct absent value).distinct
  | cons parent parents => exact (addAt_cons distinct added).distinct

/-- A key adds its value under its last name if it has no dots, and no other value that is no
table. -/
theorem addAt_leaf {own : Bool} {other : String} {put : Value} (distinct : Distinct entries)
    (added : addAt own name put parents entries = some later) (leaf : value.IsLeaf) :
    find? other later = some value ↔
      find? other entries = some value ∨ parents = [] ∧ other = name ∧ put = value := by
  cases parents with
  | nil =>
    obtain ⟨absent, rfl⟩ := addAt_nil added
    rw [(puts_append distinct absent put).found]
    split
    · rename_i same
      simp [same, absent]
    · rename_i different
      simp [different]
  | cons parent parents => simp [(addAt_cons distinct added).leaf leaf]

/-- Lines below a header add the values of their keys without dots, and no others that are no
tables. -/
theorem addAll_spec (distinct : Distinct entries) (added : addAll entries values = some later) :
    Distinct later ∧ ∀ {name value}, value.IsLeaf → (find? name later = some value ↔
      find? name entries = some value ∨ (⟨[], name⟩, value) ∈ values) := by
  induction values generalizing entries with
  | nil =>
    cases added
    exact ⟨distinct, fun _ => by simp⟩
  | cons entry values ih =>
    obtain ⟨⟨parents, last⟩, put⟩ := entry
    rw [addAll, List.foldlM_cons] at added
    obtain ⟨mid, first, rest⟩ := Option.bind_eq_some_iff.mp added
    obtain ⟨distinct_later, values_later⟩ := ih (addAt_distinct distinct first) rest
    refine ⟨distinct_later, fun {name value} leaf => ?_⟩
    rw [values_later leaf, addAt_leaf distinct first leaf, List.mem_cons, or_assoc]
    simp only [Prod.mk.injEq, Path.mk.injEq]
    refine or_congr_right (or_congr_left ⟨?_, ?_⟩)
    · rintro ⟨rfl, rfl, rfl⟩
      exact ⟨⟨rfl, rfl⟩, rfl⟩
    · rintro ⟨⟨rfl, rfl⟩, rfl⟩
      exact ⟨rfl, rfl, rfl⟩

variable {isElement : Bool}

/-- A section stands in the table that its header opens. -/
theorem addSection_here (distinct : Distinct entries)
    (added : addSection entries ⟨isElement, ⟨[], name⟩, values⟩ = some later) :
    Goes (fun held inner => isElement = false ∧ addAll held values = some inner) name entries
      later := by
  rw [addSection, within] at added
  cases isElement with
  | false => exact (openTable_goes distinct added).imp fun _ _ made => ⟨rfl, made⟩
  | true => exact (openElement_goes distinct added).imp fun _ _ => False.elim

/-- A section stands below the first name of its header. -/
theorem addSection_below (distinct : Distinct entries)
    (added : addSection entries ⟨isElement, ⟨parent :: parents, name⟩, values⟩ = some later) :
    Goes (fun held inner => addSection held ⟨isElement, ⟨parents, name⟩, values⟩ = some inner)
      parent entries later :=
  within_cons distinct added

/-- Sections only put tables. -/
theorem addSection_goes {part : Section} (distinct : Distinct entries)
    (added : addSection entries part = some later) :
    ∃ step parent, Goes step parent entries later := by
  obtain ⟨isElement, ⟨parents, name⟩, values⟩ := part
  cases parents with
  | nil => exact ⟨_, _, addSection_here distinct added⟩
  | cons parent parents => exact ⟨_, _, addSection_below distinct added⟩

end steps

theorem Puts.tableAt {name : String} {value : Value} {entries later : Entries}
    (puts : Puts name value entries later) (other : String) :
    tableAt other later = if other = name then value.inner else tableAt other entries := by
  rw [Entries.tableAt, Entries.tableAt, puts.found]
  split <;> rfl

theorem Puts.wellNamed {name : String} {value : Value} {entries later : Entries}
    (puts : Puts name value entries later) (wellNamed : WellNamed entries)
    (inside : Distinct value.inner) : WellNamed later := by
  refine ⟨puts.distinct, fun other => ?_⟩
  rw [puts.tableAt]
  split
  · exact inside
  · exact wellNamed.tables other

theorem held_spec {name : String} {entries held : Entries}
    (before : held? (find? name entries) = some held) :
    tableAt name entries = held ∧ OnlyTable name entries := by
  rw [tableAt]
  cases found : find? name entries with
  | none =>
    rw [found] at before
    cases before
    exact ⟨rfl, fun value other => nomatch found.symm.trans other⟩
  | some value =>
    rw [found] at before
    cases value with
    | table origin inner =>
      cases before
      exact ⟨rfl, fun value other => ⟨origin, held, Option.some.inj (other.symm.trans found)⟩⟩
    | _ => contradiction

/-- A table that was changed inside has distinct names again if the step keeps them so. -/
theorem Goes.wellNamed {step : Entries → Entries → Prop} {name : String} {entries later : Entries}
    (goes : Goes step name entries later) (wellNamed : WellNamed entries)
    (keeps : ∀ held inner, Distinct held → step held inner → Distinct inner) :
    WellNamed later := by
  cases goes with
  | table before made puts =>
    exact puts.wellNamed wellNamed (keeps _ _ ((held_spec before).1 ▸ wellNamed.tables name) made)
  | tables before puts => exact puts.wellNamed wellNamed .nil

end Entries
end HaskellHighlight.Toml
