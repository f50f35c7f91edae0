import HaskellHighlight.Proofs.UndottedTables

/-! What a key or a header does to a table: it puts one value under one name. A key puts its own
value where nothing was. What goes on into a table puts that table there again, changed inside. -/
namespace HaskellHighlight.Toml.Entries

def Distinct (entries : Entries) : Prop := (entries.map Prod.fst).Nodup

/-- The later entries have the value under the name, and under other names what was there. -/
structure Puts (name : String) (value : Value) (entries later : Entries) : Prop where
  found : ∀ other, find? other later = if other = name then some value else find? other entries
  distinct : Distinct later

theorem Distinct.nil : Distinct [] := List.nodup_nil

theorem find?_append (name : String) (front back : Entries) :
    find? name (front ++ back) = (find? name front).or (find? name back) := by
  induction front with
  | nil => rfl
  | cons entry front ih =>
    rw [List.cons_append, find?, find?, ih]
    split <;> rfl

theorem find?_replace (name other : String) (value : Value) (entries : Entries) :
    find? other (replace name value entries) =
      if other = name then (find? name entries).map fun _ => value else find? other entries := by
  induction entries with
  | nil => simp [replace, find?]
  | cons entry entries ih =>
    obtain ⟨next, old⟩ := entry
    rw [replace]
    split
    · rename_i same
      subst same
      simp only [find?, if_true, Option.map_some]
      split <;> rfl
    · rename_i different
      simp only [find?, ih, if_neg different]
      by_cases same : other = name
      · subst same
        simp [different]
      · simp [same]

theorem names_replace (name : String) (value : Value) (entries : Entries) :
    (replace name value entries).map Prod.fst = entries.map Prod.fst := by
  induction entries with
  | nil => rfl
  | cons entry entries ih =>
    obtain ⟨next, old⟩ := entry
    rw [replace]
    split
    · rfl
    · rw [List.map_cons, List.map_cons, ih]

theorem names_erase (name : String) (entries : Entries) :
    (erase name entries).map Prod.fst = (entries.map Prod.fst).erase name := by
  induction entries with
  | nil => rfl
  | cons entry entries ih =>
    obtain ⟨next, old⟩ := entry
    rw [erase, List.map_cons, List.erase_cons]
    by_cases same : name = next
    · simp [same]
    · simp [same, Ne.symm same, ih]

theorem find?_erase {name other : String} (different : other ≠ name) (entries : Entries) :
    find? other (erase name entries) = find? other entries := by
  induction entries with
  | nil => rfl
  | cons entry entries ih =>
    obtain ⟨next, old⟩ := entry
    rw [erase]
    split
    · rename_i same
      rw [find?, if_neg (same ▸ different)]
    · rw [find?, find?, ih]

theorem find?_eq_some_iff {entries : Entries} (distinct : Distinct entries) {name : String}
    {value : Value} : find? name entries = some value ↔ (name, value) ∈ entries := by
  induction entries with
  | nil => simp [find?]
  | cons entry entries ih =>
    obtain ⟨other, old⟩ := entry
    obtain ⟨fresh, later⟩ := List.nodup_cons.mp distinct
    rw [find?, List.mem_cons]
    by_cases same : name = other
    · subst same
      have behind : (name, value) ∉ entries := fun mem =>
        fresh (List.mem_map.mpr ⟨(name, value), mem, rfl⟩)
      simp [behind, eq_comm]
    · simp [same, ih later]

section puts
variable {name : String} {entries : Entries}

private theorem distinct_append (distinct : Distinct entries) (fresh : name ∉ entries.map Prod.fst)
    (value : Value) : Distinct (entries ++ [(name, value)]) := by
  rw [Distinct, List.map_append, List.map_singleton]
  refine List.nodup_append.mpr ⟨distinct, List.pairwise_singleton _ _, ?_⟩
  rintro other mem _ last rfl
  rw [List.mem_singleton.mp last] at mem
  exact fresh mem

theorem puts_append (distinct : Distinct entries) (absent : find? name entries = none)
    (value : Value) : Puts name value entries (entries ++ [(name, value)]) where
  found other := by
    rw [find?_append, find?, find?]
    by_cases same : other = name
    · subst same
      rw [absent, Option.none_or]
    · rw [if_neg same, if_neg same, Option.or_none]
  distinct := distinct_append distinct (find?_eq_none_iff.mp absent) value

theorem puts_replace (distinct : Distinct entries) {old : Value}
    (present : find? name entries = some old) (value : Value) :
    Puts name value entries (replace name value entries) where
  found other := by rw [find?_replace, present, Option.map_some]
  distinct := by rwa [Distinct, names_replace]

theorem puts_erase (distinct : Distinct entries) (value : Value) :
    Puts name value entries (erase name entries ++ [(name, value)]) := by
  have fresh : name ∉ (erase name entries).map Prod.fst := by
    rw [names_erase]
    exact distinct.not_mem_erase
  have rest : Distinct (erase name entries) := by
    rw [Distinct, names_erase]
    exact distinct.erase name
  refine ⟨fun other => ?_, distinct_append rest fresh value⟩
  rw [find?_append, find?, find?]
  by_cases same : other = name
  · subst same
    rw [find?_eq_none_iff.mpr fresh, Option.none_or, if_pos rfl, if_pos rfl]
  · rw [if_neg same, if_neg same, Option.or_none, find?_erase same]

end puts

/-- The entries into which a key or a header goes on under a name: those of the table there, or none
yet. -/
def held? : Option Value → Option Entries
  | none => some []
  | some (.table _ inner) => some inner
  | some _ => none

/-- The later entries have a table or an array of tables under the name, where nothing else was. A
table holds what the step makes of the entries that were held there before. -/
inductive Goes (step : Entries → Entries → Prop) (name : String) (entries later : Entries) : Prop
  | table {origin : Origin} {held inner : Entries} (before : held? (find? name entries) = some held)
      (made : step held inner) (puts : Puts name (.table origin inner) entries later)
  | tables {items : List Entries}
      (before : ∀ value, find? name entries = some value → ∃ items, value = .tables items)
      (puts : Puts name (.tables items) entries later)

section steps
variable {entries later : Entries} {name parent : String} {parents : List String} {value : Value}
  {values : List (Path × Value)}

/-- A key without dots puts its value where nothing was. -/
theorem addAt_nil {own : Bool} (added : addAt own name value [] entries = some later) :
    find? name entries = none ∧ later = entries ++ [(name, value)] := by
  rw [addAt] at added
  split at added
  · rename_i free
    rw [Bool.and_eq_true, Option.isNone_iff_eq_none] at free
    exact ⟨free.2, (Option.some.inj added).symm⟩
  · contradiction

/-- A dotted key goes on into the table of its first name. -/
theorem addAt_cons (distinct : Distinct entries) {own : Bool}
    (added : addAt own name value (parent :: parents) entries = some later) :
    Goes (fun held inner => ∃ own, addAt own name value parents held = some inner) parent entries
      later := by
  rw [addAt] at added
  split at added
  · rename_i absent
    obtain ⟨inner, made, same⟩ := Option.bind_eq_some_iff.mp added
    cases same
    exact .table (by rw [absent, held?]) ⟨_, made⟩ (puts_append distinct absent _)
  · rename_i held present
    obtain ⟨inner, made, same⟩ := Option.bind_eq_some_iff.mp added
    cases same
    exact .table (by rw [present, held?]) ⟨_, made⟩ (puts_replace distinct present _)
  · rename_i held present
    obtain ⟨inner, made, same⟩ := Option.bind_eq_some_iff.mp added
    cases same
    exact .table (by rw [present, held?]) ⟨_, made⟩ (puts_replace distinct present _)
  · rename_i items present
    obtain ⟨changed, -, same⟩ := Option.bind_eq_some_iff.mp added
    cases same
    refine .tables (fun value found => ⟨items, ?_⟩) (puts_replace distinct present _)
    exact Option.some.inj (found.symm.trans present)
  · contradiction

/-- A header goes on into the table of its first name. -/
theorem within_cons (distinct : Distinct entries) {f : Entries → Option Entries}
    (changed : within f (parent :: parents) entries = some later) :
    Goes (fun held inner => within f parents held = some inner) parent entries later := by
  rw [within] at changed
  split at changed
  · rename_i absent
    obtain ⟨inner, made, same⟩ := Option.bind_eq_some_iff.mp changed
    cases same
    exact .table (by rw [absent, held?]) made (puts_append distinct absent _)
  · contradiction
  · rename_i origin held _ present
    obtain ⟨inner, made, same⟩ := Option.bind_eq_some_iff.mp changed
    cases same
    exact .table (by rw [present, held?]) made (puts_replace distinct present _)
  · rename_i items present
    obtain ⟨elements, -, same⟩ := Option.bind_eq_some_iff.mp changed
    cases same
    refine .tables (fun value found => ⟨items, ?_⟩) (puts_replace distinct present _)
    exact Option.some.inj (found.symm.trans present)
  · contradiction

/-- The header of a table adds what stands below it to what the table held. -/
theorem openTable_goes (distinct : Distinct entries)
    (opened : openTable name values entries = some later) :
    Goes (fun held inner => addAll held values = some inner) name entries later := by
  rw [openTable] at opened
  split at opened
  · rename_i absent
    obtain ⟨inner, made, same⟩ := Option.bind_eq_some_iff.mp opened
    cases same
    exact .table (by rw [absent, held?]) made (puts_append distinct absent _)
  · rename_i held present
    obtain ⟨inner, made, same⟩ := Option.bind_eq_some_iff.mp opened
    cases same
    exact .table (by rw [present, held?]) made (puts_erase distinct _)
  · contradiction

/-- The header of an element leaves an array of tables. -/
theorem openElement_goes (distinct : Distinct entries)
    (opened : openElement name values entries = some later) :
    Goes (fun _ _ => False) name entries later := by
  rw [openElement] at opened
  split at opened
  · rename_i absent
    obtain ⟨table, -, same⟩ := Option.bind_eq_some_iff.mp opened
    cases same
    exact .tables (fun value found => nomatch absent.symm.trans found) (puts_append distinct absent _)
  · rename_i items present
    obtain ⟨table, -, same⟩ := Option.bind_eq_some_iff.mp opened
    cases same
    refine .tables (fun value found => ⟨items, ?_⟩) (puts_replace distinct present _)
    exact Option.some.inj (found.symm.trans present)
  · contradiction

end steps

end HaskellHighlight.Toml.Entries
