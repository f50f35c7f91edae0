/-! Finite maps from names, kept in the order of their names. Names are ordered by code points,
which is also the order of their UTF-8 bytes. -/
namespace HaskellHighlight

/-- A finite map from names. Equal maps have equal entry lists. -/
structure NameMap (α : Type) where
  entries : List (String × α)
  ascending : entries.Pairwise (·.1 < ·.1)
  deriving DecidableEq

namespace NameMap
variable {α : Type}

def find? (name : String) : List (String × α) → Option α
  | [] => none
  | (other, value) :: rest => if name = other then some value else find? name rest

def place (name : String) (value : α) : List (String × α) → List (String × α)
  | [] => [(name, value)]
  | (other, old) :: rest =>
    if name < other then (name, value) :: (other, old) :: rest
    else if name = other then (name, value) :: rest
    else (other, old) :: place name value rest

private theorem mem_place {name : String} {value : α} {entries : List (String × α)}
    {entry : String × α} (h : entry ∈ place name value entries) :
    entry = (name, value) ∨ entry ∈ entries := by
  induction entries with
  | nil => simpa [place] using h
  | cons head rest ih =>
    obtain ⟨other, old⟩ := head
    rw [place] at h
    split at h
    · simpa using h
    · split at h
      · rcases List.mem_cons.1 h with h | h
        · exact Or.inl h
        · exact Or.inr (List.mem_cons_of_mem _ h)
      · rcases List.mem_cons.1 h with h | h
        · exact Or.inr (h ▸ List.mem_cons_self)
        · rcases ih h with h | h
          · exact Or.inl h
          · exact Or.inr (List.mem_cons_of_mem _ h)

private theorem place_ascending {name : String} {value : α} {entries : List (String × α)}
    (h : entries.Pairwise (·.1 < ·.1)) : (place name value entries).Pairwise (·.1 < ·.1) := by
  induction entries with
  | nil => simp [place]
  | cons head rest ih =>
    obtain ⟨other, old⟩ := head
    obtain ⟨above, rest_ascending⟩ := List.pairwise_cons.1 h
    rw [place]
    split
    · rename_i below
      refine List.pairwise_cons.2 ⟨fun entry mem => ?_, h⟩
      rcases List.mem_cons.1 mem with rfl | mem
      · exact below
      · exact String.lt_trans below (above entry mem)
    · split
      · rename_i _ same
        exact List.pairwise_cons.2 ⟨fun entry mem => same ▸ above entry mem, rest_ascending⟩
      · rename_i not_below different
        refine List.pairwise_cons.2 ⟨fun entry mem => ?_, ih rest_ascending⟩
        rcases mem_place mem with rfl | mem
        · have le : other ≤ name := String.not_lt.1 not_below
          apply Decidable.byContradiction
          intro not_above
          exact different (String.le_antisymm (String.not_lt.1 not_above) le)
        · exact above entry mem

def empty : NameMap α := ⟨[], List.Pairwise.nil⟩

instance : EmptyCollection (NameMap α) := ⟨empty⟩

def get? (map : NameMap α) (name : String) : Option α := find? name map.entries

def insert (map : NameMap α) (name : String) (value : α) : NameMap α :=
  ⟨place name value map.entries, place_ascending map.ascending⟩

/-- The map of a list of entries. Of two entries with one name the later one counts. -/
def ofList (entries : List (String × α)) : NameMap α :=
  entries.foldl (fun map entry => map.insert entry.1 entry.2) empty

def names (map : NameMap α) : List String := map.entries.map Prod.fst

@[simp] theorem get?_empty (name : String) : (empty : NameMap α).get? name = none := rfl

private theorem find?_place (name other : String) (value : α) (entries : List (String × α)) :
    find? other (place name value entries) =
      if other = name then some value else find? other entries := by
  induction entries with
  | nil => rfl
  | cons head rest ih =>
    obtain ⟨next, old⟩ := head
    rw [place]
    split
    · rfl
    · split
      · rename_i _ same
        subst same
        simp only [find?]
        split <;> rfl
      · rename_i _ different
        simp only [find?, ih]
        by_cases h : other = next
        · subst h
          simp [Ne.symm different]
        · simp [h]

/-- Insertion changes the value of exactly one name. -/
theorem get?_insert (map : NameMap α) (name other : String) (value : α) :
    (map.insert name value).get? other = if other = name then some value else map.get? other :=
  find?_place name other value map.entries

theorem names_ascending (map : NameMap α) : map.names.Pairwise (· < ·) :=
  List.pairwise_map.2 map.ascending

private theorem mem_map_fst_iff (name : String) (entries : List (String × α)) :
    name ∈ entries.map Prod.fst ↔ (find? name entries).isSome := by
  induction entries with
  | nil => simp [find?]
  | cons head rest ih =>
    obtain ⟨other, value⟩ := head
    rw [find?]
    by_cases h : name = other
    · simp [h]
    · simp [h, ← ih]

theorem mem_names_iff (map : NameMap α) (name : String) :
    name ∈ map.names ↔ (map.get? name).isSome := mem_map_fst_iff name map.entries

private theorem find?_eq_some_iff {name : String} {value : α} {entries : List (String × α)}
    (ascending : entries.Pairwise (·.1 < ·.1)) :
    find? name entries = some value ↔ (name, value) ∈ entries := by
  induction entries with
  | nil => simp [find?]
  | cons head rest ih =>
    obtain ⟨other, old⟩ := head
    obtain ⟨above, rest_ascending⟩ := List.pairwise_cons.1 ascending
    rw [find?, List.mem_cons]
    by_cases same : name = other
    · subst same
      have behind : (name, value) ∉ rest := fun mem => String.lt_irrefl name (above (name, value) mem)
      simp [behind, eq_comm]
    · simp [same, ih rest_ascending]

theorem get?_eq_some_iff {map : NameMap α} {name : String} {value : α} :
    map.get? name = some value ↔ (name, value) ∈ map.entries := find?_eq_some_iff map.ascending

theorem names_nodup (map : NameMap α) : map.names.Nodup := by
  refine List.Pairwise.imp ?_ map.names_ascending
  rintro name _ lt rfl
  exact String.lt_irrefl name lt

private theorem place_last {name : String} {value : α} {entries : List (String × α)}
    (behind : ∀ entry ∈ entries, entry.1 < name) :
    place name value entries = entries ++ [(name, value)] := by
  induction entries with
  | nil => rfl
  | cons entry rest ih =>
    obtain ⟨other, old⟩ := entry
    have lt : other < name := behind _ List.mem_cons_self
    have not_before : ¬ name < other := fun before =>
      String.lt_irrefl _ (String.lt_trans lt before)
    have different : name ≠ other := fun same => String.lt_irrefl _ (same ▸ lt)
    rw [place, if_neg not_before, if_neg different,
      ih fun entry mem => behind entry (List.mem_cons_of_mem _ mem)]
    rfl

private theorem foldl_insert (entries later : List (String × α))
    (ascending : entries.Pairwise (·.1 < ·.1)) (all : (entries ++ later).Pairwise (·.1 < ·.1)) :
    later.foldl (fun (map : NameMap α) entry => map.insert entry.1 entry.2) ⟨entries, ascending⟩ =
      ⟨entries ++ later, all⟩ := by
  induction later generalizing entries with
  | nil => simp
  | cons entry later ih =>
    have behind : ∀ other ∈ entries, other.1 < entry.1 := fun other mem =>
      (List.pairwise_append.mp all).2.2 other mem entry List.mem_cons_self
    have whole : (entries ++ [entry] ++ later).Pairwise (·.1 < ·.1) := by simpa using all
    have step : (⟨entries, ascending⟩ : NameMap α).insert entry.1 entry.2 =
        ⟨entries ++ [entry], (List.pairwise_append.mp whole).1⟩ := by
      simp [insert, place_last behind]
    rw [List.foldl_cons, step, ih _ _ whole]
    simp

theorem ofList_entries (map : NameMap α) : ofList map.entries = map :=
  foldl_insert [] map.entries List.Pairwise.nil map.ascending

end NameMap

end HaskellHighlight
