import HaskellHighlight.Toml.Table

/-! Documents whose keys and headers have no dots. Every table has the entries that stand below its
header, in their order, and the tables stand in the order of the headers. -/
namespace HaskellHighlight.Toml

namespace Entries

theorem find?_eq_none_iff {name : String} {entries : Entries} :
    find? name entries = none ↔ name ∉ entries.map Prod.fst := by
  induction entries with
  | nil => simp [find?]
  | cons entry rest ih =>
    obtain ⟨other, value⟩ := entry
    rw [find?, List.map_cons, List.mem_cons, not_or, ← ih]
    split <;> simp_all

private theorem not_mem_of_nodup {entries later : Entries} {name : String} {value : Value}
    (nodup : ((entries ++ (name, value) :: later).map Prod.fst).Nodup) :
    name ∉ entries.map Prod.fst := by
  rw [List.map_append, List.map_cons] at nodup
  intro mem
  exact (List.nodup_append.mp nodup).2.2 name mem name List.mem_cons_self rfl

theorem addAll_undotted (entries values : Entries)
    (nodup : ((entries ++ values).map Prod.fst).Nodup) :
    addAll entries (values.map fun entry => (⟨[], entry.1⟩, entry.2)) =
      some (entries ++ values) := by
  induction values generalizing entries with
  | nil =>
    rw [List.append_nil]
    rfl
  | cons value values ih =>
    obtain ⟨name, value⟩ := value
    have added : add entries ⟨[], name⟩ value = some (entries ++ [(name, value)]) := by
      simp [add, addAt, find?_eq_none_iff.mpr (not_mem_of_nodup nodup)]
    have later := ih (entries ++ [(name, value)]) (by simpa using nodup)
    rw [List.append_assoc, List.singleton_append] at later
    simpa [addAll, added] using later

def headed (table : String × Entries) : String × Value := (table.1, .table .header table.2)

/-- Tables under names of their own are added at the end. -/
theorem addSection_undotted (entries : Entries) (tables : List (String × Entries))
    (nodup : ((entries ++ tables.map headed).map Prod.fst).Nodup)
    (inside : ∀ table ∈ tables, (table.2.map Prod.fst).Nodup) :
    (tables.map fun table => Section.mk false ⟨[], table.1⟩
        (table.2.map fun entry => (⟨[], entry.1⟩, entry.2))).foldlM addSection entries =
      some (entries ++ tables.map headed) := by
  induction tables generalizing entries with
  | nil =>
    simp only [List.map_nil, List.append_nil]
    rfl
  | cons table tables ih =>
    obtain ⟨name, values⟩ := table
    have filled := addAll_undotted [] values (inside _ List.mem_cons_self)
    have opened : openTable name (values.map fun entry => (⟨[], entry.1⟩, entry.2)) entries =
        some (entries ++ [headed (name, values)]) := by
      rw [openTable, find?_eq_none_iff.mpr (not_mem_of_nodup nodup)]
      simp [filled, headed]
    have later := ih (entries ++ [headed (name, values)]) (by simpa using nodup)
      fun table mem => inside table (List.mem_cons_of_mem _ mem)
    rw [List.append_assoc, List.singleton_append] at later
    simpa [addSection, within, opened] using later

end Entries

def tableStatements (table : String × Entries) : List Statement :=
  .table ⟨[], table.1⟩ :: table.2.map fun entry => .entry ⟨[], entry.1⟩ entry.2

private theorem sections_entries (entries : Entries) (rest : List Statement) :
    sections (entries.map (fun entry => .entry ⟨[], entry.1⟩ entry.2) ++ rest) =
      (entries.map (fun entry => (⟨[], entry.1⟩, entry.2)) ++ (sections rest).1,
        (sections rest).2) := by
  induction entries with
  | nil => rfl
  | cons entry entries ih => simp [sections, ih]

private theorem sections_tables (tables : List (String × Entries)) :
    sections (tables.flatMap tableStatements) =
      ([], tables.map fun table => Section.mk false ⟨[], table.1⟩
        (table.2.map fun entry => (⟨[], entry.1⟩, entry.2))) := by
  induction tables with
  | nil => rfl
  | cons table tables ih =>
    rw [List.flatMap_cons, tableStatements, List.cons_append, sections, sections_entries, ih]
    simp

/-- The tables of a document whose keys and headers are undotted and given once. -/
theorem ofStatements_tables (tables : List (String × Entries))
    (nodup : (tables.map Prod.fst).Nodup)
    (inside : ∀ table ∈ tables, (table.2.map Prod.fst).Nodup) :
    Entries.ofStatements (tables.flatMap tableStatements) = some (tables.map Entries.headed) := by
  have distinct : (([] ++ tables.map Entries.headed).map Prod.fst).Nodup := by
    simpa [Entries.headed, Function.comp_def] using nodup
  rw [Entries.ofStatements, sections_tables]
  exact Entries.addSection_undotted [] tables distinct inside

end HaskellHighlight.Toml
