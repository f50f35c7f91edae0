import HaskellHighlight.Proofs.DocumentTables
import HaskellHighlight.Toml.Reader

/-! What the lines of a document assign. A value stands under a name of a table if a line assigns it
to that full name, in parts between header and key or not, or if the table is written between braces
with the value under that name. The order of the lines does not matter. -/
namespace HaskellHighlight.Toml

def Path.names (path : Path) : List String := path.parents ++ [path.name]

theorem Path.names_eq_singleton {path : Path} {name : String} :
    path.names = [name] ↔ path = ⟨[], name⟩ := by
  obtain ⟨parents, last⟩ := path
  cases parents <;> simp [names]

abbrev Assignment := List String × Value

/-- The assignments of lines below a header. What stands in the elements of arrays of tables has no
full name. -/
def assignmentsBelow : Option (List String) → List Statement → List Assignment
  | _, [] => []
  | some header, .entry path value :: rest =>
    (header ++ path.names, value) :: assignmentsBelow (some header) rest
  | none, .entry _ _ :: rest => assignmentsBelow none rest
  | _, .table path :: rest => assignmentsBelow (some path.names) rest
  | _, .element _ :: rest => assignmentsBelow none rest

def assignments (statements : List Statement) : List Assignment :=
  assignmentsBelow (some []) statements

/-- An assignment gives a name of a table its value: to the full name, or between the braces of the
table. -/
def Gives (assignment : Assignment) (table name : String) (value : Value) : Prop :=
  assignment = ([table, name], value) ∨
    assignment.1 = [table] ∧ Entries.find? name assignment.2.inner = some value

def Assigned (statements : List Statement) (table name : String) (value : Value) : Prop :=
  ∃ assignment ∈ assignments statements, Gives assignment table name value

theorem Gives.names {assignment : Assignment} {table name : String} {value : Value}
    (gives : Gives assignment table name value) :
    assignment.1 = [table, name] ∨ assignment.1 = [table] :=
  gives.imp (congrArg Prod.fst) And.left

theorem Gives.length_le {assignment : Assignment} {table name : String} {value : Value}
    (gives : Gives assignment table name value) : assignment.1.length ≤ 2 := by
  rcases gives.names with names | names <;> simp [names]

namespace Entries

/-- From some entries to later ones, a table gets what some assignments give to it and no other values
that are no tables. -/
structure Extends (table : String) (said : List Assignment) (entries later : Entries) : Prop where
  only_table : OnlyTable table later → OnlyTable table entries
  values : OnlyTable table later → ∀ {name value}, value.IsLeaf →
    (valueAt? table name later = some value ↔ valueAt? table name entries = some value ∨
      ∃ assignment ∈ said, Gives assignment table name value)

theorem Extends.refl (table : String) (entries : Entries) : Extends table [] entries entries :=
  ⟨id, fun _ _ _ _ => by simp⟩

theorem Extends.trans {table : String} {said more : List Assignment}
    {entries mid later : Entries} (first : Extends table said entries mid)
    (second : Extends table more mid later) : Extends table (said ++ more) entries later := by
  refine ⟨fun only => first.only_table (second.only_table only), fun only name value leaf => ?_⟩
  rw [second.values only leaf, first.values (second.only_table only) leaf, or_assoc]
  simp only [List.mem_append, or_and_right, exists_or]

/-- A table of another name is left as it is. -/
theorem Puts.extends {table name : String} {put : Value} {said : List Assignment}
    {entries later : Entries} (puts : Puts name put entries later) (different : name ≠ table)
    (elsewhere : ∀ assignment ∈ said, assignment.1.head? = some name) :
    Extends table said entries later := by
  have same : find? table later = find? table entries :=
    (puts.found table).trans (if_neg (Ne.symm different))
  have nothing {name : String} {value : Value} :
      ¬∃ assignment ∈ said, Gives assignment table name value := by
    rintro ⟨assignment, mem, gives⟩
    have head := elsewhere assignment mem
    rcases gives.names with names | names <;> rw [names] at head <;>
      exact different (Option.some.inj head).symm
  refine ⟨fun only value found => only value (same.trans found), fun _ name value _ => ?_⟩
  rw [valueAt?, valueAt?, puts.tableAt, if_neg (Ne.symm different)]
  simp only [nothing, or_false]

/-- What goes on into a table gives it what the step makes of it. -/
theorem Goes.extends {step : Entries → Entries → Prop} {table name : String}
    {said : List Assignment} {entries later : Entries} (wellNamed : WellNamed entries)
    (goes : Goes step name entries later)
    (elsewhere : ∀ assignment ∈ said, assignment.1.head? = some name)
    (inside : ∀ held inner, Distinct held → step held inner → ∀ {last value}, value.IsLeaf →
      (find? last inner = some value ↔ find? last held = some value ∨
        ∃ assignment ∈ said, Gives assignment name last value)) :
    Extends table said entries later := by
  by_cases same : name = table
  · subst same
    cases goes with
    | @table origin held inner before made puts =>
      obtain ⟨at_held, only⟩ := held_spec before
      have distinct : Distinct held := at_held ▸ wellNamed.tables name
      refine ⟨fun _ => only, fun _ last value leaf => ?_⟩
      rw [valueAt?, valueAt?, puts.tableAt, if_pos rfl, at_held]
      exact inside held inner distinct made leaf
    | tables before puts =>
      have none_left (only : OnlyTable name later) : False := by
        obtain ⟨origin, inner, other⟩ := only _ ((puts.found name).trans (if_pos rfl))
        contradiction
      exact ⟨fun only => (none_left only).elim, fun only => (none_left only).elim⟩
  · obtain ⟨put, -, puts⟩ := goes.puts
    exact puts.extends same elsewhere

section steps
variable {table : String} {entries later : Entries}

theorem add_extends (wellNamed : WellNamed entries) {path : Path} {put : Value}
    (inside : Distinct put.inner) (added : add entries path put = some later) :
    WellNamed later ∧ Extends table [(path.names, put)] entries later := by
  obtain ⟨parents, name⟩ := path
  cases parents with
  | nil =>
    obtain ⟨absent, rfl⟩ := addAt_nil added
    have puts := puts_append wellNamed.own absent put
    refine ⟨puts.wellNamed wellNamed inside, ?_⟩
    by_cases same : name = table
    · subst same
      refine ⟨fun _ value found => (nomatch absent.symm.trans found), fun _ last value _ => ?_⟩
      rw [valueAt?, valueAt?, puts.tableAt, if_pos rfl, tableAt, absent]
      simp [Gives, Path.names, find?]
    · exact puts.extends same (by simp [Path.names])
  | cons parent parents =>
    have goes := addAt_cons wellNamed.own added
    refine ⟨goes.wellNamed wellNamed fun held inner distinct made => ?_,
      goes.extends wellNamed (by simp [Path.names]) fun held inner distinct made last value leaf => ?_⟩
    · obtain ⟨own, made⟩ := made
      exact addAt_distinct distinct made
    · obtain ⟨own, made⟩ := made
      rw [addAt_leaf distinct made leaf]
      cases parents with
      | nil => simp [Gives, Path.names, eq_comm]
      | cons next parents => simp [Gives, Path.names]

def sectionAssignments (part : Section) : List Assignment :=
  if part.isElement then []
  else part.values.map fun entry => (part.path.names ++ entry.1.names, entry.2)

theorem addSection_extends (wellNamed : WellNamed entries) {part : Section}
    (added : addSection entries part = some later) :
    WellNamed later ∧ Extends table (sectionAssignments part) entries later := by
  obtain ⟨isElement, ⟨parents, name⟩, values⟩ := part
  have elsewhere {first : String} (starts : (Path.mk parents name).names.head? = some first) :
      ∀ assignment ∈ sectionAssignments ⟨isElement, ⟨parents, name⟩, values⟩,
        assignment.1.head? = some first := by
    intro assignment mem
    rw [sectionAssignments] at mem
    split at mem
    · contradiction
    · obtain ⟨entry, -, rfl⟩ := List.mem_map.mp mem
      simp [starts]
  cases parents with
  | nil =>
    have goes := addSection_here wellNamed.own added
    refine ⟨goes.wellNamed wellNamed fun held inner distinct made => (addAll_spec distinct made.2).1,
      goes.extends wellNamed (elsewhere rfl) fun held inner distinct made last value leaf => ?_⟩
    obtain ⟨rfl, made⟩ := made
    rw [(addAll_spec distinct made).2 leaf]
    refine or_congr_right ⟨fun mem => ?_, ?_⟩
    · exact ⟨([name, last], value), List.mem_map.mpr ⟨_, mem, rfl⟩, .inl rfl⟩
    · rintro ⟨_, mem, gives⟩
      obtain ⟨⟨path, put⟩, listed, rfl⟩ := List.mem_map.mp mem
      rcases gives with full | ⟨short, -⟩
      · obtain ⟨names, rfl⟩ := Prod.mk.inj full
        obtain rfl := Path.names_eq_singleton.mp (List.cons.inj names).2
        exact listed
      · simp [Path.names] at short
  | cons parent parents =>
    have goes := addSection_below wellNamed.own added
    refine ⟨goes.wellNamed wellNamed fun held inner distinct made => ?_,
      goes.extends wellNamed (elsewhere rfl) fun held inner distinct made last value leaf => ?_⟩
    · obtain ⟨_, _, deeper⟩ := addSection_goes distinct made
      exact deeper.distinct
    · obtain ⟨_, _, deeper⟩ := addSection_goes distinct made
      have too_long : ¬∃ assignment ∈ sectionAssignments ⟨isElement, ⟨parent :: parents, name⟩, values⟩,
          Gives assignment parent last value := by
        rintro ⟨assignment, mem, gives⟩
        rw [sectionAssignments] at mem
        split at mem
        · contradiction
        · obtain ⟨entry, -, rfl⟩ := List.mem_map.mp mem
          have short : List.length _ ≤ 2 := gives.length_le
          simp only [Path.names, List.length_append, List.length_cons, List.length_nil] at short
          omega
      simp only [deeper.leaf leaf, too_long, or_false]

end steps

/-- What every step of a run gives, the run gives together. -/
theorem foldlM_extends {α : Type} (table : String) {step : Entries → α → Option Entries}
    (said : α → List Assignment) {items : List α}
    (each : ∀ item ∈ items, ∀ {entries later : Entries}, WellNamed entries →
      step entries item = some later → WellNamed later ∧ Extends table (said item) entries later)
    {entries later : Entries} (wellNamed : WellNamed entries)
    (run : items.foldlM step entries = some later) :
    WellNamed later ∧ Extends table (items.flatMap said) entries later := by
  induction items generalizing entries with
  | nil =>
    cases run
    exact ⟨wellNamed, .refl table _⟩
  | cons item items ih =>
    rw [List.foldlM_cons] at run
    obtain ⟨mid, first, rest⟩ := Option.bind_eq_some_iff.mp run
    obtain ⟨first_item, others⟩ := List.forall_mem_cons.mp each
    obtain ⟨between, extends_first⟩ := first_item wellNamed first
    obtain ⟨last, extends_rest⟩ := ih others between rest
    exact ⟨last, extends_first.trans extends_rest⟩

end Entries

/-- The assignments of a document are those of its first lines and those of its sections. -/
theorem assignmentsBelow_eq (header : Option (List String)) (statements : List Statement) :
    assignmentsBelow header statements =
      (header.elim [] fun names => (sections statements).1.map fun entry =>
        (names ++ entry.1.names, entry.2)) ++
      (sections statements).2.flatMap Entries.sectionAssignments := by
  induction statements generalizing header with
  | nil => cases header <;> rfl
  | cons statement rest ih =>
    cases statement with
    | entry path value => cases header <;> simp [assignmentsBelow, sections, ih]
    | table path => cases header <;> simp [assignmentsBelow, sections, ih, Entries.sectionAssignments]
    | element path => cases header <;> simp [assignmentsBelow, sections, ih, Entries.sectionAssignments]

def Statement.WellNamed : Statement → Prop
  | .entry _ value => Entries.Distinct value.inner
  | _ => True

theorem wellNamed_of_mem_sections {statements : List Statement}
    (wellNamed : ∀ statement ∈ statements, statement.WellNamed) {entry : Path × Value}
    (mem : entry ∈ (sections statements).1) : Entries.Distinct entry.2.inner := by
  induction statements with
  | nil => contradiction
  | cons statement rest ih =>
    obtain ⟨first, later⟩ := List.forall_mem_cons.mp wellNamed
    cases statement with
    | entry path value =>
      rcases List.mem_cons.mp mem with rfl | behind
      · exact first
      · exact ih later behind
    | table path => contradiction
    | element path => contradiction

/-- In a document no table has a name twice, and a table that is nothing else has the values that
the lines give to it. -/
theorem ofStatements_spec {statements : List Statement} {entries : Entries}
    (wellNamed : ∀ statement ∈ statements, statement.WellNamed)
    (made : Entries.ofStatements statements = some entries) :
    entries.WellNamed ∧ ∀ {table}, entries.OnlyTable table → ∀ {name value}, value.IsLeaf →
      (entries.valueAt? table name = some value ↔ Assigned statements table name value) := by
  obtain ⟨root, first, rest⟩ := Option.bind_eq_some_iff.mp made
  have start : Entries.WellNamed [] := ⟨.nil, fun _ => .nil⟩
  have spec (table : String) : entries.WellNamed ∧
      Entries.Extends table (assignments statements) [] entries := by
    obtain ⟨root_named, root_extends⟩ := Entries.foldlM_extends table
      (fun entry => [(entry.1.names, entry.2)])
      (fun entry mem _ _ named added =>
        Entries.add_extends named (wellNamed_of_mem_sections wellNamed mem) added) start first
    obtain ⟨named, sections_extend⟩ := Entries.foldlM_extends table Entries.sectionAssignments
      (fun part _ _ _ named added => Entries.addSection_extends named added) root_named rest
    have both := root_extends.trans sections_extend
    rw [← List.map_eq_flatMap] at both
    refine ⟨named, ?_⟩
    rw [assignments, assignmentsBelow_eq]
    exact both
  refine ⟨(spec "").1, fun {table} only name value leaf => ?_⟩
  rw [(spec table).2.values only leaf]
  simp [Assigned, Entries.valueAt?, Entries.tableAt, Entries.find?]

theorem number?_scalar {text rest : List Char} {value : Value}
    (read : number? text = some (value, rest)) : ∃ scalar, value = .scalar scalar := by
  rw [number?] at read
  split at read
  · cases read
    exact ⟨_, rfl⟩
  · split at read
    · cases read
      exact ⟨_, rfl⟩
    · obtain ⟨_, -, same⟩ := Option.map_eq_some_iff.mp read
      cases same
      exact ⟨_, rfl⟩

theorem scalar?_scalar {text rest : List Char} {value : Value}
    (read : scalar? text = some (value, rest)) : ∃ scalar, value = .scalar scalar := by
  rw [scalar?.eq_def] at read
  split at read
  · obtain ⟨_, -, same⟩ := Option.map_eq_some_iff.mp read
    cases same
    exact ⟨_, rfl⟩
  · obtain ⟨_, -, same⟩ := Option.map_eq_some_iff.mp read
    cases same
    exact ⟨_, rfl⟩
  · cases read
    exact ⟨_, rfl⟩
  · cases read
    exact ⟨_, rfl⟩
  · exact number?_scalar read

/-- A table between braces has distinct names. -/
theorem value?_distinct {nesting : Nat} {text rest : List Char} {value : Value}
    (read : value? nesting text = some (value, rest)) : Entries.Distinct value.inner := by
  rw [value?.eq_def] at read
  split at read
  · split at read
    · contradiction
    · obtain ⟨_, -, same⟩ := Option.map_eq_some_iff.mp read
      cases same
      exact .nil
  · split at read
    · contradiction
    · rw [inlineTable?] at read
      split at read <;>
      · obtain ⟨_, -, made⟩ := Option.bind_eq_some_iff.mp read
        obtain ⟨inner, added, same⟩ := Option.bind_eq_some_iff.mp made
        cases same
        exact (Entries.addAll_spec .nil added).1
  · obtain ⟨_, rfl⟩ := scalar?_scalar read
    exact .nil

theorem statement?_wellNamed {text rest : List Char} {statement : Statement}
    (read : statement? text = some (statement, rest)) : statement.WellNamed := by
  rw [statement?.eq_def] at read
  split at read
  · simp only [Option.bind_eq_bind, Option.bind_eq_some_iff] at read
    obtain ⟨_, _, _, _, _, _, _, _, same⟩ := read
    cases same
    trivial
  · simp only [Option.bind_eq_bind, Option.bind_eq_some_iff] at read
    obtain ⟨_, _, _, _, _, _, same⟩ := read
    cases same
    trivial
  · simp only [keyValue?, Option.bind_eq_bind, Option.bind_eq_some_iff] at read
    obtain ⟨entry, ⟨_, _, _, _, _, value, made⟩, _, _, same⟩ := read
    cases made
    cases same
    exact value?_distinct value

theorem statements?_wellNamed {rounds : Nat} {text : List Char} {statements : List Statement}
    (read : statements? rounds text = some statements) :
    ∀ statement ∈ statements, statement.WellNamed := by
  induction rounds generalizing text statements with
  | zero => contradiction
  | succ rounds ih =>
    rw [statements?] at read
    split at read
    · cases read
      exact nofun
    · split at read
      · exact ih read
      · simp only [Option.bind_eq_bind, Option.bind_eq_some_iff] at read
        obtain ⟨⟨statement, behind⟩, first, others, later, same⟩ := read
        cases same
        exact List.forall_mem_cons.mpr ⟨statement?_wellNamed first, ih later⟩

def statementsOf? (text : List Char) : Option (List Statement) :=
  let text := if text.head? = some '\uFEFF' then text.tail else text
  statements? (text.length + 1) text

theorem document?_eq (text : List Char) :
    document? text = (statementsOf? text).bind Entries.ofStatements := rfl

theorem statementsOf?_wellNamed {text : List Char} {statements : List Statement}
    (read : statementsOf? text = some statements) :
    ∀ statement ∈ statements, statement.WellNamed := statements?_wellNamed read

end HaskellHighlight.Toml
