import HaskellHighlight.Toml.Binary64

/-! The values of a TOML document, and tables out of keys and headers. A name is given once; a dotted
key opens only tables that dotted keys made; a header opens a table once. -/
namespace HaskellHighlight.Toml

/-- Values without parts. A date, a time or both are kept as their text. -/
inductive Scalar where
  | string (text : String)
  | integer (value : Int)
  | float (value : Binary64)
  | boolean (value : Bool)
  | dateTime (text : String)
  deriving DecidableEq, Repr

/-- How a table came to be, which decides what may be added to it: written between braces, opened
by a header of its own, passed through by the header of a table below it, or made by a dotted
key. -/
inductive Origin where
  | braces | header | passed | dotted
  deriving DecidableEq, Repr

/-- A value. The entries of a table stand in the order in which they were added; `tables` is an
array whose elements have headers. -/
inductive Value where
  | scalar (value : Scalar)
  | array (items : List Value)
  | table (origin : Origin) (entries : List (String × Value))
  | tables (items : List (List (String × Value)))

abbrev Entries := List (String × Value)

/-- A dotted key: the tables it goes through and the name inside the last of them. -/
structure Path where
  parents : List String
  name : String
  deriving DecidableEq, Repr

/-- A line of a document that says something: a key with a value, the header of a table, or the
header of a new element of an array of tables. -/
inductive Statement where
  | entry (path : Path) (value : Value)
  | table (path : Path)
  | element (path : Path)

namespace Entries

def find? (name : String) : Entries → Option Value
  | [] => none
  | (other, value) :: rest => if name = other then some value else find? name rest

def replace (name : String) (value : Value) : Entries → Entries
  | [] => []
  | (other, old) :: rest =>
    if name = other then (other, value) :: rest else (other, old) :: replace name value rest

def erase (name : String) : Entries → Entries
  | [] => []
  | (other, old) :: rest => if name = other then rest else (other, old) :: erase name rest

def modifyLast (f : Entries → Option Entries) (items : List Entries) : Option (List Entries) := do
  let last ← items.getLast?
  let changed ← f last
  return items.dropLast ++ [changed]

/-- Adds a value under a dotted key that goes through `parents`. `ownKeys` says whether the table
at hand may get names of its own from this key. -/
def addAt (ownKeys : Bool) (name : String) (value : Value) :
    List String → Entries → Option Entries
  | [], entries =>
    if ownKeys && (find? name entries).isNone then some (entries ++ [(name, value)]) else none
  | parent :: parents, entries =>
    match find? parent entries with
    | none => do
      let inner ← addAt true name value parents []
      return entries ++ [(parent, .table .dotted inner)]
    | some (.table .dotted inner) => do
      let inner ← addAt true name value parents inner
      return replace parent (.table .dotted inner) entries
    | some (.table .passed inner) => do
      let inner ← addAt false name value parents inner
      return replace parent (.table .passed inner) entries
    | some (.tables items) => do
      let items ← modifyLast (addAt false name value parents) items
      return replace parent (.tables items) entries
    | some _ => none

def add (entries : Entries) (path : Path) (value : Value) : Option Entries :=
  addAt true path.name value path.parents entries

def addAll (entries : Entries) (values : List (Path × Value)) : Option Entries :=
  values.foldlM (fun entries entry => entries.add entry.1 entry.2) entries

/-- Changes the table that the names of a header lead to. Headers pass through every table that is
not written between braces, and through the last element of an array of tables. -/
def within (f : Entries → Option Entries) : List String → Entries → Option Entries
  | [], entries => f entries
  | parent :: parents, entries =>
    match find? parent entries with
    | none => do
      let inner ← within f parents []
      return entries ++ [(parent, .table .passed inner)]
    | some (.table .braces _) => none
    | some (.table origin inner) => do
      let inner ← within f parents inner
      return replace parent (.table origin inner) entries
    | some (.tables items) => do
      let items ← modifyLast (within f parents) items
      return replace parent (.tables items) entries
    | some _ => none

/-- Opens a table by its header and fills it. A table that was only passed through before keeps
what it has and moves to the end. -/
def openTable (name : String) (values : List (Path × Value)) (entries : Entries) :
    Option Entries :=
  match find? name entries with
  | none => do
    let table ← addAll [] values
    return entries ++ [(name, .table .header table)]
  | some (.table .passed inner) => do
    let table ← addAll inner values
    return erase name entries ++ [(name, .table .header table)]
  | some _ => none

def openElement (name : String) (values : List (Path × Value)) (entries : Entries) :
    Option Entries :=
  match find? name entries with
  | none => do
    let table ← addAll [] values
    return entries ++ [(name, .tables [table])]
  | some (.tables items) => do
    let table ← addAll [] values
    return replace name (.tables (items ++ [table])) entries
  | some _ => none

end Entries

/-- A header with the entries below it. -/
structure Section where
  isElement : Bool
  path : Path
  values : List (Path × Value)

def sections : List Statement → List (Path × Value) × List Section
  | [] => ([], [])
  | .entry path value :: rest =>
    let (values, later) := sections rest
    ((path, value) :: values, later)
  | .table path :: rest =>
    let (values, later) := sections rest
    ([], ⟨false, path, values⟩ :: later)
  | .element path :: rest =>
    let (values, later) := sections rest
    ([], ⟨true, path, values⟩ :: later)

def Entries.addSection (entries : Entries) (part : Section) : Option Entries :=
  let place := if part.isElement then openElement else openTable
  within (place part.path.name part.values) part.path.parents entries

/-- The table that a document describes; none when it gives a name twice or opens a table that
may not be opened. -/
def Entries.ofStatements (statements : List Statement) : Option Entries := do
  let (values, parts) := sections statements
  let root ← addAll [] values
  parts.foldlM addSection root

end HaskellHighlight.Toml
