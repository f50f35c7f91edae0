import HaskellHighlight.File.Basic

/-! Trees of directories and files, and what paths mean in them. All paths start at the root of the
tree, which is the working directory too; nothing above it is known. Names of parent directories
are followed where they stand, so that what comes before them has to exist. -/
namespace HaskellHighlight

abbrev Location := List (List Char)

/-- What may stand at a place. -/
inductive Entry where
  | directory
  | file (content : ByteArray)

/-- Directories and files by place. Of several entries for one place the first counts, and the
root is always a directory. -/
structure FileTree where
  entries : List (Location × Entry)

namespace FileTree

def empty : FileTree := ⟨[]⟩

def entryAt? (tree : FileTree) (place : Location) : Option Entry :=
  if place = [] then some .directory else tree.entries.lookup place

def put (tree : FileTree) (place : Location) (entry : Entry) : FileTree :=
  ⟨(place, entry) :: tree.entries⟩

/-- Goes on from a place by one name. The place has to be a directory; what the name leads to may
be missing. -/
def enter (tree : FileTree) (place : Location) (name : List Char) : Except FileError Location :=
  match tree.entryAt? place with
  | none => .error .notFound
  | some (.file _) => .error .notADirectory
  | some .directory =>
    if name = ['.', '.'] then
      if place = [] then .error .notFound else .ok place.dropLast
    else .ok (place ++ [name])

def resolve (tree : FileTree) (names : List (List Char)) : Except FileError Location :=
  names.foldlM tree.enter []

def lastPart (path : String) : List Char := ((File.splitOn '/' path.toList).getLast?).getD []

/-- The names of a path below the root. The empty path leads to nothing. -/
def names (path : String) : Except FileError (List (List Char)) :=
  if path.toList = [] then .error .notFound else .ok (File.components path)

/-- The content of the file that a path names. A path that ends in a slash or a single dot names a
directory. -/
def read (tree : FileTree) (path : String) : Except FileError ByteArray := do
  let place ← tree.resolve (← names path)
  match tree.entryAt? place with
  | none => .error .notFound
  | some .directory => .error .isADirectory
  | some (.file content) =>
    if lastPart path = [] || lastPart path = ['.'] then .error .notADirectory else .ok content

def write (tree : FileTree) (path : String) (content : ByteArray) : Except FileError FileTree := do
  let place ← tree.resolve (← names path)
  if lastPart path = [] then .error .isADirectory
  match tree.entryAt? place with
  | some .directory => .error .isADirectory
  | some (.file _) =>
    if lastPart path = ['.'] then .error .notADirectory else .ok (tree.put place (.file content))
  | none =>
    if lastPart path = ['.'] then .error .notFound else .ok (tree.put place (.file content))

def remove (tree : FileTree) (path : String) : FileTree :=
  match (do tree.resolve (← names path) : Except FileError Location) with
  | .error _ => tree
  | .ok place => match tree.entryAt? place with
    | some (.file _) => ⟨tree.entries.filter (·.1 ≠ place)⟩
    | _ => tree

def isDirectory (tree : FileTree) (names : List (List Char)) : Bool :=
  match tree.resolve names with
  | .ok place => match tree.entryAt? place with
    | some .directory => true
    | _ => false
  | .error _ => false

def makeDirectory (tree : FileTree) (names : List (List Char)) : Except FileError FileTree := do
  let place ← tree.resolve names
  match tree.entryAt? place with
  | some _ => .error .alreadyExists
  | none => .ok (tree.put place .directory)

/-- Makes a directory and those above it that are missing, given by its names from the last to the
first. What was made before a failure stays. -/
def makeDirectories (tree : FileTree) : List (List Char) → FileTree × Except FileError Unit
  | [] => (tree, .ok ())
  | name :: above =>
    let names := (name :: above).reverse
    match tree.makeDirectory names with
    | .ok tree => (tree, .ok ())
    | .error .notFound =>
      match tree.makeDirectories above with
      | (tree, .error error) => (tree, .error error)
      | (tree, .ok _) => match tree.makeDirectory names with
        | .ok tree => (tree, .ok ())
        | .error error => (tree, if tree.isDirectory names then .ok () else .error error)
    | .error error => (tree, if tree.isDirectory names then .ok () else .error error)

def save (tree : FileTree) (path : String) (content : ByteArray) :
    FileTree × Except FileError Unit :=
  match names path with
  | .error error => (tree, .error error)
  | .ok names =>
    match tree.makeDirectories names.dropLast.reverse with
    | (tree, .error error) => (tree, .error error)
    | (tree, .ok _) => match tree.write path content with
      | .error error => (tree, .error error)
      | .ok tree => (tree, .ok ())

/-- What is put at a place is found there, and what stands elsewhere stays. -/
theorem entryAt_put (tree : FileTree) (place other : Location) (entry : Entry) :
    (tree.put place entry).entryAt? other =
      if other = [] then some .directory
      else if other = place then some entry else tree.entryAt? other := by
  unfold entryAt? put
  by_cases root : other = []
  · simp [root]
  · by_cases same : other = place
    · simp [same, List.lookup_cons_self]
    · have different : (other == place) = false := by simpa using same
      simp [root, same, List.lookup_cons, different]

end FileTree

end HaskellHighlight
