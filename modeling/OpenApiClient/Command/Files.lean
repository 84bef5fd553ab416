import OpenApiClient.Text.Pieces

/-!
What commands do with files, and a tree of files in memory on which it can be done.
-/

namespace OpenApiClient

structure FileError where
  reason : String
  deriving DecidableEq, Repr

-- The operations on files, in a monad that holds them.
structure FileOperations (m : Type → Type) where
  hasPath : String → m Bool
  readText : String → m (Except FileError String)
  writeText : String → String → m (Except FileError Unit)
  -- Makes a directory, with those that it lies in; one that is there is fine.
  makeDirectory : String → m (Except FileError Unit)

/-! ### Paths -/

namespace FilePath

def pieces (path : String) : List (List Char) := Text.splitWhere (· == '/') path.toList

def name? (path : String) : Option (List Char) :=
  match ((pieces path).filter fun p => p ≠ [] ∧ p ≠ ['.']).getLast? with
  | some name => if name = ['.', '.'] then none else some name
  | none => none

-- What follows the last point of the name; a point at its start does not count.
def extension? (path : String) : Option String := do
  let name ← name? path
  let (after, rest) := name.reverse.span (· ≠ '.')
  if rest.length ≤ 1 then none else some (String.ofList after.reverse)

def join (directory path : String) : String :=
  if directory = "" ∨ directory.endsWith "/" then directory ++ path else directory ++ "/" ++ path

-- The directory that a path of more than one part lies in.
def parent? (path : String) : Option String :=
  match (path.toList.reverse.dropWhile (· ≠ '/')).tail with
  | [] => none
  | directory => some (String.ofList directory.reverse)

end FilePath

/-! ### A tree in memory -/

inductive FileEntry where
  | file (text : String)
  | directory
  deriving DecidableEq, Repr

-- Files and directories by the way to them. A way starts with `..` or `/` if it leaves the
-- directory that the tree is for.
structure FileTree where
  entries : List (List String × FileEntry) := []
  deriving Repr

namespace FileTree

-- The directory itself and those it lies in are always there.
def entry? (t : FileTree) (way : List String) : Option FileEntry :=
  if way = ["/"] ∨ way.all (· == "..") then some .directory else t.entries.lookup way

def put (t : FileTree) (way : List String) (entry : FileEntry) : FileTree where
  entries := (way, entry) :: t.entries.filter (·.1 ≠ way)

def up (way : List String) : List String :=
  if way = ["/"] then way
  else if way.all (· == "..") then way ++ [".."]
  else way.dropLast

def notFound : FileError := ⟨"No such file or directory"⟩

def notADirectory : FileError := ⟨"Not a directory"⟩

def isADirectory : FileError := ⟨"Is a directory"⟩

-- Makes sure that there is a directory. With `makes`, one that is missing is made.
def enter (makes : Bool) (t : FileTree) (way : List String) : Except FileError FileTree :=
  match t.entry? way with
  | some .directory => .ok t
  | some (.file _) => .error notADirectory
  | none => if makes then .ok (t.put way .directory) else .error notFound

def follow (way : List String) (piece : List Char) : List String :=
  match String.ofList piece with
  | "" | "." => way
  | ".." => up way
  | name => way ++ [name]

-- Follows the pieces of a path through directories.
def walk (makes : Bool) (t : FileTree) (way : List String) :
    List (List Char) → Except FileError (FileTree × List String)
  | [] => .ok (t, way)
  | piece :: rest => do (← t.enter makes way).walk makes (follow way piece) rest

def locate (makes : Bool) (t : FileTree) (path : String) : Except FileError (FileTree × List String) :=
  match FilePath.pieces path with
  | [] :: rest => if rest = [] then .error notFound else t.walk makes ["/"] rest
  | pieces => t.walk makes [] pieces

def readText (t : FileTree) (path : String) : Except FileError String := do
  let (_, way) ← t.locate false path
  match t.entry? way with
  | some (.file text) => return text
  | some .directory => throw isADirectory
  | none => throw notFound

def writeText (t : FileTree) (path text : String) : Except FileError FileTree := do
  let (_, way) ← t.locate false path
  match t.entry? way with
  | some .directory => throw isADirectory
  | _ => return t.put way (.file text)

def makeDirectory (t : FileTree) (path : String) : Except FileError FileTree := do
  if path = "" then return t
  let (t, way) ← t.locate true path
  t.enter true way

def hasPath (t : FileTree) (path : String) : Bool :=
  match t.locate false path with
  | .ok (_, way) => (t.entry? way).isSome
  | .error _ => false

-- Keeps the changed tree, or the old one with an error.
def update (change : FileTree → Except FileError FileTree) : StateM FileTree (Except FileError Unit) :=
  fun t =>
    match change t with
    | .ok changed => (.ok (), changed)
    | .error e => (.error e, t)

def operations : FileOperations (StateM FileTree) where
  hasPath path := return (← get).hasPath path
  readText path := return (← get).readText path
  writeText path text := update (·.writeText path text)
  makeDirectory path := update (·.makeDirectory path)

-- The files inside the directory, with their paths.
def files (t : FileTree) : List (String × String) :=
  t.entries.filterMap fun (way, entry) =>
    match entry, way.head? with
    | .file _, some "/" | .file _, some ".." | .directory, _ => none
    | .file text, _ => some ("/".intercalate way, text)

end FileTree

end OpenApiClient
