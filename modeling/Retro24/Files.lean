/-
  File:      Retro24/Files.lean
  Subject:   Files: what a program needs of them, and a file tree held in memory.

  * `FileError`: why a file cannot be read or written.
  * `FileStore`: reading and writing whole files, in any monad.
  * `FileTree`: files and directories by the names on their way, the innermost name first;
    `FileTree.locate` follows a path, `FileTree.read` and `FileTree.write` act on what is there.
  * `FileTree.store`: the tree as a file store.
-/

namespace Retro24

/-! ## 1. Stores -/

/-- Why a file cannot be read or written. -/
inductive FileError where
  | notFound
  | isDirectory
  | notDirectory
  /-- The bytes are no text in UTF-8. -/
  | notText
  /-- What else the system reports. -/
  | other (text : String)
  deriving DecidableEq

/-- The text of a file error. -/
def FileError.message : FileError → String
  | notFound => "No such file or directory (os error 2)"
  | isDirectory => "Is a directory (os error 21)"
  | notDirectory => "Not a directory (os error 20)"
  | notText => "stream did not contain valid UTF-8"
  | other text => text

/-- Reading and writing of whole files. -/
structure FileStore (m : Type → Type) where
  read : String → m (Except FileError ByteArray)
  write : String → ByteArray → m (Except FileError Unit)

/-- The text in the bytes of a file. -/
def textOf (bytes : ByteArray) : Except FileError String :=
  match String.fromUTF8? bytes with
  | some text => .ok text
  | none => .error .notText

/-- The text of a file. -/
def FileStore.readText {m : Type → Type} [Monad m] (files : FileStore m) (path : String) :
    m (Except FileError String) := do
  return (← files.read path).bind textOf

/-! ## 2. Trees in memory -/

/-- What a path leads to. -/
inductive FileNode where
  | file (bytes : ByteArray)
  | directory

/-- Files and directories below the current directory, by their names: the innermost name first. -/
structure FileTree where
  nodes : List (List String × FileNode)

namespace FileTree

/-- An empty directory. -/
def empty : FileTree := ⟨[]⟩

/-- What stands under names. The current directory itself has none. -/
def node? (t : FileTree) (names : List String) : Option FileNode :=
  if names = [] then some .directory else t.nodes.lookup names

/-- The tree with a node put under names. -/
def put (t : FileTree) (names : List String) (node : FileNode) : FileTree :=
  ⟨(names, node) :: t.nodes⟩

/-- The directory that the parts of a path lead to from `here`. -/
def follow (t : FileTree) (here : List String) : List String → Except FileError (List String)
  | [] => .ok here
  | part :: parts =>
    if part = "" ∨ part = "." then t.follow here parts
    else if part = ".." then
      match here with
      | [] => .error .notFound
      | _ :: outer => t.follow outer parts
    else
      match t.node? (part :: here) with
      | none => .error .notFound
      | some (.file _) => .error .notDirectory
      | some .directory => t.follow (part :: here) parts

/-- The names that a path leads to. The last of them need not be there yet. -/
def locate (t : FileTree) (path : String) : Except FileError (List String) :=
  if path = "" ∨ path.startsWith "/" then .error .notFound
  else
    let parts := path.splitOn "/"
    let last := parts.getLast?.getD ""
    if last = "" ∨ last = "." ∨ last = ".." then t.follow [] parts
    else (t.follow [] parts.dropLast).map fun here => last :: here

/-- The bytes of a file. -/
def read (t : FileTree) (path : String) : Except FileError ByteArray :=
  match t.locate path with
  | .error e => .error e
  | .ok names =>
    match t.node? names with
    | none => .error .notFound
    | some .directory => .error .isDirectory
    | some (.file bytes) => .ok bytes

/-- Where a file is to be made or replaced. A path that ends in a slash can only lead to a
    directory. -/
def locateNew (t : FileTree) (path : String) : Except FileError (List String) :=
  if path.endsWith "/" then
    match t.locate (String.ofList (path.toList.reverse.dropWhile (· == '/')).reverse) with
    | .error e => .error e
    | .ok _ => .error .isDirectory
  else t.locate path

/-- The tree with a file made or replaced. -/
def write (t : FileTree) (path : String) (bytes : ByteArray) : Except FileError FileTree :=
  match t.locateNew path with
  | .error e => .error e
  | .ok names =>
    match t.node? names with
    | some .directory => .error .isDirectory
    | _ => .ok (t.put names (.file bytes))

/-- A tree as a file store. -/
def store : FileStore (StateM FileTree) where
  read path := fun t => (t.read path, t)
  write path bytes := fun t =>
    match t.write path bytes with
    | .ok t => (.ok (), t)
    | .error e => (.error e, t)

end FileTree

end Retro24
