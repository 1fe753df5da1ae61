import CommitCoordinator.Collection.Sequenced
import CommitCoordinator.Storage.FileName
import CommitCoordinator.Storage.FileSystem

/-!
# File trees

A file tree is a whole file system as a value: directories, files and symbolic links under their
absolute paths. Paths are resolved part by part, and a link in the middle of a path is followed.
-/

namespace CommitCoordinator.Storage

/-- The bytes of a file. -/
inductive Content where
  | bytes (content : List UInt8)
  /-- A file of zero bytes. -/
  | zeros (size : Nat)
deriving DecidableEq, Repr

/-- The number of bytes. -/
def Content.size : Content → Nat
  | .bytes content => content.length
  | .zeros size => size

/-- The bytes themselves. -/
def Content.toList : Content → List UInt8
  | .bytes content => content
  | .zeros size => List.replicate size 0

/-- What stands at a path. -/
inductive Node where
  | dir
  | file (content : Content)
  | link (target : String)
deriving DecidableEq, Repr

def Node.isDir (node : Node) : Bool :=
  node = .dir

/-- The size that a directory shows for an entry. -/
def Node.listedSize : Node → UInt64
  | .dir => 0
  | .file content => content.size.toUInt64
  | .link target => target.utf8ByteSize.toUInt64

/-- The parts of an absolute path. -/
abbrev Route := List String

/-- Nodes under their routes, and the directory where relative paths begin. The root of the
tree is a directory that has no node of its own. -/
structure FileTree where
  nodes : SequencedMap Route Node
  workingDir : Route
deriving DecidableEq

namespace FileTree

/-- A tree that holds the working directory alone. -/
def empty (workingDir : Route) : FileTree :=
  ⟨.ofList ((List.range workingDir.length).map fun i ↦ (workingDir.take (i + 1), .dir)),
    workingDir⟩

/-- What stands at the end of a route. -/
def node? (tree : FileTree) (route : Route) : Option Node :=
  if route = [] then some .dir else tree.nodes.find? route

/-- Puts a node at the end of a route in place of what stood there. -/
def insertNode (tree : FileTree) (route : Route) (node : Node) : FileTree :=
  { tree with nodes := tree.nodes.insert route node }

/-- Takes away what stands at the end of a route. -/
def eraseNode (tree : FileTree) (route : Route) : FileTree :=
  { tree with nodes := tree.nodes.erase route }

/-! ## Resolving paths -/

/-- Where a path leads. -/
inductive Place where
  | found (route : Route) (node : Node)
  /-- Nothing is there, but its directory is; the flag tells of a slash at the end. -/
  | vacant (route : Route) (slash : Bool)
deriving DecidableEq, Repr

/-- The number of links that one path may pass. -/
def maxLinks : Nat := 40

/-- The largest number of bytes in a part of a path. -/
def maxPartLength : Nat := 255

/-- The number of bytes that a path must stay below. -/
def maxPathLength : Nat := 4096

def pathParts (path : String) : List String :=
  (splitPath path.toList).map String.ofList

/-- Where the walk along a link target begins. -/
def linkStart (here : Route) (target : String) : Route :=
  if isAbsolute target then [] else here

/-- Walks from a directory along the parts of a path. -/
def walk (tree : FileTree) (followLast : Bool) (links : Nat) (here : Route)
    (parts : List String) : Except OsError Place :=
  match parts with
  | [] => .ok (.found here .dir)
  | part :: rest =>
    if part = "" ∨ part = "." then walk tree followLast links here rest
    else if part = ".." then walk tree followLast links here.dropLast rest
    else if maxPartLength < part.utf8ByteSize then .error .nameTooLong
    else
      let next := here ++ [part]
      match tree.node? next with
      | none =>
        if rest.all (· = "") then .ok (.vacant next (!rest.isEmpty)) else .error .notFound
      | some .dir => walk tree followLast links next rest
      | some (.file content) =>
        if rest.isEmpty then .ok (.found next (.file content)) else .error .notADirectory
      | some (.link target) =>
        if rest.isEmpty && !followLast then .ok (.found next (.link target))
        else
          match links with
          | 0 => .error .tooManyLinks
          | links + 1 =>
            if target.isEmpty then .error .notFound
            else walk tree followLast links (linkStart here target) (pathParts target ++ rest)
termination_by (links, parts.length)

/-- Finds the place of a path. -/
def resolve (tree : FileTree) (followLast : Bool) (path : String) : Except OsError Place :=
  if path.toList.contains '\x00' then .error .nulInPath
  else if path.isEmpty then .error .notFound
  else if maxPathLength ≤ path.utf8ByteSize then .error .nameTooLong
  else
    let start := if isAbsolute path then [] else tree.workingDir
    walk tree followLast maxLinks start (pathParts path)

/-! ## Operations -/

/-- The bytes of the file at a path. -/
def read (tree : FileTree) (path : String) : Except OsError (List UInt8) :=
  match tree.resolve true path with
  | .error e => .error e
  | .ok (.found _ (.file content)) => .ok content.toList
  | .ok (.found _ _) => .error .isADirectory
  | .ok (.vacant _ _) => .error .notFound

def write (tree : FileTree) (path : String) (content : Content) : Except OsError FileTree :=
  match tree.resolve true path with
  | .error e => .error e
  | .ok (.found route (.file _)) => .ok (tree.insertNode route (.file content))
  | .ok (.found _ _) => .error .isADirectory
  | .ok (.vacant _ true) => .error .isADirectory
  | .ok (.vacant route false) => .ok (tree.insertNode route (.file content))

/-- Whether a path leads to a file. -/
def isFileAt (tree : FileTree) (path : String) : Bool :=
  match tree.resolve true path with
  | .ok (.found _ (.file _)) => true
  | _ => false

/-- Whether a path leads to a directory. -/
def isDirAt (tree : FileTree) (path : String) : Bool :=
  match tree.resolve true path with
  | .ok (.found _ .dir) => true
  | _ => false

/-- Creates one directory. -/
def createDir (tree : FileTree) (path : String) : Except OsError FileTree :=
  match tree.resolve false path with
  | .error e => .error e
  | .ok (.found _ _) => .error .fileExists
  | .ok (.vacant route _) => .ok (tree.insertNode route .dir)

/-- Creates a directory and first, where its own directory is missing, those above it. What was
created stays if another one cannot be. The number bounds the directories above. -/
def createDirsWithin (tree : FileTree) (path : String) : Nat → FileTree × Except OsError Unit
  | 0 => (tree, .error .notFound)
  | fuel + 1 =>
    if path.isEmpty then (tree, .ok ())
    else
      match tree.createDir path with
      | .ok created => (created, .ok ())
      | .error .notFound =>
        match parent? path with
        | none => (tree, .error (.other "failed to create whole tree"))
        | some parent =>
          match tree.createDirsWithin parent fuel with
          | (above, .error e) => (above, .error e)
          | (above, .ok ()) =>
            match above.createDir path with
            | .ok created => (created, .ok ())
            | .error e => (above, if above.isDirAt path then .ok () else .error e)
      | .error e => (tree, if tree.isDirAt path then .ok () else .error e)

def createDirsTo (tree : FileTree) (path : String) : FileTree × Except OsError Unit :=
  tree.createDirsWithin path (path.length + 1)

/-- Moves what is at a path, links included, to another path. -/
def renameTo (tree : FileTree) (source target : String) : Except OsError FileTree :=
  match tree.resolve false source with
  | .error e => .error e
  | .ok (.vacant _ _) => .error .notFound
  | .ok (.found sourceRoute node) =>
    match tree.resolve false target with
    | .error e => .error e
    | .ok (.found _ .dir) => .error .isADirectory
    | .ok (.vacant _ true) => .error .notADirectory
    | .ok (.found route _) | .ok (.vacant route false) =>
      if route = sourceRoute then .ok tree
      else .ok ((tree.eraseNode sourceRoute).insertNode route node)

/-- The name of a node if it lies directly in a directory. -/
def childName? (dir route : Route) : Option String :=
  if route.length = dir.length + 1 ∧ route.take dir.length = dir then route.getLast? else none

def list (tree : FileTree) (path : String) : Except OsError (List Listed) :=
  match tree.resolve true path with
  | .error e => .error e
  | .ok (.vacant _ _) => .error .notFound
  | .ok (.found dir .dir) =>
    .ok (tree.nodes.entries.filterMap fun (route, node) ↦
      (childName? dir route).map fun name ↦ ⟨name, node.isDir, node.listedSize⟩)
  | .ok (.found _ _) => .error .notADirectory

/-! ## Arranging a tree -/

/-- Removes a node and everything below it. -/
def removeAll (tree : FileTree) (route : Route) : FileTree :=
  let kept := tree.nodes.entries.filter fun entry ↦ !route.isPrefixOf entry.1
  { tree with nodes := .ofList kept }

/-- The tree with a directory and those above it. -/
def createDirsAt (tree : FileTree) (path : String) : Except OsError FileTree := do
  (tree.createDirsTo path).2
  return (tree.createDirsTo path).1

/-- The routes below the working directory as text, directories with a slash at the end. -/
def paths (tree : FileTree) : List String :=
  tree.nodes.entries.filterMap fun (route, node) ↦
    let below := route.drop tree.workingDir.length
    if tree.workingDir.isPrefixOf route ∧ below ≠ [] then
      some (String.intercalate "/" below ++ if node.isDir then "/" else "")
    else none

end FileTree

end CommitCoordinator.Storage
