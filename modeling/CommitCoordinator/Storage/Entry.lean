/-!
# Directory entries

A listing shows the entries of one directory. Paths are text with slashes between their parts,
local paths and locations of an object store alike.
-/

namespace CommitCoordinator.Storage

/-- An entry of a directory. -/
structure Entry where
  path : String
  isDir : Bool
  /-- The size in bytes, zero for a directory. -/
  size : UInt64
deriving DecidableEq, Repr

def Entry.file (path : String) (size : UInt64) : Entry :=
  ⟨path, false, size⟩

def Entry.dir (path : String) : Entry :=
  ⟨path, true, 0⟩

def dropLeadingSlashes (cs : List Char) : List Char :=
  cs.dropWhile (· = '/')

def dropTrailingSlashes (cs : List Char) : List Char :=
  (cs.reverse.dropWhile (· = '/')).reverse

def trimTrailingSlashes (text : String) : String :=
  String.ofList (dropTrailingSlashes text.toList)

/-- The directory of a partition below a root, with one slash between the two. -/
def joinPath (root child : String) : String :=
  let root := dropTrailingSlashes root.toList
  let child := dropLeadingSlashes child.toList
  String.ofList (if child.isEmpty then root else root ++ '/' :: child)

end CommitCoordinator.Storage
