/-!
# File names inside paths

A path is text with slashes between its parts. Empty parts and parts that are a single point
name nothing, except a point at the very front.
-/

namespace CommitCoordinator.Storage

/-- The parts between slashes. -/
def splitPath : List Char → List (List Char)
  | [] => [[]]
  | c :: rest =>
    if c = '/' then [] :: splitPath rest
    else match splitPath rest with
      | part :: parts => (c :: part) :: parts
      | [] => [[c]]

def joinParts : List (List Char) → List Char
  | [] => []
  | [part] => part
  | part :: parts => part ++ '/' :: joinParts parts

theorem splitPath_ne_nil (cs : List Char) : splitPath cs ≠ [] := by
  cases cs with
  | nil => simp [splitPath]
  | cons c rest =>
    rw [splitPath]
    split
    · simp
    · split <;> simp

theorem joinParts_splitPath (cs : List Char) : joinParts (splitPath cs) = cs := by
  induction cs with
  | nil => rfl
  | cons c rest ih =>
    rw [splitPath]
    have h := splitPath_ne_nil rest
    split
    · next hc =>
      subst hc
      cases hs : splitPath rest with
      | nil => exact absurd hs h
      | cons part parts => rw [joinParts, ← hs, ih, List.nil_append]; simp
    · cases hs : splitPath rest with
      | nil => exact absurd hs h
      | cons part parts =>
        rw [hs] at ih
        cases parts with
        | nil => simpa [joinParts] using ih
        | cons next parts => simp only [joinParts, List.cons_append] at ih ⊢; rw [ih]

/-- A part that names nothing. -/
def isIdlePart (part : List Char) : Bool :=
  part = [] || part = ['.']

/-- Removes the parts at the end that name nothing. -/
def dropIdle (parts : List (List Char)) : List (List Char) :=
  (parts.reverse.dropWhile isIdlePart).reverse

/-- The first part of a path and the others up to the last that names something. -/
def partsOf (path : String) : List Char × List (List Char) :=
  match splitPath path.toList with
  | head :: tail => (head, dropIdle tail)
  | [] => ([], [])

/-- The parts of a path, after the first only those that name something. -/
def namedParts (path : String) : List (List Char) :=
  match splitPath path.toList with
  | head :: tail => head :: tail.filter fun part ↦ !isIdlePart part
  | [] => []

/-- A part that stands for another directory. -/
def isDots (part : List Char) : Bool :=
  part = ['.'] || part = ['.', '.']

/-- The name of the file that a path leads to. -/
def fileName? (path : String) : Option (List Char) :=
  let (head, tail) := partsOf path
  let last := (tail.getLast?).getD head
  if last = [] || isDots last then none else some last

/-- The path of the directory that holds what a path leads to. -/
def parent? (path : String) : Option String :=
  let (head, tail) := partsOf path
  if tail = [] then if head = [] then none else some ""
  else
    let rest := dropIdle tail.dropLast
    some (String.ofList (if rest = [] && head = [] then ['/'] else joinParts (head :: rest)))

/-- The part of a name before its last point; a point at the front does not count. -/
def splitExtension (name : List Char) : List Char × Option (List Char) :=
  let extension := (name.reverse.takeWhile (· ≠ '.')).reverse
  let stem := (name.reverse.dropWhile (· ≠ '.')).reverse.dropLast
  if stem = [] then (name, none) else (stem, some extension)

def extension? (path : String) : Option (List Char) :=
  (fileName? path).bind fun name ↦ (splitExtension name).2

/-- The path with another extension, or unchanged if it leads to no file. -/
def withExtension (path : String) (extension : String) : String :=
  match fileName? path with
  | none => path
  | some name =>
    let (head, tail) := partsOf path
    let stem := (splitExtension name).1
    let parts := if tail = [] then [stem] else head :: (tail.dropLast ++ [stem])
    String.ofList (joinParts parts ++ '.' :: extension.toList)

def isAbsolute (path : String) : Bool :=
  path.toList.head? = some '/'

/-- Whether two paths have the same parts, apart from those that name nothing. -/
def isSamePath (path other : String) : Bool :=
  isAbsolute path = isAbsolute other && namedParts path = namedParts other

/-- The path of a name seen from a directory; an absolute name stands for itself. -/
def childPath (dir name : String) : String :=
  if isAbsolute name || dir.isEmpty then name
  else if dir.toList.getLast? = some '/' then dir ++ name
  else dir ++ "/" ++ name

/-- Whether a path names a file in the format of configuration files. -/
def hasYamlExtension (path : String) : Bool :=
  match extension? path with
  | some extension => extension = "yaml".toList || extension = "yml".toList
  | none => false

end CommitCoordinator.Storage
