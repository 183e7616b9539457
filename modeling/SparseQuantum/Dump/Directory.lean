/-!
Directories as texts, and whether a new file can be made in one. A path is walked name by name from
the root: an empty name or a single dot stays in place and two dots go up, from the root to itself.
No way leads through a device, and the trees of the kernel take no new files. A directory that does
not exist yet is no hindrance, since it is made first; symbolic links are not followed.
-/

namespace SparseQuantum.Directory

def longestName : Nat := 255

def longestPath : Nat := 4095

def isAbsolute (directory : String) : Bool := "/".isPrefixOf directory

/-- The path of a file: a slash comes between unless the directory ends in one or is empty. -/
def path (directory file : String) : String :=
  if directory.isEmpty || directory.endsWith "/" then directory ++ file
  else directory ++ "/" ++ file

def names (directory : String) : List String :=
  (directory.splitOn "/").filter fun name => name ≠ "" ∧ name ≠ "."

/-- One step from a place, which is told by the names that lead there, the last one first. -/
def step (place : List String) (name : String) : List String :=
  if name = ".." then place.tail else name :: place

def places (place : List String) : List String → List (List String)
  | [] => []
  | name :: rest => step place name :: places (step place name) rest

def devices : List String := ["null", "zero", "full", "random", "urandom", "tty"]

def isDevice (place : List String) : Bool :=
  match place with
  | [device, "dev"] => devices.contains device
  | _ => false

def kernelTrees : List String := ["proc", "sys"]

def isKernelPlace (place : List String) : Bool :=
  match place.getLast? with
  | some name => kernelTrees.contains name
  | none => false

/-- Whether the way from the root ends where files can be made. -/
def isOpen (names : List String) : Bool :=
  let way := places [] names
  !way.any isDevice && !isKernelPlace (way.getLastD [])

/-- Whether a file of that name can be made. A path that does not begin at the root is taken to
begin at a place that is open, and is not looked into further. -/
def canHold (directory file : String) : Bool :=
  (path directory file).utf8ByteSize ≤ longestPath && !directory.contains '\x00' &&
    (names directory).all (·.utf8ByteSize ≤ longestName) &&
    (!isAbsolute directory || isOpen (names directory))

end SparseQuantum.Directory
