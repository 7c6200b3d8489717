/-
Where the program reads and writes files.

The program needs three operations of a disk.  A `FileTree` is a disk in memory: it
holds the files below one folder and knows nothing of what lies outside.  As on other
disks, names and paths cannot be arbitrarily long.
-/
import Screenwright.Entries
import Screenwright.Text.Split

namespace Screenwright

/-- The operations of a disk. -/
structure Disk (m : Type → Type) where
  /-- The content of a file, if it can be read. -/
  read : String → m (Option String)
  /-- Makes a folder and those it lies in, and says whether they are there. -/
  makeFolders : String → m Bool
  /-- Writes a file, and says whether it is there. -/
  write : String → String → m Bool

/-- Files by the names that lead to them. -/
structure FileTree where
  files : List (List String × String)
deriving DecidableEq, Repr

namespace FileTree

/-- The content of the file at a path. -/
def file? (tree : FileTree) (path : List String) : Option String :=
  tree.files.lookup path

/-- Whether a folder is at a path: the tree itself, or what a file lies in. -/
def isFolder (tree : FileTree) (path : List String) : Bool :=
  path.isEmpty || tree.files.any fun (p, _) => path.isPrefixOf p && path ≠ p

/-- How many bytes a name may take. -/
def maxNameBytes : Nat := 255

/-- How many bytes the text of a path may take. -/
def maxPathBytes : Nat := 4095

/-- Follows names from a path on; `enters` says what can be gone through.  Whatever leads
out of the tree is not followed, nor is a name that no file or folder can have. -/
def walk (enters : List String → Bool) (path : List String) : List String → Option (List String)
  | [] => some path
  | name :: names =>
    if !enters path then none
    else if name = "" || name = "." then walk enters path names
    else if name = ".." then
      if path.isEmpty then none else walk enters path.dropLast names
    else if maxNameBytes < name.utf8ByteSize then none
    else walk enters (path ++ [name]) names

/-- The place that a path text leads to. -/
def locate (enters : List String → Bool) (path : String) : Option (List String) :=
  if Text.startsWith "/" path || maxPathBytes < path.utf8ByteSize then none
  else walk enters [] (Text.segments '/' path)

/-- Following names never leads to a place with a name that is too long. -/
theorem walk_names_fit {enters : List String → Bool} {names path place : List String}
    (hpath : ∀ n ∈ path, n.utf8ByteSize ≤ maxNameBytes)
    (h : walk enters path names = some place) :
    ∀ n ∈ place, n.utf8ByteSize ≤ maxNameBytes := by
  induction names generalizing path with
  | nil =>
    obtain rfl : path = place := by simpa [walk] using h
    exact hpath
  | cons name names ih =>
    rw [walk] at h
    split at h
    · cases h
    split at h
    · exact ih hpath h
    split at h
    · split at h
      · cases h
      · exact ih (fun n hn => hpath n (List.dropLast_subset path hn)) h
    split at h
    · cases h
    · rename_i hfits
      refine ih (fun n hn => ?_) h
      rcases List.mem_append.mp hn with hn | hn
      · exact hpath n hn
      · obtain rfl := List.mem_singleton.mp hn
        omega

/-- The content of a file. -/
def read (tree : FileTree) (path : String) : Option String :=
  (locate tree.isFolder path).bind tree.file?

/-- The place of something that may not exist yet. -/
def locateNew (tree : FileTree) (path : String) : Option (List String) :=
  locate (fun p => (tree.file? p).isNone) path

/-- Whether a folder can be made. -/
def canHold (tree : FileTree) (path : String) : Bool :=
  (tree.locateNew path).any fun p => (tree.file? p).isNone

/-- The tree with a file at a place. -/
def put (tree : FileTree) (path : List String) (content : String) : FileTree :=
  ⟨tree.files.filter (·.1 ≠ path) ++ [(path, content)]⟩

/-- The tree with a file, unless a folder is in its place. -/
def write? (tree : FileTree) (path content : String) : Option FileTree :=
  match tree.locateNew path with
  | some p => if tree.isFolder p then none else some (tree.put p content)
  | none => none

/-- A tree as a disk.  A folder is there as soon as something lies in it. -/
def disk : Disk (StateM FileTree) where
  read path := do return (← get).read path
  makeFolders path := do return (← get).canHold path
  write path content := do
    match (← get).write? path content with
    | some tree =>
      set tree
      return true
    | none => return false

/-- The tree of some files named by paths. -/
def ofFiles (files : Entries String) : FileTree :=
  ⟨files.map fun (path, content) => (Text.segments '/' path, content)⟩

/-- The files that another tree does not hold in the same way, in the order of their
paths. -/
def since (tree earlier : FileTree) : List (String × String) :=
  let changed := tree.files.filter fun (path, content) => earlier.file? path ≠ some content
  (changed.map fun (path, content) => (Text.join "/" path, content)).mergeSort
    fun a b => a.1 ≤ b.1

end FileTree

end Screenwright
