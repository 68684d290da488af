import ReplicaRing.Sorted.Map

/-!
A directory of text files, with the directories inside it that its files need. Paths are relative
to it; a path leads out of it no more than into directories that do not exist.
-/

namespace ReplicaRing

structure Directory where
  /-- The files by path, the names on a path parted by slashes. -/
  files : SortedMap String String

namespace Directory

def ofList (files : List (String × String)) : Directory := ⟨.ofList files⟩

def names (path : String) : List String := path.splitOn "/"

/-- Whether names lead to a directory: this one, or one with a file in it. -/
def isDirectory (d : Directory) (path : List String) : Bool :=
  path.isEmpty || d.files.keys.any fun file =>
    path.isPrefixOf (names file) && path.length < (names file).length

/-- Follows the names of a path. Every name but the last must lead to a directory. -/
def resolve (d : Directory) : List String → List String → Option (List String)
  | current, [] => some current
  | current, name :: rest =>
    if !d.isDirectory current then none
    else if name = "" ∨ name = "." then resolve d current rest
    else if name = ".." then
      if current.isEmpty then none else resolve d current.dropLast rest
    else resolve d (current ++ [name]) rest

/-- The file that a path means, whether it exists or not. -/
def locate (d : Directory) (path : String) : Option String :=
  if path.startsWith "/" then none
  else
    match d.resolve [] (names path) with
    | some place => if d.isDirectory place then none else some ("/".intercalate place)
    | none => none

def read (d : Directory) (path : String) : Option String := do d.files.get? (← d.locate path)

def write (d : Directory) (path text : String) : Option Directory := do
  return ⟨d.files.insert (← d.locate path) text⟩

end Directory

end ReplicaRing
