/-!
# Files

A tree of files, held as the path of each file with its content; every path that leads to a file or
to the working directory leads through directories.  Paths are resolved part by part, as an
operating system does, and an operation fails with the reason that the system gives.
-/

namespace Chip8

/-- Why an operation on a file failed. -/
inductive FileError where
  /-- There is nothing under the path. -/
  | notFound
  /-- A part of the path is a file and has nothing below it. -/
  | notADirectory
  /-- The path leads to a directory. -/
  | isADirectory
  /-- The path or a part of it is too long. -/
  | nameTooLong
  deriving DecidableEq, Repr

namespace FileError

/-- The wording of a failure, with its number. -/
def message : FileError → String
  | notFound => "No such file or directory (os error 2)"
  | notADirectory => "Not a directory (os error 20)"
  | isADirectory => "Is a directory (os error 21)"
  | nameTooLong => "File name too long (os error 36)"

end FileError

/-- A tree of files. -/
structure Files where
  /-- The parts of the path of the working directory. -/
  home : List String
  /-- Each file with the parts of its path. -/
  entries : List (List String × ByteArray)

namespace Files

/-- The content of the file at a place. -/
def content? (t : Files) (place : List String) : Option ByteArray :=
  t.entries.lookup place

/-- Whether there is a directory at a place. -/
def isDirectory (t : Files) (place : List String) : Bool :=
  place.isPrefixOf t.home || t.entries.any fun e => e.1 ≠ place && place.isPrefixOf e.1

/-- The tree with a file at a place, in the stead of one that was there. -/
def put (t : Files) (place : List String) (content : ByteArray) : Files :=
  { t with entries := (place, content) :: t.entries.filter fun e => e.1 ≠ place }

/-- A place at which there is a directory. -/
def directory (t : Files) (place : List String) : Except FileError (List String) :=
  if (t.content? place).isSome then .error .notADirectory
  else if t.isDirectory place then .ok place
  else .error .notFound

/-- Go from a directory to a part of a path. -/
def enter (t : Files) (place : List String) (part : String) : Except FileError (List String) := do
  let place ← t.directory place
  if 255 < part.utf8ByteSize then .error .nameTooLong
  else if part = "." then .ok place
  else if part = ".." then .ok place.dropLast
  else .ok (place ++ [part])

/-- Where a path starts. -/
def origin (t : Files) (path : String) : List String :=
  if path.startsWith "/" then [] else t.home

/-- The parts of a path that are not empty. -/
def parts (path : String) : List String := (path.splitOn "/").filter (· ≠ "")

/-- Whether a path asks for a directory by ending in a slash. -/
def asksDirectory (path : String) : Bool := path.endsWith "/"

/-- The place to which parts of a path lead.  An empty path leads nowhere. -/
def resolve (t : Files) (path : String) (ps : List String) : Except FileError (List String) :=
  if path.isEmpty then .error .notFound
  else if 4096 ≤ path.utf8ByteSize then .error .nameTooLong
  else ps.foldlM t.enter (t.origin path)

/-- The content of the file under a path. -/
def read (t : Files) (path : String) : Except FileError ByteArray := do
  let place ← t.resolve path (parts path)
  match t.content? place with
  | some content => if asksDirectory path then .error .notADirectory else .ok content
  | none => if t.isDirectory place then .error .isADirectory else .error .notFound

/-- The place of the empty file that is put under a path, and the tree with it.  That the path asks
for a directory is noticed before its last part is looked at. -/
def create (t : Files) (path : String) : Except FileError (List String × Files) := do
  let parent ← t.resolve path (parts path).dropLast
  let parent ← t.directory parent
  if asksDirectory path then .error .isADirectory
  else
    let place ← (parts path).getLast?.elim (.ok parent) (t.enter parent)
    if t.isDirectory place then .error .isADirectory
    else .ok (place, t.put place .empty)

end Files

end Chip8
