import TileFabric.NameMap

/-!
# Files

Commands read and write whole text files through a `FileSystem`, which is either the real one or
`Files.system`: a tree of files in memory, in which a directory is there when a file is below it.
Of what lies outside the working directory, the tree knows the root and what every root holds, and
that the working directory has directories above it.
-/

set_option autoImplicit false

namespace TileFabric

inductive FileError where
  | notFound
  | notADirectory
  | isADirectory
  | nameTooLong
  | other (reason : String)
  deriving DecidableEq, Repr

def FileError.message : FileError → String
  | notFound => "No such file or directory (os error 2)"
  | notADirectory => "Not a directory (os error 20)"
  | isADirectory => "Is a directory (os error 21)"
  | nameTooLong => "File name too long (os error 36)"
  | other reason => reason

/-- What commands need of a file system; paths are relative to a working directory. -/
structure FileSystem (m : Type → Type) where
  isFile : String → m Bool
  isDirectory : String → m Bool
  read : String → m (Except FileError String)
  write : String → String → m (Except FileError Unit)

/-- Where places are counted from: the root, or so many levels above the working directory. -/
inductive Origin where
  | root
  | above (levels : Nat)
  deriving DecidableEq, Repr, Inhabited

/-- The names on the way from an origin to a place, at which there need not be anything. -/
structure Place where
  origin : Origin
  names : List String
  deriving DecidableEq, Repr, Inhabited

namespace Place

def workingDirectory : Place := ⟨.above 0, []⟩

/-- The place one name further on. -/
def child (place : Place) (name : String) : Place := { place with names := place.names ++ [name] }

/-- The directory that holds a place; the root is held by itself. -/
def parent : Place → Place
  | ⟨.root, []⟩ => ⟨.root, []⟩
  | ⟨.above levels, []⟩ => ⟨.above (levels + 1), []⟩
  | ⟨origin, names⟩ => ⟨origin, names.dropLast⟩

/-- Whether a place lies below another one. -/
def isBelow (place directory : Place) : Bool :=
  place.origin = directory.origin && directory.names.isPrefixOf place.names &&
    directory.names.length < place.names.length

/-- The directories that every root holds. -/
def rootDirectories : List String :=
  ["bin", "boot", "dev", "etc", "home", "lib", "media", "mnt", "opt", "proc", "root", "run", "sbin",
    "srv", "sys", "tmp", "usr", "var"]

/-- Whether a place is a directory whatever files there are. -/
def isStanding : Place → Bool
  | ⟨_, []⟩ => true
  | ⟨.root, [name]⟩ => rootDirectories.contains name
  | _ => false

/-- The file that is empty and drops what is written to it. -/
def null : Place := ⟨.root, ["dev", "null"]⟩

end Place

namespace FilePath

/-- The most bytes that a path has. -/
def maxBytes : Nat := 4095

/-- The most bytes that a name in a directory has. -/
def maxNameBytes : Nat := 255

def names (path : String) : List String := (path.splitOn "/").filter (· ≠ "")

def origin (path : String) : Place :=
  if path.startsWith "/" then ⟨.root, []⟩ else .workingDirectory

/-- Whether a path ends in a slash, and so can only be of a directory. -/
def isClosed (path : String) : Bool := path.endsWith "/"

/-- A path that nothing can be at, because of its length alone. -/
def checkLength (path : String) : Except FileError Unit :=
  if path.isEmpty then .error .notFound
  else if maxBytes < path.utf8ByteSize then .error .nameTooLong
  else .ok ()

/-- Whether a name leads to the directory itself or to the one that holds it. -/
def isDots (name : String) : Bool := name == "." || name == ".."

end FilePath

/-- The texts of the files, under their places. -/
structure Files where
  texts : List (Place × String)
  deriving DecidableEq, Repr, Inhabited

namespace Files

/-- Files below the working directory. -/
def ofList (entries : List (String × String)) : Files :=
  ⟨entries.map fun (path, text) => (⟨.above 0, (FilePath.names path).filter (· ≠ ".")⟩, text)⟩

def text? (files : Files) (place : Place) : Option String :=
  if place = .null then some "" else files.texts.lookup place

/-- Whether a place is a directory, as it is when a file is below it. -/
def hasDirectory (files : Files) (place : Place) : Bool :=
  place.isStanding || files.texts.any fun (p, _) => p.isBelow place

def requireDirectory (files : Files) (place : Place) : Except FileError Unit :=
  if files.hasDirectory place then .ok ()
  else if (files.text? place).isSome then .error .notADirectory
  else .error .notFound

/-- Goes on from a directory along a name, which may be of nothing that is there. -/
def enter (files : Files) (place : Place) (name : String) : Except FileError Place := do
  files.requireDirectory place
  if name = "." then .ok place
  else if name = ".." then .ok place.parent
  else if FilePath.maxNameBytes < name.utf8ByteSize then .error .nameTooLong
  else .ok (place.child name)

/-- Where a path leads. A slash at its end stands for the directory in front of it. -/
def resolve (files : Files) (path : String) : Except FileError Place := do
  FilePath.checkLength path
  let closing := if FilePath.isClosed path then ["."] else []
  (FilePath.names path ++ closing).foldlM files.enter (FilePath.origin path)

def isDirectory (files : Files) (path : String) : Bool :=
  match files.resolve path with
  | .ok place => files.hasDirectory place
  | .error _ => false

def read (files : Files) (path : String) : Except FileError String := do
  let place ← files.resolve path
  if files.hasDirectory place then .error .isADirectory
  else match files.text? place with
    | some text => .ok text
    | none => .error .notFound

/-- The place of a file to write: all but its name has to be there, and it is no directory. -/
def target (files : Files) (path : String) : Except FileError Place := do
  FilePath.checkLength path
  let names := FilePath.names path
  let directory ← names.dropLast.foldlM files.enter (FilePath.origin path)
  files.requireDirectory directory
  match names.getLast? with
  | none => .error .isADirectory
  | some name =>
    if FilePath.isDots name || FilePath.isClosed path then .error .isADirectory
    else do
      let place ← files.enter directory name
      if files.hasDirectory place then .error .isADirectory else .ok place

/-- Writes a file anew. -/
def write (files : Files) (path text : String) : Except FileError Files := do
  let place ← files.target path
  if place = .null then .ok files
  else .ok ⟨(place, text) :: files.texts.filter fun (p, _) => p ≠ place⟩

def system : FileSystem (StateM Files) where
  isFile path := return ((← get).read path).isOk
  isDirectory path := return (← get).isDirectory path
  read path := return (← get).read path
  write path text := modifyGet fun files =>
    match files.write path text with
    | .ok written => (.ok (), written)
    | .error e => (.error e, files)

end Files

end TileFabric
