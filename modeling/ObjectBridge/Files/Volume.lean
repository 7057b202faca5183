import ObjectBridge.Files.FileSystem
import ObjectBridge.Files.Path

namespace ObjectBridge

abbrev Place := List String

inductive FileEntry where
  | directory
  | file (bytes : Array UInt8)
  deriving Inhabited

-- The root is a directory always and has no entry.
structure Volume where
  entries : List (Place × FileEntry)
  working : Place
  deriving Inhabited

namespace Volume

def empty (working : Place) : Volume := ⟨[], working⟩

def entry? (v : Volume) : Place → Option FileEntry
  | [] => some .directory
  | place => v.entries.lookup place

def put (v : Volume) (place : Place) (entry : FileEntry) : Volume :=
  { v with entries := (place, entry) :: v.entries.filter (·.1 ≠ place) }

-- In bytes.
def nameLimit : Nat := 255

-- One name further. Points lead nowhere and up, and nothing is above the root.
def enter (v : Volume) (place : Place) (name : String) : Except FileFault Place :=
  match v.entry? place with
  | some .directory =>
    if name = "" ∨ name = "." then .ok place
    else if name = ".." then .ok place.dropLast
    else if nameLimit < name.utf8ByteSize then .error .nameTooLong
    else if (v.entry? (place ++ [name])).isSome then .ok (place ++ [name])
    else .error .notFound
  | _ => .error .notDirectory

-- In bytes.
def pathLimit : Nat := 4095

-- The names of a path and the place where they begin.
def start (v : Volume) (path : String) : Except FileFault (Place × List String) :=
  if path.contains '\x00' then .error .nulInName
  else if path.isEmpty then .error .notFound
  else if pathLimit < path.utf8ByteSize then .error .nameTooLong
  else .ok (if Path.isAbsolute path then [] else v.working, path.splitOn "/")

def walk (v : Volume) (place : Place) (names : List String) : Except FileFault Place :=
  names.foldlM v.enter place

def read (v : Volume) (path : String) : Except FileFault (Array UInt8) := do
  let (place, names) ← v.start path
  match v.entry? (← v.walk place names) with
  | some (.file bytes) => return bytes
  | some .directory => throw .isDirectory
  | none => throw .notFound

-- The directory that a new file is for, and its name there. A path that ends like a directory's
-- names no file.
def target (v : Volume) (path : String) : Except FileFault (Place × String) := do
  let (place, names) ← v.start path
  let closed := path.endsWith "/"
  match names.reverse.dropWhile (·.isEmpty) with
  | [] => throw .isDirectory
  | name :: before =>
    let place ← v.walk place before.reverse
    match v.entry? place with
    | some .directory =>
      if closed || name = "." || name = ".." then throw .isDirectory
      if nameLimit < name.utf8ByteSize then throw .nameTooLong
      return (place, name)
    | _ => throw .notDirectory

def write (v : Volume) (path : String) (bytes : Array UInt8) : Except FileFault Volume := do
  let (place, name) ← v.target path
  match v.entry? (place ++ [name]) with
  | some .directory => throw .isDirectory
  | _ => return v.put (place ++ [name]) (.file bytes)

-- One name further, through a new directory if there is nothing.
def enterNew (state : Volume × Place) (name : String) : Except FileFault (Volume × Place) :=
  let (v, place) := state
  match v.enter place name with
  | .ok place => .ok (v, place)
  | .error .notFound => .ok (v.put (place ++ [name]) .directory, place ++ [name])
  | .error fault => .error fault

-- The empty path is the working directory.
def createDirectory (v : Volume) (path : String) : Except FileFault Volume := do
  if path.isEmpty then return v
  let (place, names) ← v.start path
  let (v, place) ← names.foldlM enterNew (v, place)
  match v.entry? place with
  | some .directory => return v
  | _ => throw .exists

-- A change that failed leaves the volume as it was.
private def change (f : Volume → Except FileFault Volume) : StateM Volume (Except FileFault Unit) :=
  fun v =>
    match f v with
    | .ok changed => (.ok (), changed)
    | .error fault => (.error fault, v)

def fileSystem : FileSystem (StateM Volume) where
  workingDirectory := fun v => ("/" ++ "/".intercalate v.working, v)
  read := fun path v => (v.read path, v)
  write := fun path bytes => change (·.write path bytes)
  createDirectory := fun path => change (·.createDirectory path)

end Volume

end ObjectBridge
