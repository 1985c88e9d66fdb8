import Cleartext.Host.Files

/-!
# A model of a host

A disk with files and directories in memory, and what was printed.  A path is
followed component by component, as a system does it: all but the last must
lead to directories.
-/

namespace Cleartext.Host

/-- What is on a disk and on the streams. -/
structure Disk where
  /-- The directory that relative paths start from, as components. -/
  current : List String := []
  /-- Files by their components. -/
  files : List (List String × Bytes) := []
  /-- Directories by their components; the root is always there. -/
  directories : List (List String) := []
  /-- The milliseconds since 1970 began; the clock stands still. -/
  clock : Nat := 0
  /-- What was printed as the answer, the last text first. -/
  printed : List String := []
  /-- What was printed beside it, the last text first. -/
  reported : List String := []

namespace Disk

/-- What components lead to. -/
def kindAt (d : Disk) (place : List String) : Kind :=
  if place.isEmpty || place ∈ d.directories then .directory
  else if (d.files.lookup place).isSome then .file
  else .nothing

/-- Follows components from a place on.  Each component but the last must be a
directory, and so must the last one when a slash stands behind it. -/
def follow (d : Disk) : List String → List String → Except Trouble (List String)
  | place, [] => .ok place
  | place, c :: rest =>
    match d.kindAt place with
    | .nothing => .error .missing
    | .file => .error .notDirectory
    | .directory =>
      if c = "" || c = "." then d.follow place rest
      else if c = ".." then d.follow place.dropLast rest
      else d.follow (place ++ [c]) rest

/-- The place that a path leads to. -/
def place (d : Disk) (path : String) : Except Trouble (List String) :=
  if path = "" then .error .missing
  else d.follow (if isAbsolute path then [] else d.current) (path.splitOn "/")

/-- The content of a file. -/
def read (d : Disk) (path : String) : Except FileFlaw Bytes :=
  match d.place path with
  | .error trouble => .error ⟨"open", path, trouble⟩
  | .ok place =>
    match d.kindAt place with
    | .directory => .error ⟨"read", path, .isDirectory⟩
    | .nothing => .error ⟨"open", path, .missing⟩
    | .file => .ok ((d.files.lookup place).getD [])

/-- Puts a file at a place. -/
def putFile (d : Disk) (place : List String) (data : Bytes) : Disk :=
  { d with files := (place, data) :: d.files.filter fun f => f.1 ≠ place }

/-- Writes a file, which must be new if `isNew`. -/
def write (d : Disk) (path : String) (data : Bytes) (isNew : Bool) : Except FileFlaw Unit × Disk :=
  match d.place path with
  | .error trouble => (.error ⟨"open", path, trouble⟩, d)
  | .ok place =>
    match d.kindAt place with
    | .directory => (.error ⟨"open", path, if isNew then .exists_ else .isDirectory⟩, d)
    | .file =>
      if isNew then (.error ⟨"open", path, .exists_⟩, d) else (.ok (), d.putFile place data)
    | .nothing => (.ok (), d.putFile place data)

/-- Makes a directory. -/
def makeDirectory (d : Disk) (path : String) : Except FileFlaw Unit × Disk :=
  match d.place path with
  | .error trouble => (.error ⟨"mkdir", path, trouble⟩, d)
  | .ok place =>
    match d.kindAt place with
    | .nothing => (.ok (), { d with directories := place :: d.directories })
    | _ => (.error ⟨"mkdir", path, .exists_⟩, d)

/-- A disk with a file at an absolute path, and with the directories that it
is in. -/
def withFile (d : Disk) (path : String) (data : Bytes) : Disk :=
  let place := (path.splitOn "/").filter (· ≠ "")
  let ancestors := (List.range place.length).map fun n => place.take n
  { d.putFile place data with directories := d.directories ++ ancestors.filter (· ≠ []) }

/-- The names and the contents of the files in a directory. -/
def filesIn (d : Disk) (directory : String) : List (String × Bytes) :=
  let place := (directory.splitOn "/").filter (· ≠ "")
  d.files.filterMap fun (p, data) =>
    if p.dropLast = place then some (p.getLastD "", data) else none

end Disk

/-- A computation on a disk. -/
abbrev OnDisk := StateM Disk

instance : Host OnDisk where
  kind path := do
    let d ← get
    return match d.place path with
      | .ok place => d.kindAt place
      | .error _ => .nothing
  read path := do return (← get).read path
  write path data := modifyGet fun d => d.write path data false
  writeNew path data := modifyGet fun d => d.write path data true
  makeDirectory path := modifyGet fun d => d.makeDirectory path
  now := return (← get).clock
  print text := modify fun d => { d with printed := text :: d.printed }
  report text := modify fun d => { d with reported := text :: d.reported }

end Cleartext.Host
