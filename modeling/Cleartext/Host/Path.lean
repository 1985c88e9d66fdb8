/-!
# Paths

Paths of files as texts: components are divided by slashes, and a path that
starts with a slash is absolute.
-/

namespace Cleartext.Host

/-- Takes components one by one: `.` and empty ones are nothing, and `..`
takes the last one back.  The components taken are listed last first; what
`..` cannot take back stays unless the path is absolute. -/
def simplify (isAbsolute : Bool) : List String → List String → List String
  | taken, [] => taken.reverse
  | taken, c :: rest =>
    if c = "" || c = "." then simplify isAbsolute taken rest
    else if c ≠ ".." then simplify isAbsolute (c :: taken) rest
    else match taken with
      | [] => simplify isAbsolute (if isAbsolute then [] else [c]) rest
      | last :: before =>
        if last = ".." then simplify isAbsolute (c :: taken) rest else simplify isAbsolute before rest

/-- Whether a path starts at the root. -/
def isAbsolute (path : String) : Bool := path.startsWith "/"

/-- The shortest path with the same meaning. -/
def cleanPath (path : String) : String :=
  let components := "/".intercalate (simplify (isAbsolute path) [] (path.splitOn "/"))
  if isAbsolute path then "/" ++ components
  else if components = "" then "."
  else components

/-- The path of something in a directory. -/
def joinPath (directory name : String) : String := cleanPath (directory ++ "/" ++ name)

/-- The absolute path for a path given in a directory. -/
def absolutePath (directory path : String) : String :=
  if isAbsolute path then cleanPath path else joinPath directory path

/-- The last component of a path. -/
def baseName (path : String) : String :=
  match (path.splitOn "/").filter (· ≠ "") with
  | [] => if path = "" then "." else "/"
  | c :: rest => (c :: rest).getLastD ""

/-- The directory that a path is in. -/
def parentPath (path : String) : String :=
  match (path.splitOn "/").reverse with
  | [] | [_] => "."
  | _ :: before => cleanPath ("/".intercalate before.reverse ++ "/")

/-- The last component of a path from its last point on, or nothing. -/
def extension (path : String) : String :=
  let last := (path.splitOn "/").getLastD ""
  match (last.splitOn ".").reverse with
  | [] | [_] => ""
  | ending :: _ => "." ++ ending

/-- A path without the extension. -/
def withoutExtension (path : String) : String :=
  String.ofList (path.toList.take (path.length - (extension path).length))

/-- The path of every directory that a path goes through, the outermost
first, and at last the path itself. -/
def passages (path : String) : List String :=
  let components := path.splitOn "/"
  ((List.range components.length).map fun n => "/".intercalate (components.take (n + 1))).filter (· ≠ "")

end Cleartext.Host
