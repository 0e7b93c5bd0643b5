import LayeredConfig.Text.Split

/-!
# Paths

Paths are texts whose segments stand between slashes. Cleaning a path drops what does not lead
anywhere and takes back a segment for each `..` that follows one; a path stays inside its filesystem
when nothing of the kind is left over.
-/

namespace LayeredConfig.Path

def segments (path : String) : List String := Text.split "/" path

def ofSegments (segments : List String) : String := "/".intercalate segments

/-- The number of slashes in front that are kept: two stay two, more are one. -/
def anchorLength (path : String) : Nat :=
  match (path.toList.takeWhile (· == '/')).length with
  | 0 => 0
  | 2 => 2
  | _ => 1

/-- Takes one more segment onto those that are kept, the last of which stands first. -/
def push (rooted : Bool) (kept : List String) (segment : String) : List String :=
  if segment.isEmpty || segment == "." then kept
  else if segment != ".." then segment :: kept
  else
    match kept with
    | [] => if rooted then [] else [".."]
    | last :: rest => if last == ".." then ".." :: kept else rest

/-- The segments that are left after cleaning. -/
def cleanSegments (rooted : Bool) (segments : List String) : List String :=
  (segments.foldl (push rooted) []).reverse

/-- The path without empty and `.` segments, and without `..` where a segment can be taken back. -/
def clean (path : String) : String :=
  let anchor := String.ofList (List.replicate (anchorLength path) '/')
  let cleaned := anchor ++ ofSegments (cleanSegments (anchorLength path != 0) (segments path))
  if cleaned.isEmpty then "." else cleaned

/-- The path without empty and `.` segments. -/
def tidy (path : String) : String :=
  let anchor := String.ofList (List.replicate (anchorLength path) '/')
  let tidied := anchor ++ ofSegments ((segments path).filter fun s => !s.isEmpty && s != ".")
  if tidied.isEmpty then "." else tidied

def isAbsolute (path : String) : Bool := path.startsWith "/"

/-- A path as seen from a directory; an absolute path does not depend on the directory. -/
def resolve (directory path : String) : String :=
  let root := tidy directory
  if isAbsolute path || root == "." then tidy path
  else if root.endsWith "/" then tidy (root ++ path)
  else tidy s!"{root}/{path}"

/-- The path from its anchor on. -/
def withoutAnchor (path : String) : String :=
  tidy (String.ofList (path.toList.dropWhile (· == '/')))

/-- Whether a path is relative and never leaves its filesystem. -/
def isValid (path : String) : Bool :=
  let cleaned := clean path
  !cleaned.startsWith "/" && !(segments cleaned).contains ".."

/-- Whether a path holds wildcards. -/
def hasMagic (path : String) : Bool := path.toList.any fun c => c == '*' || c == '?' || c == '['

/-- A name below a directory. -/
def join (directory name : String) : String :=
  if directory == "." then name else s!"{directory}/{name}"

/-- The last segment. -/
def basename (path : String) : String := (segments path).getLastD ""

/-- All but the last segment. -/
def parent (path : String) : String := ofSegments (segments path).dropLast

/-- The paths that lead to a path, shortest first. -/
def ancestors (path : String) : List String :=
  let segments := segments path
  ((List.range segments.length).map fun n => ofSegments (segments.take n)).filter (· != "")

/-- The name of a path that stands directly inside a directory. -/
def childName? (directory path : String) : Option String :=
  let lead := if directory == "." then [] else (directory ++ "/").toList
  if path == "." || !lead.isPrefixOf path.toList then none
  else
    let name := path.toList.drop lead.length
    if name.isEmpty || name.contains '/' then none else some (String.ofList name)

/-- The ending of the last segment from its last dot on; dots in front do not start an ending. -/
def ending (path : String) : List Char :=
  let name := ((basename path).toList).dropWhile (· == '.')
  if name.contains '.' then '.' :: (name.reverse.takeWhile (· != '.')).reverse else []

/-- The extension of a path, without dots. -/
def extension (path : String) : String := String.ofList ((ending path).dropWhile (· == '.'))

end LayeredConfig.Path
