/-!
# Paths

A path is the list of its segments, as they stand in its text. Empty segments (from doubled or
trailing slashes) and `.` name no place of their own; `..` is a segment like any other, and only a
file system gives it a meaning. The parent of a path is found in its text: the last segment that
counts goes, and with it the idle segments around it. Idle segments do not count, except for the `.`
that a relative path starts with: the parent of `./a` is `.`, whose parent is the empty path.
-/

namespace NilFlow

/-- A path from the top of the file system if `anchored`, and else from the working directory. -/
structure Path where
  anchored : Bool
  segments : List String
  deriving DecidableEq

namespace Path

/-- The path that a text spells. -/
def ofText (s : String) : Path :=
  match s.toList with
  | '/' :: cs => ⟨true, (String.ofList cs).splitOn "/"⟩
  | _ => ⟨false, s.splitOn "/"⟩

/-- The text of a path, as it was built. -/
def text (p : Path) : String :=
  (if p.anchored then "/" else "") ++ "/".intercalate p.segments

/-- A segment that names no place of its own. -/
def isIdle (s : String) : Bool :=
  s = "" || s = "."

/-- The path of an entry of a directory. A trailing slash is used up. -/
def join (p : Path) (name : String) : Path :=
  match p.segments.getLast? with
  | some "" => { p with segments := p.segments.dropLast ++ [name] }
  | _ => { p with segments := p.segments ++ [name] }

/-- Whether a segment does not count when parents are found, given those before it, last first. -/
def isSkipped (anchored : Bool) (before : List String) (s : String) : Bool :=
  isIdle s && (s = "" || anchored || !before.isEmpty)

/-- The segments up to the last one that counts; segments are given and returned last first. -/
def trimRev (anchored : Bool) : List String → List String
  | [] => []
  | s :: before => if isSkipped anchored before s then trimRev anchored before else s :: before

/-- The segments of all parents, nearest first; segments are given and returned last first. -/
def parentsRev (anchored : Bool) : List String → List (List String)
  | [] => []
  | s :: before =>
    if isSkipped anchored before s then parentsRev anchored before
    else trimRev anchored before :: parentsRev anchored before

/-- The path and its parents, nearest first. -/
def lineage (p : Path) : List Path :=
  p :: (parentsRev p.anchored p.segments.reverse).map fun segments =>
    { p with segments := segments.reverse }

/-- The parent, unless nothing is left to drop. -/
def parent? (p : Path) : Option Path :=
  match trimRev p.anchored p.segments.reverse with
  | [] => none
  | _ :: before => some { p with segments := (trimRev p.anchored before).reverse }

end Path

end NilFlow
