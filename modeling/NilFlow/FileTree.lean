import NilFlow.Path

/-!
# File systems

The search for a settings file asks a file system two things: whether a path leads to something, and
which text is stored there. `FileTree` is a file system given by its files and directories.
-/

namespace NilFlow

/-- What can be asked of a file system. -/
structure FileSystem where
  /-- Whether the path leads to a file or a directory. -/
  isPresent : Path → Bool
  /-- The text of a file; `none` if there is no such file or it is not text. -/
  readText? : Path → Option String

/-- Files with their content and directories, each by the names on the way to it from the root. The
directories on the way to something are there as well. -/
structure FileTree where
  files : List (List String × ByteArray)
  dirs : List (List String)

namespace FileTree

/-- The content of a file. -/
def content? (t : FileTree) (names : List String) : Option ByteArray :=
  (t.files.find? (·.1 == names)).map (·.2)

/-- Whether there is a directory. -/
def isDir (t : FileTree) (names : List String) : Bool :=
  names.isEmpty || t.dirs.any (names.isPrefixOf ·)
    || t.files.any fun f => names.isPrefixOf f.1 && names != f.1

/-- Follows the segments of a path from a directory. Every step needs a directory to start from;
stepping out of the root leads nowhere. -/
def walk (t : FileTree) : List String → List String → Option (List String)
  | names, [] => some names
  | names, s :: rest =>
    if t.isDir names then
      if Path.isIdle s then t.walk names rest
      else if s = ".." then
        if names.isEmpty then none else t.walk names.dropLast rest
      else
        let next := names ++ [s]
        if t.isDir next || (t.content? next).isSome then t.walk next rest else none
    else none

/-- Where a path leads. The working directory is the root, and nothing outside the root is part of
the tree. -/
def locate? (t : FileTree) (p : Path) : Option (List String) :=
  t.walk [] p.segments

/-- The file system of a tree. Texts are UTF-8. -/
def toFileSystem (t : FileTree) : FileSystem where
  isPresent p := (t.locate? p).isSome
  readText? p := do
    let names ← t.locate? p
    let bytes ← t.content? names
    String.fromUTF8? bytes

end FileTree

end NilFlow
