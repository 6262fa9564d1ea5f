import NilFlow.FileTree
import NilFlow.Program.Codec

/-!
# Program files

A program file holds the tables of one package as JSON.
-/

namespace NilFlow

/-- Why a program file could not be loaded. -/
inductive LoadError where
  /-- There is no such file, or it is not text. -/
  | unreadable
  | invalid (problem : Problem)

/-- Loads a program file. -/
def Program.load (fs : FileSystem) (file : Path) : Except LoadError Program :=
  match fs.readText? file with
  | none => .error .unreadable
  | some text =>
    match Program.codec.decodeText text with
    | .error problem => .error (.invalid problem)
    | .ok p => .ok p

end NilFlow
