import NilFlow.FileTree
import NilFlow.Toml.Table

/-!
# Settings

Two switches decide which consuming places count. They stand in the table `triggers` of the nearest
settings file: the one in the start directory, or else in the closest of its parents that has one.
Nothing but that file is looked at: if it cannot be read or is not valid, the switches have their
defaults. How a text is read as a table is not laid down here: whatever reads settings files is
given a reader, such as `Toml.read?`.
-/

namespace NilFlow

/-- The switches. Both are off by default. -/
structure Config where
  /-- Reading a map that may be nil counts as a consumption. -/
  errorOnNilableMapRead : Bool
  /-- Nil values are followed through the fields of structs. -/
  structInit : Bool
  deriving DecidableEq

/-- Why settings could not be loaded. -/
inductive ConfigError where
  | unreadable (file : Path)
  | invalid (file : Path)
  deriving DecidableEq

/-- The wording of a settings error. -/
def ConfigError.message : ConfigError → String
  | .unreadable file => "failed to read " ++ file.text
  | .invalid file => "invalid config in " ++ file.text

namespace Config

/-- Both switches off. -/
def default : Config := ⟨false, false⟩

/-- The name of settings files. -/
def fileName : String := "nilgate.toml"

/-- The text of a fresh settings file. -/
def defaultText : String :=
  "[triggers]\n"
    ++ "# Report reads of possibly-nil maps (`v := m[k]`) unless guarded by `v, ok := m[k]`.\n"
    ++ "error_on_nilable_map_read = false\n"
    ++ "# Follow nil values through struct fields (composite literals, returns, arguments).\n"
    ++ "struct_init = false\n"

/-- A switch, off unless it is given. -/
def switch? : Option Toml.Node → Option Bool
  | none => some false
  | some (.scalar (.boolean b)) => some b
  | some _ => none

/-- The switches of the table `triggers`, whose numbers have to stand for something even under other
keys. An array gives them in their order, and nothing after them is looked at; a date or time has no
entries that matter. -/
def ofNode? : Toml.Node → Option Config
  | .table _ entries => do
    guard (Toml.Entries.isValued entries)
    let mapRead ← switch? (Toml.Entries.get? entries "error_on_nilable_map_read")
    let structInit ← switch? (Toml.Entries.get? entries "struct_init")
    return ⟨mapRead, structInit⟩
  | .array items => do
    let mapRead ← switch? items[0]?
    let structInit ← switch? items[1]?
    return ⟨mapRead, structInit⟩
  | .scalar (.moment _) => some default
  | _ => none

/-- The switches in the text of a settings file; `none` if the text is not valid or a number outside
the table stands for nothing. -/
def ofText? (read : String → Option Toml.Entries) (text : String) : Option Config := do
  let root ← read text
  guard (Toml.Entries.isValued (root.filter (·.1 != "triggers")))
  match root.get? "triggers" with
  | none => return default
  | some node => ofNode? node

/-- The paths at which a settings file is looked for, nearest first. -/
def candidates (start : Path) : List Path :=
  start.lineage.map (·.join fileName)

/-- The nearest settings file. A directory of that name counts. -/
def find? (fs : FileSystem) (start : Path) : Option Path :=
  (candidates start).find? fs.isPresent

/-- The switches of the nearest settings file, or why it is of no use. -/
def tryLoad (read : String → Option Toml.Entries) (fs : FileSystem) (start : Path) :
    Except ConfigError Config :=
  match find? fs start with
  | none => .ok default
  | some file =>
    match fs.readText? file with
    | none => .error (.unreadable file)
    | some text =>
      match ofText? read text with
      | none => .error (.invalid file)
      | some config => .ok config

/-- The switches of the nearest settings file, or else the defaults. -/
def load (read : String → Option Toml.Entries) (fs : FileSystem) (start : Path) : Config :=
  match tryLoad read fs start with
  | .ok config => config
  | .error _ => default

end Config

end NilFlow
