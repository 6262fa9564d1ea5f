import NilFlow.Config
import NilFlow.Event

/-!
# Policy

Some consuming places count only if their switch is on. Whoever walks over a program asks the policy
for the record of such a place, and gets none if it does not count.
-/

namespace NilFlow

/-- Which consuming places count. -/
structure Policy where
  /-- Reads of maps count. -/
  mapReads : Bool
  /-- Flows through the fields of structs count. -/
  structFields : Bool
  deriving DecidableEq

namespace Policy

/-- The policy of the given settings. -/
def ofConfig (c : Config) : Policy :=
  ⟨c.errorOnNilableMapRead, c.structInit⟩

/-- The policy of the default settings. -/
def default : Policy :=
  ofConfig Config.default

/-- The policy of the nearest settings file. -/
def discover (read : String → Option Toml.Entries) (fs : FileSystem) (start : Path) : Policy :=
  ofConfig (Config.load read fs start)

/-- What is told about a policy that was discovered. -/
def events (p : Policy) : List Event :=
  [.policyChosen p.mapReads p.structFields]

/-- A map is read. -/
def mapRead (p : Policy) (expr : Expr) : Option Record :=
  if p.mapReads then some (.unguarded .mapAccess expr) else none

/-- A field flows out with a returned struct. -/
def resultField (p : Policy) (site : ResultFieldSite) (expr : Expr) : Option Record :=
  if p.structFields then some (.ofResultField site expr) else none

/-- A field leaves its function with its struct. -/
def escapingField (p : Policy) (field : FieldDecl) (expr : Expr) : Option Record :=
  if p.structFields then some (.ofEscapingField field expr) else none

/-- A field flows into a call with a struct. -/
def argumentField (p : Policy) (site : ArgumentFieldSite) (expr : Expr) : Option Record :=
  if p.structFields then some (.ofArgumentField site expr) else none

/-- A value is stored deeply in a local variable, which counts under every policy. -/
def deepLocalAssign (var : VarDecl) (expr : Expr) : Record :=
  .unguarded (.localVarAssignDeep var) expr

end Policy

end NilFlow
