import NilFlow.Record

/-!
# Events

What the analysis tells about its work while it runs. Each event has a level, a message and named
values.
-/

namespace NilFlow

/-- Something worth telling. -/
inductive Event where
  /-- A join dropped guards of `record` that the other path does not hold, and kept the rest. -/
  | guardsDropped (record : Record) (kept : GuardSet)
  /-- Two record sets of the given sizes were joined. -/
  | merged (left right result : Nat)
  | evaluated (record : Record) (fires : Bool)
  /-- A set that is to be compared has a record twice. -/
  | duplicate (record : Record)
  /-- An index of so many sites and unconditional records was built. -/
  | indexBuilt (sites always : Nat)
  | policyChosen (mapRead structInit : Bool)

namespace Event

/-- How much the event matters. -/
def level : Event → String
  | .guardsDropped .. | .merged .. | .indexBuilt .. | .policyChosen .. => "DEBUG"
  | .evaluated .. => "TRACE"
  | .duplicate .. => "WARN"

/-- What happened. -/
def message : Event → String
  | .guardsDropped .. => "guards not held on both paths dropped at join"
  | .merged .. => "merged record sets"
  | .evaluated .. => "evaluated consumption record"
  | .duplicate .. => "duplicate record in set comparison"
  | .indexBuilt .. => "built site index"
  | .policyChosen .. => "consumer policy"

/-- A truth value in words. -/
def switchText (b : Bool) : String :=
  if b then "true" else "false"

/-- The values told along. -/
def values : Event → List (String × String)
  | .guardsDropped r kept => [("record", r.text), ("kept", kept.text)]
  | .merged l r n => [("left", toString l), ("right", toString r), ("merged", toString n)]
  | .evaluated r fires => [("record", r.text), ("fires", switchText fires)]
  | .duplicate r => [("record", r.text)]
  | .indexBuilt sites always => [("sites", toString sites), ("always", toString always)]
  | .policyChosen mapRead structInit =>
    [("map_read", switchText mapRead), ("struct_init", switchText structInit)]

end Event

end NilFlow
