import NilFlow.RecordSet.Join

/-!
# Comparing record sets

Two record sets are equal when they hold the same records in any order. Records are the same when
they agree in obligation, guards and flag. A set that has a record twice cannot be compared.
-/

namespace NilFlow

namespace RecordSet

/-- The first record that comes again later. -/
def firstDuplicate : RecordSet → Option Record
  | [] => none
  | r :: rest => if rest.any (·.id = r.id) then some r else firstDuplicate rest

/-- A record that makes two sets incomparable, the left set being looked at first. -/
def duplicate? (left right : RecordSet) : Option Record :=
  (firstDuplicate left).or (firstDuplicate right)

/-- Whether two sets without duplicates hold the same records. -/
def sameRecords (left right : RecordSet) : Bool :=
  left.length = right.length && left.all fun l => right.any (·.id = l.id)

/-- Whether two sets are equal; a record that one of them has twice is the error. -/
def equal (left right : RecordSet) : Except Record Bool :=
  match duplicate? left right with
  | some r => .error r
  | none => .ok (sameRecords left right)

/-- The wording for a record that a set has twice. -/
def duplicateMessage (r : Record) : String :=
  "duplicate obligation in record set: " ++ r.text

/-- What is told about a comparison. -/
def equalEvents (left right : RecordSet) : List Event :=
  match duplicate? left right with
  | some r => [.duplicate r]
  | none => []

/-- Which records of a set fire under a snapshot. -/
def verdicts (m : Snapshot) (rs : RecordSet) : List Bool :=
  rs.map (·.fires m)

/-- What is told when the records of a set are evaluated. -/
def verdictEvents (m : Snapshot) (rs : RecordSet) : List Event :=
  rs.map fun r => .evaluated r (r.fires m)

end RecordSet

end NilFlow
